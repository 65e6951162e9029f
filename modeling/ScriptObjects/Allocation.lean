import ScriptObjects.Request
import ScriptObjects.Steps

/-!
# New instances

An instance is laid out before anything is declared on it: one level for each class
of the chain as it stands, each with three empty stores and an unbound reference to
its host object.  Its scopes are opened on demand.
-/

namespace ScriptObjects

set_option autoImplicit false

/-- The levels of a new instance, for the rest of its chain from a place on. -/
def layLevels (owner : InstanceId) : Nat → List ClassId → Exec (List Level)
  | _, [] => return []
  | place, id :: rest => do
      let cls := (← get).cls id
      let reference ← Exec.newReference ⟨cls.name, cls.described, some owner, none⟩
      let globals ← Exec.newStore (.level owner place id .global)
      let internals ← Exec.newStore (.level owner place id .internal)
      let locals ← Exec.newStore (.level owner place id .localOnly)
      return ⟨id, reference, globals, internals, locals⟩ :: (← layLevels owner (place + 1) rest)

/-- A new, unconstructed instance. -/
def newInstance (id : ClassId) (options : CreateOptions) : Exec InstanceId := do
  let cls := (← get).cls id
  unless options.has .enforceCreation || cls.mode.creatable do
    throw (.notCreatable cls.name cls.mode)
  let owner := (← get).instances.next
  let levels ← layLevels owner 0 (← Exec.ancestors id)
  Exec.change fun world =>
    { world with instances := world.instances.push ⟨id, levels, [], false, none, true, []⟩ }
  return owner

/-- A new instance that went through the construction protocol. -/
def instantiate (perform : Perform) (id : ClassId) (options : CreateOptions) (args : List Value) :
    Exec InstanceId := do
  let created ← newInstance id options
  perform (.construct created options args)
  return created

/-- A new instance of the class of a name. -/
def createInstance (perform : Perform) (className : String) (options : CreateOptions)
    (args : List Value) : Exec InstanceId := do
  match (← get).findClass? className with
  | some id => instantiate perform id options args
  | none => throw (.unknownClass className)

/-- The variables of the assembly visible at a tier, most restrictive tier first. -/
def rootScope (access : Access) : Scope :=
  .composite (access.downward.map fun tier => .store (World.rootStore tier))

/-- The stores that one level contributes to a composite scope. -/
def levelSources (access : Access) (level : Level) : List Scope :=
  if access.admits .internal then [.store level.internals, .store level.globals]
  else [.store level.globals]

/-- The sources of a composite scope of an instance, without the roots. -/
def chainSources (levels : List Level) (view : Viewpoint) : List Scope :=
  match view.mode with
  | .base => (levels.drop (view.level + 1)).flatMap (levelSources view.access)
  | _ =>
      let own := if view.access = .localOnly then
          (levels[view.level]?.map fun level => Scope.store level.locals).toList
        else []
      own ++ levels.flatMap (levelSources view.access)

/-- A composite scope of an instance; the roots come last. -/
def compositeScope (levels : List Level) (view : Viewpoint) (rooted : Bool) : Scope :=
  .composite (chainSources levels view ++ if rooted then [rootScope view.access] else [])

/-- A scope of an instance; none when it has no such level.  A composite ends in the roots if the
assembly was there when it was first opened. -/
def openScope? (id : InstanceId) (view : Viewpoint) : Exec (Option Scope) := do
  let world ← get
  let object := world.object id
  match object.levels[view.level]? with
  | none => return none
  | some level =>
      match view.mode with
      | .declarations => return some (.store (level.declarations view.access))
      | .base | .all =>
          let known := object.opened.contains view
          if world.alive && !known then
            Exec.change (·.withObject id fun object =>
              { object with opened := view :: object.opened })
          return some (compositeScope object.levels view (known || world.alive))

/-- Everything visible from outside at a tier. -/
def memberScope (id : InstanceId) (access : Access) : Exec Scope := do
  return (← openScope? id ⟨0, access, .all⟩).getD (.composite [])

end ScriptObjects

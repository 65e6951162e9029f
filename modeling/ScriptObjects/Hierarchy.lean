import ScriptObjects.World

/-!
# The class hierarchy

A class refers to its base by name.  The reference is resolved the first time
anything walks to the base while it exists, and stays resolved; since a registered
class is never replaced, remembering it changes no answer.  Walks go from a class
toward its root and stop where a class repeats, so that they end on every graph.

The questions are asked of a state and change nothing.  A walk does leave the base
references of the classes it has visited resolved; `World.resolveBases` records
that, and each walking question comes with the list of classes it visits.
-/

namespace ScriptObjects

set_option autoImplicit false

/-- The members of a list up to and including the first that satisfies a condition. -/
def through {α : Type} (condition : α → Bool) : List α → List α
  | [] => []
  | x :: rest => if condition x then [x] else x :: through condition rest

namespace World

/-- The class a reference stands for at this moment; none once the assembly is gone. -/
def target? (world : World) (reference : ClassRefId) : Option ClassId :=
  if world.alive then
    let cell := world.classRefs.get reference
    match cell.target with
    | some target => some target
    | none => world.findClass? cell.name
  else none

/-- The base of a class, as far as it is registered. -/
def base? (world : World) (id : ClassId) : Option ClassId :=
  (world.cls id).base.bind world.target?

/-- The reference after an attempt to resolve it. -/
def touchRef (world : World) (reference : ClassRefId) : World :=
  match world.target? reference with
  | some target => world.resolveRef reference target
  | none => world

/-- The state after the base references of some classes were followed. -/
def resolveBases (world : World) (visited : List ClassId) : World :=
  visited.foldl (fun world id =>
    match (world.cls id).base with
    | some reference => world.touchRef reference
    | none => world) world

/-- The classes met from a class on, up to the first whose identity was seen before. -/
def walk (world : World) : Nat → List TypeHash → Option ClassId → List ClassId
  | 0, _, _ => []
  | _ + 1, _, none => []
  | fuel + 1, seen, some id =>
      let hash := (world.cls id).hash
      if hash ∈ seen then [] else id :: world.walk fuel (hash :: seen) (world.base? id)

/-- A class followed by its bases, most derived first. -/
def ancestors (world : World) (id : ClassId) : List ClassId :=
  world.walk (world.classes.size + 1) [] (some id)

/-- The bases of a class, nearest first, without the class itself. -/
def properAncestors (world : World) (id : ClassId) : List ClassId :=
  world.walk (world.classes.size + 1) [(world.cls id).hash] (world.base? id)

/-- The number of levels of the chain of a class. -/
def depth (world : World) (id : ClassId) : Nat := (world.ancestors id).length

/-- Whether a class named so is a proper ancestor. -/
def doesExtend (world : World) (id : ClassId) (name : String) : Bool :=
  (world.properAncestors id).any fun ancestor => (world.cls ancestor).name = name

/-- The classes visited in order to answer `doesExtend`. -/
def visitedByExtend (world : World) (id : ClassId) (name : String) : List ClassId :=
  id :: through (fun ancestor => (world.cls ancestor).name = name) (world.properAncestors id)

/-- The nearest answer that a question has along the chain of a class. -/
def nearest? {α : Type} (world : World) (id : ClassId) (question : ClassDef → Option α) :
    Option α :=
  (world.ancestors id).findSome? fun ancestor => question (world.cls ancestor)

/-- The classes visited in order to find the nearest answer. -/
def visitedByNearest {α : Type} (world : World) (id : ClassId) (question : ClassDef → Option α) :
    List ClassId :=
  through (fun ancestor => (question (world.cls ancestor)).isSome) (world.ancestors id)

end World

/-- The function of a name that a class itself declares, if it is accepted. -/
def ClassDef.acceptedFunction? (name : String) (accepts : Function → Bool) (cls : ClassDef) :
    Option Function :=
  (cls.function? name).filter accepts

/-- The field of a name that a class itself declares, if it is accepted. -/
def ClassDef.acceptedField? (name : String) (accepts : Field → Bool) (cls : ClassDef) :
    Option Field :=
  (cls.field? name).filter accepts

namespace World

/-- The link of a meta-function: the function of its name nearest to a class. -/
def metaLink? (world : World) (id : ClassId) (key : MetaKey) : Option MetaLink :=
  (world.nearest? id (ClassDef.acceptedFunction? key.methodName fun _ => true)).map fun function =>
    ⟨key, function.owner.getD ⟨(world.cls id).name, (world.cls id).hash⟩, function.access, function⟩

/-- The keys a class may answer to. -/
def metaKeys (world : World) (id : ClassId) : List MetaKey :=
  if (world.cls id).mode = .marker then MetaKey.all else MetaKey.classKeys

/-- The table of the meta-functions of a class, as the hierarchy stands. -/
def buildMetaTable (world : World) (id : ClassId) : MetaTable :=
  ⟨(world.metaKeys id).filterMap (world.metaLink? id)⟩

/-- The classes visited in order to build the table. -/
def visitedByMetaTable (world : World) (id : ClassId) : List ClassId :=
  (world.metaKeys id).flatMap fun key =>
    world.visitedByNearest id (ClassDef.acceptedFunction? key.methodName fun _ => true)

/-- The meta-functions of a class: as first asked for, or as the hierarchy stands. -/
def metaTable (world : World) (id : ClassId) : MetaTable :=
  (world.cls id).metaTable.getD (world.buildMetaTable id)

/-- The state after the meta-functions of a class were asked for. -/
def keepMetaTable (world : World) (id : ClassId) : World :=
  match (world.cls id).metaTable with
  | some _ => world
  | none =>
      let table := world.buildMetaTable id
      (world.resolveBases (world.visitedByMetaTable id)).withClass id fun cls =>
        { cls with metaTable := some table }

end World

end ScriptObjects

import ScriptObjects.Proofs.Constructions

/-!
# Equations of lookups

What the parts of a lookup do, case by case: adding a slot, writing one, and turning a
function into one.  The last is put in terms of what a store offers under a name.
-/

namespace ScriptObjects

set_option autoImplicit false

open Exec

/-! ## Slots -/

theorem insertSlot_of_declared {world : World} {id : StoreId} {name : String} (slot : Slot)
    (taken : (world.store id).declares name = true) :
    insertSlot id name slot world = (.failed (.lookup (.alreadyDeclared name)), world) := by
  simp only [insertSlot, get_bind_apply, taken, if_true, throw_bind_apply]

theorem insertSlot_of_free {world : World} {id : StoreId} {name : String} (slot : Slot)
    (free : (world.store id).declares name = false) :
    insertSlot id name slot world = (.done (), world.withStore id (·.insert name slot)) := by
  simp only [insertSlot, get_bind_apply, free, Bool.false_eq_true, if_false, change_apply]

theorem declareField_of_declared (className : String) {world : World} {level : Level}
    {field : Field}
    (taken : (world.store (level.declarations field.access)).declares field.name = true) :
    declareField className level field world =
      (.failed (.declaration className field.name (.alreadyDeclared field.name)), world) :=
  wrapFault_of_failed _ (insertSlot_of_declared _ taken)

theorem declareField_of_free (className : String) {world : World} {level : Level} {field : Field}
    (free : (world.store (level.declarations field.access)).declares field.name = false) :
    declareField className level field world =
      (.done (), world.withStore (level.declarations field.access)
        (·.insert field.name (fieldSlot field level.reference))) :=
  wrapFault_of_done _ (insertSlot_of_free _ free)

theorem annotateSlot_of_declared {world : World} {id : StoreId} {name : String}
    (annotations : List InstanceId) (declared : (world.store id).declares name = true) :
    annotateSlot id name annotations world =
      (.done (), world.withStore id
        (·.modify name fun slot => { slot with annotations := annotations })) := by
  simp only [annotateSlot, get_bind_apply, declared, if_true]
  rfl

theorem coerce?_apply (type : ValueType) (value : Value) (world : World) :
    coerce? type value world =
      (.done (if world.accepts type value then some (type.widen value) else none),
        world.resolveBases (world.visitedByAccepts type value)) := by
  have asked : accepts type value world = (.done (world.accepts type value),
      world.resolveBases (world.visitedByAccepts type value)) := rfl
  simp only [coerce?]
  rw [bind_of_done _ asked]
  rfl

/-- The part of a write in which the hooks of a slot see the value. -/
def writeHooks (perform : Perform) (id : StoreId) (name : String) (slot : Slot) (value : Value) :
    Exec Value :=
  if slot.annotations.isEmpty then pure value
  else do
    requireStoreAssembly id
    intercept perform .onWrite name value slot.annotations

/-- The part of a write that follows the hooks. -/
def storeValue (id : StoreId) (name : String) (slot : Slot) (value : Value) : Exec Unit := do
  match ← Exec.coerce? slot.type value with
  | none => throw (.lookup (.typeMismatch name slot.type.name (← typeNameOf value)))
  | some stored =>
      match slot.content with
      | .script _ => Exec.change (·.withStore id (·.modify name (·.write stored)))
      | .host accessor reference => do
          requireStoreAssembly id
          let host ← resolveReference reference
          accessor.write host (← toHost stored slot.type)

section

variable (perform : Perform) {world : World} {id : StoreId} {name : String} (value : Value)

theorem assignSlot_of_missing (missing : (world.store id).slot? name = none) :
    assignSlot perform id name value world = (.failed (.lookup (.notDeclared name)), world) := by
  simp only [assignSlot, get_bind_apply, missing, throw_apply]

theorem assignSlot_of_immutable {slot : Slot} (found : (world.store id).slot? name = some slot)
    (held : slot.immutable = true) :
    assignSlot perform id name value world =
      (.failed (.lookup (.immutableFunction name)), world) := by
  simp only [assignSlot, get_bind_apply, found, held, if_true, throw_bind_apply]

/-- A write to a variable consists of what its hooks do and of what is done with their result. -/
theorem assignSlot_of_mutable {slot : Slot} (found : (world.store id).slot? name = some slot)
    (isMutable : slot.immutable = false) :
    assignSlot perform id name value world =
      (writeHooks perform id name slot value >>= storeValue id name slot) world := by
  simp only [assignSlot, get_bind_apply, found, isMutable, Bool.false_eq_true, if_false, writeHooks]
  split
  · rfl
  · rw [bind_assoc]
    rfl

omit perform in
/-- What comes out of the hooks of a variable is stored if the type accepts it. -/
theorem storeValue_of_script {slot : Slot} {kept : Option Value}
    (content : slot.content = .script kept) :
    storeValue id name slot value world =
      if world.accepts slot.type value then
        (.done (), (world.resolveBases (world.visitedByAccepts slot.type value)).withStore id
          (·.modify name (·.write (slot.type.widen value))))
      else (.failed (.lookup (.typeMismatch name slot.type.name (world.typeName value))),
        world.resolveBases (world.visitedByAccepts slot.type value)) := by
  have coerced := coerce?_apply slot.type value world
  have named : (world.resolveBases (world.visitedByAccepts slot.type value)).typeName value =
      world.typeName value := by
    rw [World.resolveBases_eq]
    cases value <;> rfl
  unfold storeValue
  rw [bind_of_done _ coerced, ← named]
  cases world.accepts slot.type value with
  | false => rfl
  | true =>
      simp only [if_true, content]
      rfl

end

/-! ## Functions as slots -/

/-- The state after a store was asked for a function: the bases on the way are resolved. -/
def World.askedFor (world : World) (id : StoreId) (name : String) : World :=
  match (world.store id).home with
  | .level _ _ cls tier =>
      if tier = .localOnly then world
      else world.resolveBases (world.visitedByNearest cls
        (ClassDef.acceptedFunction? name fun function => function.access = tier))
  | .free _ | .root _ => world

theorem findFunction?_apply (world : World) (cls : ClassId) (name : String) (tier : Access) :
    findFunction? cls name (tier = .localOnly) (fun function => function.access = tier) world =
      (.done (world.levelFunction? cls tier name),
        if tier = .localOnly then world
        else world.resolveBases (world.visitedByNearest cls
          (ClassDef.acceptedFunction? name fun function => function.access = tier))) := by
  cases tier <;> rfl

section

variable (perform : Perform) {world : World} {id : StoreId} {name : String}

theorem materialize_of_free {attached : Bool} (home : (world.store id).home = .free attached) :
    materialize perform id name world = (.done false, world) := by
  simp only [materialize, get_bind_apply, home, pure_apply]

theorem materialize_of_dropped (home : ∀ attached, (world.store id).home ≠ .free attached)
    (dropped : world.alive = false) :
    materialize perform id name world = (.failed .assemblyDropped, world) := by
  unfold materialize
  rw [get_bind_apply]
  cases sits : (world.store id).home with
  | free attached => exact absurd sits (home attached)
  | level | root => exact bind_of_failed _ (requireAssembly_of_dropped dropped)

/-- A store that offers nothing under a name does not turn it into a slot. -/
theorem materialize_of_none (alive : world.alive = true) (missing : world.offer? id name = none) :
    materialize perform id name world = (.done false, world.askedFor id name) := by
  unfold World.offer? at missing
  unfold materialize World.askedFor
  rw [get_bind_apply]
  cases sits : (world.store id).home with
  | free attached => rfl
  | level owner level cls tier =>
      rw [sits] at missing
      have found : world.levelFunction? cls tier name = none := Option.map_eq_none_iff.mp missing
      have asked := findFunction?_apply world cls name tier
      rw [found] at asked
      refine (bind_of_done _ (requireAssembly_of_alive alive)).trans ?_
      exact bind_of_done _ asked
  | root tier =>
      rw [sits] at missing
      have found := Option.map_eq_none_iff.mp missing
      refine (bind_of_done _ (requireAssembly_of_alive alive)).trans ?_
      rw [get_bind_apply, found]
      rfl

/-- What a store offers under a name is installed there, unless the instance it is bound to is
gone. -/
theorem materialize_of_some (alive : world.alive = true) {function : Function}
    {receiver : Option Receiver} (offered : world.offer? id name = some (function, receiver)) :
    materialize perform id name world =
      if receiver.all fun target => (world.object target.owner).alive then
        (installFunction perform id function receiver >>= fun _ => pure true)
          (world.askedFor id name)
      else (.failed (.instanceDropped function.label), world.askedFor id name) := by
  unfold World.offer? at offered
  unfold materialize World.askedFor
  rw [get_bind_apply]
  cases sits : (world.store id).home with
  | free attached => rw [sits] at offered; cases offered
  | level owner level cls tier =>
      rw [sits] at offered
      obtain ⟨declared, found, same⟩ := Option.map_eq_some_iff.mp offered
      cases same
      have asked := findFunction?_apply world cls name tier
      rw [found] at asked
      refine (bind_of_done _ (requireAssembly_of_alive alive)).trans ?_
      refine (bind_of_done _ asked).trans ?_
      dsimp only
      obtain ⟨visited, followed⟩ : ∃ visited, (if tier = .localOnly then world
          else world.resolveBases (world.visitedByNearest cls (ClassDef.acceptedFunction? name
            fun function => function.access = tier))) = world.resolveBases visited := by
        split
        · exact ⟨[], rfl⟩
        · exact ⟨_, rfl⟩
      rw [followed]
      have living : (world.resolveBases visited).object owner = world.object owner := by
        rw [World.resolveBases_eq]
        rfl
      have bound : (world.resolveBases visited).boundLevel owner level function =
          world.boundLevel owner level function := by
        unfold World.boundLevel World.levelOf?
        rw [living]
        simp only [World.cls_resolveBases]
      rw [get_bind_apply, Option.all_some, living, ← bound]
      cases (world.object owner).alive <;> rfl
  | root tier =>
      rw [sits] at offered
      obtain ⟨declared, found, same⟩ := Option.map_eq_some_iff.mp offered
      cases same
      refine (bind_of_done _ (requireAssembly_of_alive alive)).trans ?_
      rw [get_bind_apply, found]
      rfl

end

/-- Asking a store for a function follows some bases. -/
theorem askedFor_follows (world : World) (id : StoreId) (name : String) :
    ∃ visited, world.askedFor id name = world.resolveBases visited := by
  unfold World.askedFor
  split
  · split
    · exact ⟨[], rfl⟩
    · exact ⟨_, rfl⟩
  · exact ⟨[], rfl⟩
  · exact ⟨[], rfl⟩

theorem store_askedFor (world : World) (id : StoreId) (name : String) (other : StoreId) :
    (world.askedFor id name).store other = world.store other := by
  obtain ⟨visited, follows⟩ := askedFor_follows world id name
  rw [follows, World.resolveBases_eq]
  rfl

theorem callables_askedFor (world : World) (id : StoreId) (name : String) :
    (world.askedFor id name).callables = world.callables := by
  obtain ⟨visited, follows⟩ := askedFor_follows world id name
  rw [follows, World.resolveBases_eq]

theorem offer?_of_free {world : World} {id : StoreId} {attached : Bool}
    (home : (world.store id).home = .free attached) (name : String) :
    world.offer? id name = none := by
  unfold World.offer?
  rw [home]

/-- Following bases changes no offer. -/
theorem offer?_resolveBases (world : World) (visited : List ClassId) (other : StoreId)
    (asked : String) : (world.resolveBases visited).offer? other asked = world.offer? other asked := by
  refine World.offer?_congr (World.SameHierarchy.resolveBases world visited) ?_ ?_ ?_ asked
  · rw [World.resolveBases_eq]
  · rw [World.resolveBases_eq]
    rfl
  · intro owner level cls tier _
    rw [World.resolveBases_eq]
    rfl

/-- Asking a store for a function changes no offer. -/
theorem offer?_askedFor (world : World) (id : StoreId) (name : String) (other : StoreId)
    (asked : String) : (world.askedFor id name).offer? other asked = world.offer? other asked := by
  obtain ⟨visited, follows⟩ := askedFor_follows world id name
  rw [follows, offer?_resolveBases]

/-! ## Functions as slots -/

/-- The state with the function that a store stands for as a slot. -/
def World.install (world : World) (store : StoreId) (function : Function)
    (receiver : Option Receiver) : World :=
  World.withStore { world with callables := world.callables.push (.ofFunction function receiver) }
    store (·.insert function.name (.function world.callables.next))

/-- Creating the annotations of a function and attaching them to its slot. -/
def attachAnnotations (perform : Perform) (id : StoreId) (function : Function)
    (receiver : Option Receiver) (context : ContextId) : Exec Unit := do
  let created ← createAnnotations perform function.label receiver context function.annotations
  annotateSlot id function.name created

/-- Attaching the annotations of a function to its slot, or withdrawing the slot again. -/
def attachOrWithdraw (perform : Perform) (id : StoreId) (function : Function)
    (receiver : Option Receiver) (context : ContextId) : Exec Unit :=
  (attachAnnotations perform id function receiver context).recover fun fault => do
    Exec.change (·.withStore id (·.erase function.name))
    throw fault

section

variable (perform : Perform) {world : World} {id : StoreId} {function : Function}
  (receiver : Option Receiver)

theorem attachOrWithdraw_of_done {context : ContextId} {after : World}
    {created : List InstanceId}
    (ends : createAnnotations perform function.label receiver context function.annotations world =
      (.done created, after)) (declared : (after.store id).declares function.name = true) :
    attachOrWithdraw perform id function receiver context world =
      (.done (), after.withStore id
        (·.modify function.name fun slot => { slot with annotations := created })) := by
  have attached : attachAnnotations perform id function receiver context world = _ :=
    (bind_of_done _ ends).trans (annotateSlot_of_declared created declared)
  exact recover_of_done _ attached

theorem attachOrWithdraw_of_failed {context : ContextId} {after : World} {fault : Fault}
    (ends : createAnnotations perform function.label receiver context function.annotations world =
      (.failed fault, after)) :
    attachOrWithdraw perform id function receiver context world =
      (.failed fault, after.withStore id (·.erase function.name)) :=
  recover_of_failed _ (bind_of_failed _ ends)

theorem attachOrWithdraw_of_exhausted {context : ContextId} {after : World}
    (ends : createAnnotations perform function.label receiver context function.annotations world =
      (.exhausted, after)) :
    attachOrWithdraw perform id function receiver context world = (.exhausted, after) :=
  recover_of_exhausted _ (bind_of_exhausted _ ends)

theorem installFunction_of_taken (taken : (world.store id).declares function.name = true) :
    installFunction perform id function receiver world =
      (.failed (.lookup (.alreadyDeclared function.name)),
        { world with callables := world.callables.push (.ofFunction function receiver) }) := by
  let made : World :=
    { world with callables := world.callables.push (.ofFunction function receiver) }
  have created : newCallable (.ofFunction function receiver) world =
      (.done world.callables.next, made) := rfl
  have declared : (made.store id).declares function.name = true := taken
  unfold installFunction
  rw [bind_of_done _ created, bind_of_failed _ (insertSlot_of_declared _ declared)]

theorem installFunction_of_free (free : (world.store id).declares function.name = false) :
    installFunction perform id function receiver world =
      (do
        unless function.annotations.isEmpty do
          attachOrWithdraw perform id function receiver (← Exec.newConfiguredContext) : Exec Unit)
        (world.install id function receiver) := by
  let made : World :=
    { world with callables := world.callables.push (.ofFunction function receiver) }
  have created : newCallable (.ofFunction function receiver) world =
      (.done world.callables.next, made) := rfl
  have vacant : (made.store id).declares function.name = false := free
  unfold installFunction
  rw [bind_of_done _ created, bind_of_done _ (insertSlot_of_free _ vacant)]
  rfl

theorem installFunction_of_plain (free : (world.store id).declares function.name = false)
    (plain : function.annotations = []) :
    installFunction perform id function receiver world =
      (.done (), world.install id function receiver) := by
  rw [installFunction_of_free perform receiver free, plain]
  rfl

theorem installFunction_of_annotated (free : (world.store id).declares function.name = false)
    (annotated : function.annotations ≠ []) :
    installFunction perform id function receiver world =
      attachOrWithdraw perform id function receiver world.contexts.next
        { world.install id function receiver with
          contexts := world.contexts.push (.fresh world.config.maxCallDepth) } := by
  have some : function.annotations.isEmpty = false :=
    Bool.eq_false_iff.mpr fun empty => annotated (List.isEmpty_iff.mp empty)
  rw [installFunction_of_free perform receiver free, some]
  rfl

end

end ScriptObjects

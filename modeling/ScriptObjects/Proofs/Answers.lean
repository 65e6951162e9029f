import ScriptObjects.Proofs.Misses

/-!
# What a lookup finds

In a settled session a lookup through a scope is decided by what the stores of the
scope have under the name: a variable, or a function they stand for.  The first store
that has something answers, and reading and writing agree on it.  A variable is read
and written where it is.  A function is what a read gives, whether it was looked up
before or is turned into a slot just now, and every write to it is refused.  Where the
function is annotated the same store answers, but its annotations are made and asked first.
-/

namespace ScriptObjects

set_option autoImplicit false

open Exec

/-- What a scope has under a name. -/
inductive Answer where
  /-- A variable in a store. -/
  | slot (store : StoreId)
  /-- A function and what it is bound to. -/
  | function (function : Function) (receiver : Option Receiver)

/-- The store of an answer that is a variable. -/
def Answer.store? : Answer → Option StoreId
  | .slot store => some store
  | .function .. => none

/-- The name of the function of an answer that is one, and what it is bound to. -/
def Answer.bound? : Answer → Option (String × Option Receiver)
  | .slot _ => none
  | .function called receiver => some (called.name, receiver)

namespace World

/-- What a store has under a name. -/
def answer? (world : World) (name : String) (store : StoreId) : Option Answer :=
  if ((world.store store).slot? name).any fun slot => !slot.immutable then
    some (.slot store)
  else (world.offer? store name).map fun offer => .function offer.1 offer.2

mutual

/-- What a scope has under a name. -/
def answerIn? (world : World) (name : String) : Scope → Option Answer
  | .store id => world.answer? name id
  | .composite sources => world.answerAmong? name sources

/-- What the first of several scopes that has something has under a name. -/
def answerAmong? (world : World) (name : String) : List Scope → Option Answer
  | [] => none
  | source :: rest => (world.answerIn? name source).or (world.answerAmong? name rest)

end

/-- Lookups of a name through a scope find an answer, or nothing. -/
inductive Finds (world : World) (scope : Scope) (name : String) : Option Answer → Prop
  | slot {store : StoreId} {slot : Slot}
      (there : (world.store store).slot? name = some slot) (isMutable : slot.immutable = false)
      (read : ∀ budget, performUpTo (budget + 1) (.read scope name) world =
        readSlot (performUpTo budget) store name world)
      (assign : ∀ budget value, performUpTo (budget + 1) (.assign scope name value) world =
        assignSlot (performUpTo budget) store name value world) :
      Finds world scope name (some (.slot store))
  | function {function : Function} {receiver : Option Receiver} {callable : CallableId}
      {after : World} (made : after.callables.get? callable = some (.ofFunction function receiver))
      (read : ∀ budget, performUpTo (budget + 1) (.read scope name) world =
        (.done (.function callable), after))
      (assign : ∀ budget value, performUpTo (budget + 1) (.assign scope name value) world =
        (.failed (.lookup (.immutableFunction name)), after)) :
      Finds world scope name (some (.function function receiver))
  | nothing
      (read : ∀ budget, performUpTo (budget + 1) (.read scope name) world =
        (.failed (.lookup (.notDeclared name)), world))
      (assign : ∀ budget value, performUpTo (budget + 1) (.assign scope name value) world =
        (.failed (.lookup (.notDeclared name)), world)) :
      Finds world scope name none

theorem Finds.slot_of {world : World} {scope : Scope} {name : String} {answer : Option Answer}
    {store : StoreId} (finds : world.Finds scope name answer)
    (found : answer.bind Answer.store? = some store) :
    world.Finds scope name (some (.slot store)) := by
  obtain ⟨answer, rfl, same⟩ := Option.bind_eq_some_iff.mp found
  cases answer with
  | slot =>
      cases same
      exact finds
  | function => cases same

theorem Finds.function_of {world : World} {scope : Scope} {name label : String}
    {answer : Option Answer} {receiver : Option Receiver} (finds : world.Finds scope name answer)
    (found : answer.bind Answer.bound? = some (label, receiver)) :
    ∃ function : Function, function.name = label ∧
      world.Finds scope name (some (.function function receiver)) := by
  obtain ⟨answer, rfl, same⟩ := Option.bind_eq_some_iff.mp found
  cases answer with
  | slot => cases same
  | function function receiver =>
      cases same
      exact ⟨function, rfl, finds⟩

/-- Lookups of a name through a scope reach an answer, or nothing.  A variable is read and
written in place; for a function they are the lookups at a store that has it in a slot or stands for
it, and may run the annotations of the function there. -/
inductive Reaches (world : World) (scope : Scope) (name : String) : Option Answer → Prop
  | slot {store : StoreId} {slot : Slot}
      (there : (world.store store).slot? name = some slot) (isMutable : slot.immutable = false)
      (read : ∀ budget, performUpTo (budget + 1) (.read scope name) world =
        readSlot (performUpTo budget) store name world)
      (assign : ∀ budget value, performUpTo (budget + 1) (.assign scope name value) world =
        assignSlot (performUpTo budget) store name value world) :
      Reaches world scope name (some (.slot store))
  | function {store : StoreId} {function : Function} {receiver : Option Receiver}
      (offered : world.offer? store name = some (function, receiver))
      (held : ∀ slot, (world.store store).slot? name = some slot →
        slot.immutable = true ∧ world.HoldsFunction slot function receiver)
      (read : ∀ budget, performUpTo (budget + 1) (.read scope name) world =
        readStore (performUpTo budget) store name world)
      (assign : ∀ budget value, performUpTo (budget + 1) (.assign scope name value) world =
        assignStore (performUpTo budget) store name value world) :
      Reaches world scope name (some (.function function receiver))
  | nothing
      (read : ∀ budget, performUpTo (budget + 1) (.read scope name) world =
        (.failed (.lookup (.notDeclared name)), world))
      (assign : ∀ budget value, performUpTo (budget + 1) (.assign scope name value) world =
        (.failed (.lookup (.notDeclared name)), world)) :
      Reaches world scope name none

/-- No function of a name is annotated, not even by hand where it is a slot. -/
structure Unannotated (name : String) (world : World) : Prop where
  functions : ∀ function, world.Declares function → function.name = name →
    function.annotations = []
  slots : ∀ store slot, (world.store store).slot? name = some slot → slot.immutable = true →
    slot.annotations = []

end World

namespace World

variable {world : World} {name : String}

/-! ## Stores -/

/-- A slot that holds a function and is not annotated is read as that function. -/
theorem readSlot_of_function (perform : Perform) {store : StoreId} {slot : Slot}
    (found : (world.store store).slot? name = some slot) {callable : CallableId}
    (content : slot.content = .script (some (.function callable))) (plain : slot.annotations = []) :
    readSlot perform store name world = (.done (.function callable), world) := by
  simp only [readSlot, get_bind_apply, found, content, pure_bind_apply, plain]
  rfl

/-- A store without a slot of the name turns to what it stands for. -/
theorem readStore_of_missing (perform : Perform) {store : StoreId}
    (missing : (world.store store).slot? name = none) :
    readStore perform store name world = (do
      if ← materialize perform store name then readSlot perform store name
      else throw (.lookup (.notDeclared name)) : Exec Value) world :=
  orElseMissing_of_missing (readSlot_of_missing perform missing)

theorem assignStore_of_missing (perform : Perform) {store : StoreId} (value : Value)
    (missing : (world.store store).slot? name = none) :
    assignStore perform store name value world = (do
      if ← materialize perform store name then throw (.lookup (.immutableFunction name))
      else throw (.lookup (.notDeclared name)) : Exec Unit) world :=
  orElseMissing_of_missing (assignSlot_of_missing perform value missing)

section

variable (perform : Perform) {store : StoreId} (alive : world.alive = true)

section

variable (missing : (world.store store).slot? name = none)
  (nothing : world.offer? store name = none)
include alive missing nothing

/-- A store that has nothing under a name leaves behind what it asked of the hierarchy. -/
theorem readStore_of_unknown :
    readStore perform store name world =
      (.failed (.lookup (.notDeclared name)), world.askedFor store name) := by
  have misses := materialize_of_none perform alive nothing
  rw [readStore_of_missing perform missing, bind_of_done _ misses]
  rfl

theorem assignStore_of_unknown (value : Value) :
    assignStore perform store name value world =
      (.failed (.lookup (.notDeclared name)), world.askedFor store name) := by
  have misses := materialize_of_none perform alive nothing
  rw [assignStore_of_missing perform value missing, bind_of_done _ misses]
  rfl

end

variable (bases : world.RemembersBases) (missing : (world.store store).slot? name = none)
  (nothing : world.offer? store name = none)
include alive bases missing nothing

theorem readStore_of_nothing :
    readStore perform store name world = (.failed (.lookup (.notDeclared name)), world) := by
  rw [readStore_of_unknown perform alive missing nothing, bases.askedFor]

theorem assignStore_of_nothing (value : Value) :
    assignStore perform store name value world = (.failed (.lookup (.notDeclared name)), world) := by
  rw [assignStore_of_unknown perform alive missing nothing, bases.askedFor]

end

section

variable (settled : world.Settled) (plain : world.Unannotated name)
include plain

/-- A function that has its slot is read from it. -/
theorem finds_held {store : StoreId} {slot : Slot}
    (found : (world.store store).slot? name = some slot) (held : slot.immutable = true)
    {callable : CallableId} (content : slot.content = .script (some (.function callable)))
    {function : Function} {receiver : Option Receiver}
    (made : world.callables.get? callable = some (.ofFunction function receiver)) :
    world.Finds (.store store) name (some (.function function receiver)) := by
  refine .function made (fun budget => ?_) fun budget value => ?_
  · exact orElseMissing_of_done (readSlot_of_function _ found content
      (plain.slots store slot found held))
  · have refused := assignSlot_of_immutable (performUpTo budget) value found held
    refine (orElseMissing_of_other fun fault last ends => ?_).trans refused
    rw [refused] at ends
    cases ends
    rfl

include settled

/-- A function that is on offer gets its slot, and is read from it. -/
theorem finds_offered {store : StoreId} {function : Function} {receiver : Option Receiver}
    (missing : (world.store store).slot? name = none)
    (offered : world.offer? store name = some (function, receiver))
    (living : (receiver.all fun target => (world.object target.owner).alive) = true) :
    world.Finds (.store store) name (some (.function function receiver)) := by
  obtain ⟨declared, named⟩ := World.offer?_declared offered
  have free : (world.store store).declares name = false := by simp [Store.declares, missing]
  have installs := fun perform => materialize_of_plain perform settled.ready offered free
    (plain.functions function declared named) living
  have slot := declares_install receiver (inside_of_offer? offered)
    (by rw [named]; exact free)
  rw [named] at slot
  have made : (world.install store function receiver).callables.get?
      world.callables.next = some (.ofFunction function receiver) :=
    Heap.get?_push_next _ _
  refine .function made (fun budget => ?_) fun budget value => ?_
  · refine (readStore_of_missing _ missing).trans ?_
    rw [bind_of_done _ (installs _)]
    exact readSlot_of_function _ slot rfl rfl
  · refine (assignStore_of_missing _ value missing).trans ?_
    rw [bind_of_done _ (installs _)]
    rfl

/-- A lookup finds the function that it reaches, where that is not annotated. -/
theorem Reaches.finds {scope : Scope} {answer : Option Answer}
    (reaches : world.Reaches scope name answer)
    (living : ∀ function receiver, answer = some (.function function receiver) →
      (receiver.all fun target => (world.object target.owner).alive) = true) :
    world.Finds scope name answer := by
  cases reaches with
  | slot there isMutable read assign => exact .slot there isMutable read assign
  | nothing read assign => exact .nothing read assign
  | @function store function receiver offered held read assign =>
      have alive := living function receiver rfl
      have finds : world.Finds (.store store) name (some (.function function receiver)) := by
        cases found : (world.store store).slot? name with
        | none => exact finds_offered settled plain found offered alive
        | some slot =>
            obtain ⟨isImmutable, callable, _, content, made⟩ := held slot found
            exact finds_held plain found isImmutable content made
      cases finds with
      | function made readHere assignHere =>
          exact .function made (fun budget => (read budget).trans (readHere budget))
            fun budget value => (assign budget value).trans (assignHere budget value)

end

/-! ## Reaching an answer -/

/-- A scope reaches what another one does where lookups through it are those through the other. -/
theorem Reaches.congr {scope other : Scope} {answer : Option Answer}
    (reaches : world.Reaches scope name answer)
    (reads : ∀ budget, performUpTo (budget + 1) (.read other name) world =
      performUpTo (budget + 1) (.read scope name) world)
    (assigns : ∀ budget value, performUpTo (budget + 1) (.assign other name value) world =
      performUpTo (budget + 1) (.assign scope name value) world) :
    world.Reaches other name answer := by
  cases reaches with
  | slot there isMutable read assign =>
      exact .slot there isMutable (fun budget => (reads budget).trans (read budget))
        fun budget value => (assigns budget value).trans (assign budget value)
  | function offered held read assign =>
      exact .function offered held (fun budget => (reads budget).trans (read budget))
        fun budget value => (assigns budget value).trans (assign budget value)
  | nothing read assign =>
      exact .nothing (fun budget => (reads budget).trans (read budget))
        fun budget value => (assigns budget value).trans (assign budget value)

section

variable (settled : world.Settled) (trusts : world.Trusts name)
include settled trusts

/-- A variable that was declared is not missed, whatever reading and writing it runs. -/
theorem readSlot_hits {store : StoreId} {slot : Slot}
    (found : (world.store store).slot? name = some slot) (budget : Nat) (fault : Fault)
    (last : World) (ends : readSlot (performUpTo budget) store name world = (.failed fault, last)) :
    fault.isMiss name = false := by
  have declared : name = name → (world.store store).declares name = true := fun _ => by
    simp [Store.declares, found]
  exact readSlot_passes (performUpTo_leads budget) (performUpTo_reads name budget)
    (performUpTo_construct_foreign budget) store name world declared settled.ready trusts
    fault last ends

theorem assignSlot_hits {store : StoreId} {slot : Slot}
    (found : (world.store store).slot? name = some slot) (budget : Nat) (value : Value)
    (fault : Fault) (last : World)
    (ends : assignSlot (performUpTo budget) store name value world = (.failed fault, last)) :
    fault.isMiss name = false := by
  have declared : name = name → (world.store store).declares name = true := fun _ => by
    simp [Store.declares, found]
  exact assignSlot_passes (performUpTo_leads budget) (performUpTo_reads name budget) store name
    value world declared settled.ready trusts fault last ends

/-- A lookup that reaches something does not report the name as missing. -/
theorem Reaches.read_hits {scope : Scope} {answer : Answer}
    (reaches : world.Reaches scope name (some answer)) (budget : Nat) (fault : Fault) (last : World)
    (ends : performUpTo (budget + 1) (.read scope name) world = (.failed fault, last)) :
    fault.isMiss name = false := by
  cases reaches with
  | slot there _ read =>
      exact readSlot_hits settled trusts there budget fault last ((read budget).symm.trans ends)
  | @function store function receiver offered _ read =>
      have knows : name = name → world.Knows store name := fun _ => .inr ⟨_, offered⟩
      exact readStore_passes (performUpTo_leads budget) (performUpTo_reads name budget)
        (performUpTo_construct_foreign budget) store name world knows settled.ready trusts
        fault last ((read budget).symm.trans ends)

theorem Reaches.assign_hits {scope : Scope} {answer : Answer}
    (reaches : world.Reaches scope name (some answer)) (budget : Nat) (value : Value)
    (fault : Fault) (last : World)
    (ends : performUpTo (budget + 1) (.assign scope name value) world = (.failed fault, last)) :
    fault.isMiss name = false := by
  cases reaches with
  | slot there _ _ assign =>
      exact assignSlot_hits settled trusts there budget value fault last
        ((assign budget value).symm.trans ends)
  | @function store function receiver offered _ _ assign =>
      have knows : name = name → world.Knows store name := fun _ => .inr ⟨_, offered⟩
      exact assignStore_passes (performUpTo_leads budget) (performUpTo_reads name budget) store
        name value world knows settled.ready trusts fault last
        ((assign budget value).symm.trans ends)

theorem reaches_variable {store : StoreId} {slot : Slot}
    (found : (world.store store).slot? name = some slot) (isMutable : slot.immutable = false) :
    world.Reaches (.store store) name (some (.slot store)) :=
  .slot found isMutable
    (fun budget => orElseMissing_of_other (readSlot_hits settled trusts found budget))
    fun budget value => orElseMissing_of_other (assignSlot_hits settled trusts found budget value)

omit trusts in
theorem reaches_nothing {store : StoreId} (missing : (world.store store).slot? name = none)
    (nothing : world.offer? store name = none) : world.Reaches (.store store) name none :=
  .nothing
    (fun budget => readStore_of_nothing (performUpTo budget) settled.alive settled.bases missing
      nothing)
    fun budget => assignStore_of_nothing (performUpTo budget) settled.alive settled.bases missing
      nothing

theorem reaches_store (store : StoreId) :
    world.Reaches (.store store) name (world.answer? name store) := by
  unfold World.answer?
  cases found : (world.store store).slot? name with
  | some slot =>
      cases held : slot.immutable with
      | false => simpa [held] using reaches_variable settled trusts found held
      | true =>
          obtain ⟨function, receiver, holds, offered⟩ :=
            settled.sound.laid.functions store name slot found held
          have reaches :
              world.Reaches (.store store) name (some (.function function receiver)) := by
            refine .function offered (fun other same => ?_) (fun _ => rfl) fun _ _ => rfl
            cases found.symm.trans same
            exact ⟨held, holds⟩
          simpa [held, offered] using reaches
  | none =>
      cases offered : world.offer? store name with
      | none => exact reaches_nothing settled found offered
      | some offer =>
          refine .function offered (fun slot same => ?_) (fun _ => rfl) fun _ _ => rfl
          cases found.symm.trans same

/-! ## Scopes -/

omit settled trusts in
theorem reaches_nil : world.Reaches (.composite []) name none :=
  .nothing (fun _ => rfl) fun _ _ => rfl

/-- A composite reaches what its first source reaches, and otherwise what the others do. -/
theorem reaches_cons {source : Scope} {rest : List Scope} {first later : Option Answer}
    (here : world.Reaches source name first)
    (others : first = none → world.Reaches (.composite rest) name later) :
    world.Reaches (.composite (source :: rest)) name (first.or later) := by
  cases first with
  | some answer =>
      rw [Option.some_or]
      exact here.congr
        (fun budget => orElseMissing_of_other (here.read_hits settled trusts budget))
        fun budget value => orElseMissing_of_other (here.assign_hits settled trusts budget value)
  | none =>
      rw [Option.none_or]
      cases here with
      | nothing read assign =>
          exact (others rfl).congr (fun budget => orElseMissing_of_missing (read budget))
            fun budget value => orElseMissing_of_missing (assign budget value)

mutual

/-- In a settled session a lookup reaches what the scope has under the name. -/
theorem reaches : (scope : Scope) → world.Reaches scope name (world.answerIn? name scope)
  | .store id => reaches_store settled trusts id
  | .composite sources => reaches_sources sources

theorem reaches_sources : (sources : List Scope) →
    world.Reaches (.composite sources) name (world.answerAmong? name sources)
  | [] => reaches_nil
  | source :: rest =>
      reaches_cons settled trusts (reaches source) fun _ => reaches_sources rest

end

end

end World

end ScriptObjects

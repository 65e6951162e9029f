import ScriptObjects.Proofs.Precedence

/-!
# Lookups in two states

Two states may differ in what some stores hold and in nothing else.  A lookup that looks at
none of these stores ends in both states alike, and the states that it leaves behind differ
only there again.  The lookups are those of names that resolve to a variable without
annotations, to a function without annotations, or to nothing, so that no body runs on the
way.  Here this is shown for one store at a time.
-/

namespace ScriptObjects

set_option autoImplicit false

open Exec

/-! ## Differences in stores -/

/-- Two states differ only in the contents of certain stores. -/
structure World.Beside (hidden : StoreId → Prop) (first second : World) : Prop where
  rest : second = { first with stores := second.stores }
  size : second.stores.size = first.stores.size
  homes : ∀ id, (second.store id).home = (first.store id).home
  visible : ∀ id, ¬ hidden id → second.store id = first.store id

namespace World.Beside

variable {hidden : StoreId → Prop} {first second : World} (beside : Beside hidden first second)
include beside

theorem sameHierarchy : SameHierarchy first second := by
  rw [beside.rest]
  exact ⟨rfl, rfl, fun _ => rfl, fun _ => rfl⟩

theorem alive : second.alive = first.alive := by
  rw [beside.rest]

theorem callables : second.callables = first.callables := by
  rw [beside.rest]

theorem object (id : InstanceId) : second.object id = first.object id := by
  rw [beside.rest]
  rfl

theorem remembers (bases : first.RemembersBases) : second.RemembersBases := by
  rw [beside.rest]
  exact bases

theorem offer? (id : StoreId) (name : String) : second.offer? id name = first.offer? id name :=
  offer?_congr beside.sameHierarchy (by rw [beside.rest]) (beside.homes id)
    (fun _ _ _ _ _ => by rw [beside.object]) name

theorem accepts (type : ValueType) (value : Value) :
    second.accepts type value = first.accepts type value :=
  beside.sameHierarchy.accepts (by rw [beside.rest]) (by rw [beside.rest]) type value

theorem typeName (value : Value) : second.typeName value = first.typeName value := by
  rw [beside.rest]
  cases value <;> rfl

/-- The same change of a store that is not hidden keeps the difference where it was. -/
theorem withStore (callables : Heap .callable Callable) (id : StoreId) (change : Store → Store)
    (home : ∀ store, (change store).home = store.home) (seen : ¬ hidden id) :
    Beside hidden (World.withStore { first with callables := callables } id change)
      (World.withStore { second with callables := callables } id change) := by
  refine ⟨?_, ?_, fun other => ?_, fun other shown => ?_⟩
  · rw [beside.rest]
    rfl
  · exact (Heap.size_modify ..).trans (beside.size.trans (Heap.size_modify ..).symm)
  · have one := Heap.get_modify_of first.stores id other change Store.home home
    have two := Heap.get_modify_of second.stores id other change Store.home home
    exact two.trans ((beside.homes other).trans one.symm)
  · rw [store_withStore, store_withStore]
    have size : second.stores.size = first.stores.size := beside.size
    simp only [size]
    split
    · exact congrArg change (beside.visible id seen)
    · exact beside.visible other shown

end World.Beside

/-! ## Isolated runs -/

namespace Exec

variable {α β : Type} {hidden : StoreId → Prop} {first second : World}

/-- From two states a run gives the same result, goes on to two states that differ only in hidden
stores, and touches none of them. -/
structure IsolatedAt (hidden : StoreId → Prop) (run : Exec α) (first second : World) : Prop where
  result : (run second).1 = (run first).1
  beside : World.Beside hidden (run first).2 (run second).2
  one : ∀ id, hidden id → (run first).2.store id = first.store id
  two : ∀ id, hidden id → (run second).2.store id = second.store id

namespace IsolatedAt

theorem of_same {run : Exec α} (beside : World.Beside hidden first second) (outcome : Outcome α)
    (one : run first = (outcome, first)) (two : run second = (outcome, second)) :
    IsolatedAt hidden run first second := by
  refine ⟨?_, ?_, fun id _ => ?_, fun id _ => ?_⟩
  · rw [one, two]
  · rw [one, two]
    exact beside
  · rw [one]
  · rw [two]

/-- A run that changes one store that is not hidden, and perhaps adds function values. -/
theorem of_withStore {run : Exec α} {outcome : Outcome α}
    (beside : World.Beside hidden first second) (callables : Heap .callable Callable)
    {store : StoreId} {change : Store → Store} (home : ∀ store, (change store).home = store.home)
    (seen : ¬ hidden store)
    (one : run first = (outcome, World.withStore { first with callables := callables } store change))
    (two : run second =
      (outcome, World.withStore { second with callables := callables } store change)) :
    IsolatedAt hidden run first second := by
  refine ⟨?_, ?_, fun id secret => ?_, fun id secret => ?_⟩
  · rw [one, two]
  · rw [one, two]
    exact beside.withStore callables store change home seen
  · rw [one]
    exact World.store_withStore_ne _ change fun same => seen (same ▸ secret)
  · rw [two]
    exact World.store_withStore_ne _ change fun same => seen (same ▸ secret)

/-- A run that resolves a host reference. -/
theorem of_references {run : Exec α} (beside : World.Beside hidden first second)
    (outcome : Outcome α) (references : Heap .reference HostReference)
    (one : run first = (outcome, { first with references := references }))
    (two : run second = (outcome, { second with references := references })) :
    IsolatedAt hidden run first second := by
  refine ⟨?_, ?_, fun id _ => ?_, fun id _ => ?_⟩
  · rw [one, two]
  · rw [one, two]
    refine ⟨?_, beside.size, beside.homes, beside.visible⟩
    rw [beside.rest]
  · rw [one]
    rfl
  · rw [two]
    rfl

/-- A run that goes on in the same way from both states. -/
theorem of_branch {run next : Exec α} (isolated : IsolatedAt hidden next first second)
    (one : run first = next first) (two : run second = next second) :
    IsolatedAt hidden run first second := by
  obtain ⟨result, beside, kept, alike⟩ := isolated
  rw [← one, ← two] at result beside
  rw [← one] at kept
  rw [← two] at alike
  exact ⟨result, beside, kept, alike⟩

end IsolatedAt

end Exec

/-- A lookup that does not miss is not tried elsewhere. -/
theorem orElseMissing_of_hit {α : Type} {name : String} {run next : Exec α} {world after : World}
    {outcome : Outcome α} (hit : ∀ fault, outcome = .failed fault → fault.isMiss name = false)
    (ends : run world = (outcome, after)) :
    orElseMissing name run next world = (outcome, after) := by
  refine (orElseMissing_of_other fun fault last fails => hit fault ?_).trans ends
  exact congrArg Prod.fst (ends.symm.trans fails)

/-! ## Lookups at stores -/

namespace World

/-- A store answers a lookup of a name. -/
def Answers (world : World) (name : String) (store : StoreId) : Bool :=
  ((world.store store).slot? name).isSome || (world.offer? store name).isSome

/-- What a store answers under a name runs no body: it is a value without annotations that the
slot itself keeps, or a function without annotations. -/
def AnswersPlainly (world : World) (name : String) (store : StoreId) : Prop :=
  match (world.store store).slot? name with
  | some slot => slot.annotations = [] ∧ ∃ value, slot.content = .script value
  | none => ∀ function receiver, world.offer? store name = some (function, receiver) →
      function.annotations = []

section

variable (perform : Perform) {world : World} {store : StoreId} {name : String}

theorem readStore_of_script {slot : Slot} {value : Option Value}
    (found : (world.store store).slot? name = some slot) (plain : slot.annotations = [])
    (content : slot.content = .script value) :
    readStore perform store name world =
      (value.elim (.failed (.lookup (.notAssigned name))) .done, world) := by
  have reads : readSlot perform store name world =
      (value.elim (.failed (.lookup (.notAssigned name))) .done, world) := by
    cases value with
    | none => simp only [readSlot, get_bind_apply, found, content, throw_bind_apply, Option.elim_none]
    | some value =>
        simp only [readSlot, get_bind_apply, found, content, pure_bind_apply, plain, Option.elim_some]
        rfl
  refine orElseMissing_of_hit (fun fault fails => ?_) reads
  cases value <;> cases fails
  rfl

theorem assignStore_of_immutable {slot : Slot} (value : Value)
    (found : (world.store store).slot? name = some slot) (held : slot.immutable = true) :
    assignStore perform store name value world =
      (.failed (.lookup (.immutableFunction name)), world) := by
  refine orElseMissing_of_hit (fun fault fails => ?_)
    (assignSlot_of_immutable perform value found held)
  cases fails
  rfl

/-- A write to a variable without annotations asks the type, and stores what the type accepts. -/
theorem assignStore_of_variable {slot : Slot} {kept : Option Value} (value : Value)
    (found : (world.store store).slot? name = some slot) (isMutable : slot.immutable = false)
    (plain : slot.annotations = []) (content : slot.content = .script kept) :
    assignStore perform store name value world =
      if world.accepts slot.type value then
        (.done (), (world.resolveBases (world.visitedByAccepts slot.type value)).withStore store
          (·.modify name (·.write (slot.type.widen value))))
      else (.failed (.lookup (.typeMismatch name slot.type.name (world.typeName value))),
        world.resolveBases (world.visitedByAccepts slot.type value)) := by
  have assigns : assignSlot perform store name value world = storeValue store name slot value world := by
    rw [assignSlot_of_mutable perform value found isMutable]
    unfold writeHooks
    rw [plain]
    exact bind_of_done _ rfl
  rw [storeValue_of_script value content] at assigns
  refine (orElseMissing_of_other fun fault last ends => ?_).trans assigns
  rw [assigns] at ends
  split at ends <;> cases ends
  rfl

section

variable (alive : world.alive = true) (missing : (world.store store).slot? name = none)
  {function : Function} {receiver : Option Receiver}
  (offered : world.offer? store name = some (function, receiver))
  (plain : function.annotations = [])
include alive missing offered plain

/-- An unannotated function is installed where it is looked up for the first time, unless the
instance it is bound to is gone. -/
theorem materialize_of_unannotated :
    materialize perform store name world =
      if receiver.all fun target => (world.object target.owner).alive then
        (.done true, (world.askedFor store name).install store function receiver)
      else (.failed (.instanceDropped function.label), world.askedFor store name) := by
  obtain ⟨_, named⟩ := World.offer?_declared offered
  have free : ((world.askedFor store name).store store).declares function.name = false := by
    rw [store_askedFor]
    simp [Store.declares, named, missing]
  rw [materialize_of_some perform alive offered,
    bind_of_done _ (installFunction_of_plain perform receiver free plain)]
  rfl

theorem readStore_of_unannotated :
    readStore perform store name world =
      if receiver.all fun target => (world.object target.owner).alive then
        (.done (.function world.callables.next),
          (world.askedFor store name).install store function receiver)
      else (.failed (.instanceDropped function.label), world.askedFor store name) := by
  obtain ⟨_, rfl⟩ := World.offer?_declared offered
  have free : ((world.askedFor store function.name).store store).declares function.name = false := by
    rw [store_askedFor]
    simp [Store.declares, missing]
  have installs := materialize_of_unannotated perform alive missing offered plain
  rw [readStore_of_missing perform missing]
  split
  · next living =>
      rw [if_pos living] at installs
      rw [bind_of_done _ installs, ← callables_askedFor world store function.name]
      have inside := inside_of_offer? ((offer?_askedFor world store function.name store
        function.name).trans offered)
      exact readSlot_of_function _ (declares_install receiver inside free) rfl rfl
  · next gone =>
      rw [if_neg gone] at installs
      rw [bind_of_failed _ installs]

theorem assignStore_of_unannotated (value : Value) :
    assignStore perform store name value world =
      if receiver.all fun target => (world.object target.owner).alive then
        (.failed (.lookup (.immutableFunction name)),
          (world.askedFor store name).install store function receiver)
      else (.failed (.instanceDropped function.label), world.askedFor store name) := by
  have installs := materialize_of_unannotated perform alive missing offered plain
  rw [assignStore_of_missing perform value missing]
  split
  · next living =>
      rw [if_pos living] at installs
      rw [bind_of_done _ installs]
      rfl
  · next gone =>
      rw [if_neg gone] at installs
      rw [bind_of_failed _ installs]

end

variable (bases : world.RemembersBases)
include bases

theorem assignStore_of_script {slot : Slot} {kept : Option Value} (value : Value)
    (found : (world.store store).slot? name = some slot) (isMutable : slot.immutable = false)
    (plain : slot.annotations = []) (content : slot.content = .script kept) :
    assignStore perform store name value world =
      if world.accepts slot.type value then
        (.done (), world.withStore store (·.modify name (·.write (slot.type.widen value))))
      else (.failed (.lookup (.typeMismatch name slot.type.name (world.typeName value))), world) := by
  rw [assignStore_of_variable perform value found isMutable plain content,
    resolveBases_of_remembered fun id _ => bases id]

variable (alive : world.alive = true) (missing : (world.store store).slot? name = none)
  {function : Function} {receiver : Option Receiver}
  (offered : world.offer? store name = some (function, receiver))
  (plain : function.annotations = [])
include alive missing offered plain

theorem readStore_of_offer :
    readStore perform store name world =
      if receiver.all fun target => (world.object target.owner).alive then
        (.done (.function world.callables.next), world.install store function receiver)
      else (.failed (.instanceDropped function.label), world) := by
  rw [readStore_of_unannotated perform alive missing offered plain, bases.askedFor]

theorem assignStore_of_offer (value : Value) :
    assignStore perform store name value world =
      if receiver.all fun target => (world.object target.owner).alive then
        (.failed (.lookup (.immutableFunction name)), world.install store function receiver)
      else (.failed (.instanceDropped function.label), world) := by
  rw [assignStore_of_unannotated perform alive missing offered plain, bases.askedFor]

end

end World

/-! ## Lookups in two states -/

/-- A lookup in two states that differ in hidden stores: it ends the same way and leaves both
states as they are or changes a store that is not hidden, or else it misses in both. -/
inductive LooksUp {α : Type} (hidden : StoreId → Prop) (name : String) (run : Exec α)
    (first second : World) : Bool → Prop
  | stays {outcome : Outcome α} (hit : ∀ fault, outcome = .failed fault → fault.isMiss name = false)
      (one : run first = (outcome, first)) (two : run second = (outcome, second)) :
      LooksUp hidden name run first second true
  | changes {outcome : Outcome α}
      (hit : ∀ fault, outcome = .failed fault → fault.isMiss name = false)
      (callables : Heap .callable Callable) {store : StoreId} {change : Store → Store}
      (home : ∀ store, (change store).home = store.home) (seen : ¬ hidden store)
      (one : run first =
        (outcome, World.withStore { first with callables := callables } store change))
      (two : run second =
        (outcome, World.withStore { second with callables := callables } store change)) :
      LooksUp hidden name run first second true
  | misses (one : run first = (.failed (.lookup (.notDeclared name)), first))
      (two : run second = (.failed (.lookup (.notDeclared name)), second)) :
      LooksUp hidden name run first second false

namespace LooksUp

variable {α : Type} {hidden : StoreId → Prop} {name : String} {run next : Exec α}
  {first second : World} {found later : Bool}

theorem isolated (beside : World.Beside hidden first second)
    (looks : LooksUp hidden name run first second found) : IsolatedAt hidden run first second := by
  cases looks with
  | stays _ one two => exact .of_same beside _ one two
  | changes _ callables home seen one two => exact .of_withStore beside callables home seen one two
  | misses one two => exact .of_same beside _ one two

/-- A lookup that tries one source after another. -/
theorem orElseMissing (here : LooksUp hidden name run first second found)
    (there : found = false → LooksUp hidden name next first second later) :
    LooksUp hidden name (ScriptObjects.orElseMissing name run next) first second
      (found || later) := by
  cases here with
  | stays hit one two =>
      exact .stays hit (orElseMissing_of_hit hit one) (orElseMissing_of_hit hit two)
  | changes hit callables home seen one two =>
      exact .changes hit callables home seen (orElseMissing_of_hit hit one)
        (orElseMissing_of_hit hit two)
  | misses one two =>
      have goes : ∀ {world}, run world = (.failed (.lookup (.notDeclared name)), world) →
          ScriptObjects.orElseMissing name run next world = next world :=
        fun ends => orElseMissing_of_missing ends
      rw [Bool.false_or]
      cases there rfl with
      | stays hit first second => exact .stays hit ((goes one).trans first) ((goes two).trans second)
      | changes hit callables home seen first second =>
          exact .changes hit callables home seen ((goes one).trans first) ((goes two).trans second)
      | misses first second => exact .misses ((goes one).trans first) ((goes two).trans second)

/-- The function that a store stands for is installed there in both states. -/
theorem installs {store : StoreId} {function : Function} {receiver : Option Receiver}
    {outcome : Outcome α} (beside : World.Beside hidden first second) (seen : ¬ hidden store)
    (hit : ∀ fault, outcome = .failed fault → fault.isMiss name = false)
    (one : run first = (outcome, first.install store function receiver))
    (two : run second = (outcome, second.install store function receiver)) :
    LooksUp hidden name run first second true := by
  unfold World.install at one two
  rw [beside.callables] at two
  refine .changes hit (first.callables.push (.ofFunction function receiver)) ?_ seen one two
  exact fun _ => rfl

/-- A function on offer is installed in both states, or refused in both. -/
theorem offered {store : StoreId} {function : Function} {receiver : Option Receiver}
    {outcome : Outcome α} {fault : Fault} {living : Prop} [Decidable living]
    (beside : World.Beside hidden first second) (seen : ¬ hidden store)
    (hit : ∀ raised, outcome = .failed raised → raised.isMiss name = false)
    (refuses : fault.isMiss name = false)
    (one : run first =
      if living then (outcome, first.install store function receiver) else (.failed fault, first))
    (two : run second =
      if living then (outcome, second.install store function receiver)
      else (.failed fault, second)) : LooksUp hidden name run first second true := by
  by_cases here : living
  · rw [if_pos here] at one two
    exact .installs beside seen hit one two
  · rw [if_neg here] at one two
    refine .stays (fun raised fails => ?_) one two
    cases fails
    exact refuses

end LooksUp

namespace World

section

variable {hidden : StoreId → Prop} {first second : World}
  (beside : Beside hidden first second) {store : StoreId} (seen : ¬ hidden store)
include beside seen

variable (alive : first.alive = true) (bases : first.RemembersBases)
include alive bases

theorem readStore_looksUp (perform : Perform) {name : String}
    (plain : first.AnswersPlainly name store) :
    LooksUp hidden name (readStore perform store name) first second (first.Answers name store) := by
  have later := beside.remembers bases
  have living := beside.alive.trans alive
  have same := congrArg (Store.slot? · name) (beside.visible store seen)
  have offers := beside.offer? store name
  unfold Answers
  unfold AnswersPlainly at plain
  cases found : (first.store store).slot? name with
  | some slot =>
      rw [found] at plain
      obtain ⟨plain, kept, content⟩ := plain
      refine .stays (fun fault fails => ?_) (readStore_of_script perform found plain content)
        (readStore_of_script perform (same.trans found) plain content)
      cases kept <;> cases fails
      rfl
  | none =>
      rw [found] at plain
      cases offered : first.offer? store name with
      | none =>
          exact .misses (readStore_of_nothing perform alive bases found offered)
            (readStore_of_nothing perform living later (same.trans found) (offers.trans offered))
      | some offer =>
          obtain ⟨function, receiver⟩ := offer
          have one := readStore_of_offer perform bases alive found offered
            (plain function receiver offered)
          have two := readStore_of_offer perform later living (same.trans found)
            (offers.trans offered) (plain function receiver offered)
          simp only [beside.object, beside.callables] at two
          refine .offered beside seen (fun fault fails => ?_) rfl one two
          cases fails

theorem assignStore_looksUp (perform : Perform) {name : String} (value : Value)
    (plain : first.AnswersPlainly name store) :
    LooksUp hidden name (assignStore perform store name value) first second
      (first.Answers name store) := by
  have later := beside.remembers bases
  have living := beside.alive.trans alive
  have same := congrArg (Store.slot? · name) (beside.visible store seen)
  have offers := beside.offer? store name
  unfold Answers
  unfold AnswersPlainly at plain
  cases found : (first.store store).slot? name with
  | some slot =>
      rw [found] at plain
      obtain ⟨plain, kept, content⟩ := plain
      cases held : slot.immutable with
      | true =>
          refine .stays (fun fault fails => ?_) (assignStore_of_immutable perform value found held)
            (assignStore_of_immutable perform value (same.trans found) held)
          cases fails
          rfl
      | false =>
          have one := assignStore_of_script perform bases value found held plain content
          have two := assignStore_of_script perform later value (same.trans found) held plain content
          simp only [beside.accepts, beside.typeName] at two
          split at one
          · next accepted =>
              rw [if_pos accepted] at two
              refine .changes ?_ first.callables ?_ seen one ?_
              · intro fault fails
                cases fails
              · exact fun _ => rfl
              · rw [two, ← beside.callables]
          · next refused =>
              rw [if_neg refused] at two
              refine .stays (fun fault fails => ?_) one two
              cases fails
              rfl
  | none =>
      rw [found] at plain
      cases offered : first.offer? store name with
      | none =>
          exact .misses (assignStore_of_nothing perform alive bases found offered value)
            (assignStore_of_nothing perform living later (same.trans found)
              (offers.trans offered) value)
      | some offer =>
          obtain ⟨function, receiver⟩ := offer
          have one := assignStore_of_offer perform bases alive found offered
            (plain function receiver offered) value
          have two := assignStore_of_offer perform later living (same.trans found)
            (offers.trans offered) (plain function receiver offered) value
          simp only [beside.object] at two
          refine .offered beside seen (fun fault fails => ?_) rfl one two
          cases fails
          rfl

end

end World

end ScriptObjects

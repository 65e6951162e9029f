import ScriptObjects.Proofs.SparingRequests
import ScriptObjects.Proofs.Writes

/-!
# A function keeps its slot

A store turns a function into a slot when its name is first looked up there.  From then on
the slot holds that function value, whatever happens: nothing writes to it, nothing can be
declared in its place, and it is not taken away again.  The only slots that are taken away are
those of annotated functions whose annotations could not be created, and a slot is annotated by
hand or not at all once it is there.

So every lookup that comes to the store gives the identical function value, through whichever
scope it comes.  When the assembly is gone, a lookup may still fail before it comes there; it
never gives anything else.
-/

namespace ScriptObjects

set_option autoImplicit false

open Exec

/-! ## Whole operations -/

/-- An operation constructs an instance that is there already. -/
def Operation.Constructs : Operation → InstanceId → Prop
  | .ofRequest (.construct id _ _), other => other = id
  | _, _ => False

/-- An operation leaves what is attached as it is, except to an instance that it constructs. -/
theorem Operation.run_spares_others {perform : Perform} (nested : perform.Sparing)
    (operation : Operation) (world : World) :
    SparesAt operation.Constructs (operation.run perform) world := by
  have required : Exec.Sparing requireAssembly := .still requireAssembly_leads requireAssembly_still
  cases operation with
  | ofRequest request =>
      cases request with
      | call callable args context => exact nested.call callable args context _ world
      | read scope name => exact nested.read scope name _ world
      | assign scope name value => exact nested.assign scope name value _ world
      | construct id options args => exact nested.construct id options args world
  | create className options args =>
      exact (required.bind fun _ => createInstance_sparing nested className options args) _ world
  | wrap host => exact (required.bind fun _ => wrapHost_sparing nested host) _ world
  | unmarshal host type => exact (required.bind fun _ => fromHost_sparing nested type host) _ world
  | dispatch context operator operands =>
      exact (required.bind fun _ => operate_sparing nested context operator operands) _ world
  | callHook context id key args =>
      exact (required.bind fun _ => hook_sparing nested context id key args) _ world
  | eval expr => exact evaluate_sparing nested none expr _ world

/-- An operation leaves what is attached to slots as it is. -/
theorem Operation.run_spares {perform : Perform} (nested : perform.Sparing)
    (operation : Operation) (world : World) :
    SparesAt (fun _ => True) (operation.run perform) world :=
  fun live => (operation.run_spares_others nested world live).weaken fun _ _ _ => trivial

/-! ## Lookups without an assembly -/

/-- Without the assembly a store that has no slot of a name fails, for one reason or another. -/
theorem readStore_of_dropped (perform : Perform) {world : World} {store : StoreId} {name : String}
    (dropped : world.alive = false) (missing : (world.store store).slot? name = none) :
    ∃ fault, readStore perform store name world = (.failed fault, world) := by
  rw [World.readStore_of_missing perform missing]
  cases home : (world.store store).home with
  | free attached =>
      rw [bind_of_done _ (materialize_of_free perform home)]
      exact ⟨_, rfl⟩
  | level | root =>
      rw [bind_of_failed _ (materialize_of_dropped perform (by simp [home]) dropped)]
      exact ⟨_, rfl⟩

theorem assignStore_of_dropped (perform : Perform) {world : World} {store : StoreId}
    {name : String} (value : Value) (dropped : world.alive = false)
    (missing : (world.store store).slot? name = none) :
    ∃ fault, assignStore perform store name value world = (.failed fault, world) := by
  rw [World.assignStore_of_missing perform value missing]
  cases home : (world.store store).home with
  | free attached =>
      rw [bind_of_done _ (materialize_of_free perform home)]
      exact ⟨_, rfl⟩
  | level | root =>
      rw [bind_of_failed _ (materialize_of_dropped perform (by simp [home]) dropped)]
      exact ⟨_, rfl⟩

theorem orElseMissing_of_failed {α : Type} {name : String} {run next : Exec α} {world after : World}
    {fault : Fault} (ends : run world = (.failed fault, after)) :
    orElseMissing name run next world =
      if fault.isMiss name then next after else (.failed fault, after) := by
  unfold orElseMissing Exec.recover
  rw [ends]
  cases missed : fault.isMiss name <;> simp [missed]

namespace TriesStores

variable {α : Type} {name : String} {atStore : StoreId → Exec α} {atScope : Scope → Exec α}
  {among : List Scope → Exec α} {world : World}

mutual

/-- Where every store that has nothing fails somehow, a lookup fails or is the lookup at the first
store that answers.  If there is one, no failure on the way is taken for a missing name. -/
theorem fails_or_first (tries : TriesStores name atStore atScope among)
    (fails : ∀ store, world.Answers name store = false →
      ∃ fault, atStore store world = (.failed fault, world)) : (scope : Scope) →
    (scope.stores.find? (world.Answers name) = none →
      ∃ fault, atScope scope world = (.failed fault, world)) ∧
    ∀ store, scope.stores.find? (world.Answers name) = some store →
      (∀ fault after, atStore store world = (.failed fault, after) → fault.isMiss name = false) →
      atScope scope world = atStore store world ∨
        ∃ fault, atScope scope world = (.failed fault, world) ∧ fault.isMiss name = false
  | .store id => by
      rw [tries.store, Scope.stores]
      refine ⟨fun none => fails id ?_, fun store found hits => .inl ?_⟩
      · simpa using none
      · obtain ⟨_, rfl⟩ : world.Answers name id = true ∧ id = store := by simpa using found
        rfl
  | .composite sources => by
      rw [tries.composite, Scope.stores]
      exact fails_or_first_among tries fails sources

theorem fails_or_first_among (tries : TriesStores name atStore atScope among)
    (fails : ∀ store, world.Answers name store = false →
      ∃ fault, atStore store world = (.failed fault, world)) : (sources : List Scope) →
    ((Scope.storesOf sources).find? (world.Answers name) = none →
      ∃ fault, among sources world = (.failed fault, world)) ∧
    ∀ store, (Scope.storesOf sources).find? (world.Answers name) = some store →
      (∀ fault after, atStore store world = (.failed fault, after) → fault.isMiss name = false) →
      among sources world = atStore store world ∨
        ∃ fault, among sources world = (.failed fault, world) ∧ fault.isMiss name = false
  | [] => by
      rw [tries.nil]
      exact ⟨fun _ => ⟨_, rfl⟩, fun _ found => nomatch found⟩
  | source :: rest => by
      obtain ⟨silent, hit⟩ := fails_or_first tries fails source
      obtain ⟨later, next⟩ := fails_or_first_among tries fails rest
      rw [tries.cons, Scope.storesOf, List.find?_append]
      cases first : source.stores.find? (world.Answers name) with
      | none =>
          -- The source fails; the others are tried if its failure looks like a missing name.
          obtain ⟨fault, ends⟩ := silent first
          rw [Option.none_or, orElseMissing_of_failed ends]
          cases missed : fault.isMiss name with
          | true => exact ⟨later, next⟩
          | false => exact ⟨fun _ => ⟨fault, rfl⟩, fun _ _ _ => .inr ⟨fault, rfl, missed⟩⟩
      | some store =>
          rw [Option.some_or]
          refine ⟨fun missing => (nomatch missing), fun other found hits => ?_⟩
          obtain rfl : store = other := Option.some.inj found
          obtain same | ⟨fault, ends, other⟩ := hit store first hits
          · refine .inl ((orElseMissing_of_other fun fault last ends => ?_).trans same)
            exact hits fault last (same.symm.trans ends)
          · rw [orElseMissing_of_failed ends, other]
            exact .inr ⟨fault, rfl, other⟩

end

end TriesStores

/-! ## A function in its slot -/

/-- A slot that holds a function persists as it is, if nothing is attached to it. -/
theorem Slot.Persists.function {later : Slot} {callable : CallableId}
    (persists : (Slot.function callable).Persists later) (bare : later.annotations = []) :
    later = .function callable := by
  obtain ⟨type, content, annotations, immutable⟩ := later
  obtain ⟨typed, held, fixed, _, _⟩ := persists
  cases typed
  cases held
  cases bare
  cases fixed rfl
  rfl

namespace World

/-- A store holds a function value under a name, and every lookup that comes there meets it: reads
give it, writes are refused, and nothing can be declared in its place.  A lookup through a scope of
which the store is the first to answer comes there, unless the assembly is gone. -/
structure HoldsForGood (world : World) (store : StoreId) (name : String) (callable : CallableId) :
    Prop where
  there : (world.store store).slot? name = some (.function callable)
  reads : ∀ budget, performUpTo (budget + 1) (.read (.store store) name) world =
    (.done (.function callable), world)
  assigns : ∀ budget value, performUpTo (budget + 1) (.assign (.store store) name value) world =
    (.failed (.lookup (.immutableFunction name)), world)
  declares : ∀ scope slot, scope.declaresIn? = some store →
    declare scope name slot world = (.failed (.lookup (.alreadyDeclared name)), world)
  readsThrough : ∀ scope, scope.stores.find? (world.Answers name) = some store → ∀ budget,
    ∃ outcome after, performUpTo (budget + 1) (.read scope name) world = (outcome, after) ∧
      (outcome = .done (.function callable) ∨
        world.alive = false ∧ ∃ fault, outcome = .failed fault)
  assignsThrough : ∀ scope, scope.stores.find? (world.Answers name) = some store →
    ∀ budget value, ∃ fault after,
      performUpTo (budget + 1) (.assign scope name value) world = (.failed fault, after) ∧
      (fault = .lookup (.immutableFunction name) ∨ world.alive = false)

theorem holdsForGood {world : World} {store : StoreId} {name : String} {callable : CallableId}
    (there : (world.store store).slot? name = some (.function callable)) :
    world.HoldsForGood store name callable := by
  have reads : ∀ perform here, world.ModifiesOnly noSlot here →
      readStore perform store name here = (.done (.function callable), here) :=
    fun perform here reached =>
      readStore_of_script perform ((reached.slots store name id).trans there) rfl rfl
  have assigns : ∀ perform here value, world.ModifiesOnly noSlot here →
      assignStore perform store name value here =
        (.failed (.lookup (.immutableFunction name)), here) :=
    fun perform here value reached =>
      assignStore_of_immutable perform value ((reached.slots store name id).trans there) rfl
  refine ⟨there, fun budget => reads _ world (.refl world),
    fun budget value => assigns _ world value (.refl world), fun scope slot target => ?_,
    fun scope first budget => ?_, fun scope first budget value => ?_⟩
  · rw [declare_eq, target]
    exact insertSlot_of_declared slot (by simp [Store.declares, there])
  · cases alive : world.alive with
    | true =>
        obtain ⟨later, _, read⟩ := read_kept alive scope budget first there rfl rfl
        exact ⟨_, later, read, .inl rfl⟩
    | false =>
        obtain same | ⟨fault, ends, _⟩ := ((readScope_tries (performUpTo budget) name).fails_or_first
          (fun other silent => readStore_of_dropped _ alive (answers_eq_false silent).1) scope).2
            store first fun fault after ends => by
              rw [reads _ world (.refl world)] at ends
              cases ends
        · exact ⟨_, _, same.trans (reads _ world (.refl world)), .inl rfl⟩
        · exact ⟨_, _, ends, .inr ⟨rfl, fault, rfl⟩⟩
  · have refused : ∀ here, world.ModifiesOnly noSlot here → ∀ fault after,
        assignStore (performUpTo budget) store name value here = (.failed fault, after) →
          fault.isMiss name = false := by
      intro here reached fault after ends
      rw [assigns _ here value reached] at ends
      cases ends
      rfl
    cases alive : world.alive with
    | true =>
        obtain ⟨here, reached, _, looks⟩ := comes_to_store
          (assignScope_tries (performUpTo budget) name value)
          (assignStore_missesUnknown _ name value) alive first
          fun here reached _ => refused here reached
        exact ⟨_, _, looks.trans (assigns _ here value reached), .inl rfl⟩
    | false =>
        obtain same | ⟨fault, ends, _⟩ :=
          ((assignScope_tries (performUpTo budget) name value).fails_or_first
            (fun other silent => assignStore_of_dropped _ value alive (answers_eq_false silent).1)
            scope).2 store first (refused world (.refl world))
        · exact ⟨_, _, same.trans (assigns _ world value (.refl world)), .inl rfl⟩
        · exact ⟨_, _, ends, .inr rfl⟩

/-! ## What may happen later -/

/-- A step attaches no annotations to a slot. -/
def SparesSlot (before : World) (store : StoreId) (name : String) (after : World) : Prop :=
  ∀ slot later, (before.store store).slot? name = some slot →
    (after.store store).slot? name = some later → later.annotations = slot.annotations

/-- What the host does besides attaching annotations attaches none. -/
theorem sparesSlot_of_host {before after : World} (change : HostChange before after)
    (store : StoreId) (name : String) : before.SparesSlot store name after := by
  intro slot later found still
  have same : (after.store store).slot? name = some slot ∨
      (after.store store).slot? name = none := by
    cases change with
    | declare other label added =>
        left
        rw [store_withStore]
        split
        · next here =>
            rw [here.1] at found
            rw [Store.slot?_insert, found, Option.some_or]
        · exact found
    | withdraw other taken =>
        rw [store_withStore]
        split
        · next here =>
            rw [here.1] at found
            rw [Store.slot?_erase]
            split
            · exact .inr rfl
            · exact .inl found
        · exact .inl found
    | freeStore attached =>
        left
        have kept := Heap.get_push_of_lt before.stores (.empty (.free attached))
          (inside_of_slot? found)
        exact (congrArg (Store.slot? · name) kept).trans found
    | context | reference | classRef | bindReference | drop | bindings | heldFrames | log =>
        exact .inl found
  rw [still] at same
  obtain same | none := same
  · cases same
    rfl
  · cases none

/-- What happens from a state on while nobody annotates a certain slot by hand.  Single changes
count, also in the middle of a run, and so do whole operations, of which nothing is assumed.  The
slot of a function may be taken away if the function is annotated, which is what happens when
its annotations could not be created. -/
inductive Ensues (store : StoreId) (name : String) : World → World → Prop
  | refl (world : World) : Ensues store name world world
  | change {first second third : World} (before : Ensues store name first second)
      (change : Change (fun _ => True) (fun _ => True) second third)
      (spares : second.SparesSlot store name third) : Ensues store name first third
  | withdraw {first second : World} (before : Ensues store name first second)
      (alive : second.alive = true) (other : StoreId) (function : Function)
      (receiver : Option Receiver)
      (offered : second.offer? other function.name = some (function, receiver))
      (annotated : function.annotations ≠ [])
      (held : ∀ slot, (second.store other).slot? function.name = some slot →
        slot.immutable = true) :
      Ensues store name first (second.withStore other (·.erase function.name))
  | host {first second third : World} (before : Ensues store name first second)
      (change : HostChange second third) (keeps : second.KeepsSlots third) :
      Ensues store name first third
  | enlist {first second third : World} (before : Ensues store name first second)
      (enlists : Enlists second third) : Ensues store name first third
  | operation {first second : World} (before : Ensues store name first second)
      (alive : second.alive = true) (budget : Nat) (operation : Operation) :
      Ensues store name first (operation.run (performUpTo budget) second).2
  | dropAssembly {first second : World} (before : Ensues store name first second) :
      Ensues store name first { second with alive := false }

/-- A function is in its slot, and the session goes on. -/
structure Keeps (world : World) (store : StoreId) (name : String) (callable : CallableId)
    (function : Function) (receiver : Option Receiver) : Prop where
  there : (world.store store).slot? name = some (.function callable)
  made : world.callables.get? callable = some (.ofFunction function receiver)
  reachable : world.alive = true → Reachable world

namespace Keeps

variable {world after : World} {store : StoreId} {name : String} {callable : CallableId}
  {function : Function} {receiver : Option Receiver}
  (keeps : world.Keeps store name callable function receiver)
include keeps

/-- While the assembly is there, the store stands for the function that it holds. -/
theorem offered (alive : world.alive = true) :
    world.offer? store name = some (function, receiver) := by
  obtain ⟨_, sound⟩ := (keeps.reachable alive).sound
  obtain ⟨declared, target, ⟨held, _, content, made⟩, offered⟩ :=
    sound.laid.functions store name _ keeps.there rfl
  cases content
  have same := Option.some.inj (made.symm.trans keeps.made)
  obtain rfl : declared = function := Option.some.inj (congrArg Callable.function same)
  obtain rfl : target = receiver := congrArg Callable.receiver same
  exact offered

/-- A step that keeps all slots and all function values keeps this one. -/
theorem step (slots : world.KeepsSlots after) (spares : world.SparesSlot store name after)
    (made : after.callables.get? callable = some (.ofFunction function receiver))
    (reachable : after.alive = true → Reachable after) :
    after.Keeps store name callable function receiver := by
  obtain ⟨later, still, persists⟩ := slots store name _ keeps.there
  rw [persists.function (spares _ later keeps.there still)] at still
  exact ⟨still, made, reachable⟩

theorem change (change : Change (fun _ => True) (fun _ => True) world after)
    (spares : world.SparesSlot store name after) :
    after.Keeps store name callable function receiver := by
  refine keeps.step change.keepsSlots spares (change.continues.get?_callable keeps.made)
    fun alive => ?_
  exact .proceed (keeps.reachable (change.continues.alive ▸ alive)) (.run (.refl world) change)

theorem host (change : HostChange world after) (slots : world.KeepsSlots after) :
    after.Keeps store name callable function receiver := by
  have same : after.alive = world.alive ∧ after.callables = world.callables := by
    cases change <;> exact ⟨rfl, rfl⟩
  refine keeps.step slots (sparesSlot_of_host change store name) ?_ fun alive => ?_
  · rw [same.2]
    exact keeps.made
  · exact .proceed (keeps.reachable (same.1 ▸ alive)) (.host (.refl world) change)

/-- The slot of another function is taken away. -/
theorem withdraw (plain : function.annotations = []) (alive : world.alive = true)
    {other : StoreId} {taken : Function} {target : Option Receiver}
    (offered : world.offer? other taken.name = some (taken, target))
    (annotated : taken.annotations ≠ [])
    (held : ∀ slot, (world.store other).slot? taken.name = some slot → slot.immutable = true) :
    (world.withStore other (·.erase taken.name)).Keeps store name callable function receiver := by
  refine ⟨?_, keeps.made, fun _ => .proceed (keeps.reachable alive) (.host (.refl world)
    (.withdraw other taken (World.offer?_declared offered).1 annotated held))⟩
  rw [store_withStore]
  split
  · next here =>
      obtain ⟨rfl, _⟩ := here
      rw [Store.slot?_erase, if_neg, keeps.there]
      rintro rfl
      cases offered.symm.trans (keeps.offered alive)
      exact annotated plain
  · exact keeps.there

theorem enlist (enlists : Enlists world after) :
    after.Keeps store name callable function receiver := by
  refine ⟨?_, ?_, fun alive => .enlist (keeps.reachable (enlists.alive ▸ alive)) enlists⟩
  · rw [enlists.rest]
    exact keeps.there
  · rw [enlists.rest]
    exact keeps.made

/-- Of a whole operation nothing needs to be assumed. -/
theorem operation (alive : world.alive = true) (budget : Nat) (operation : Operation) :
    (operation.run (performUpTo budget) world).2.Keeps store name callable function receiver := by
  have reachable := keeps.reachable alive
  have spares := operation.run_spares (performUpTo_sparing budget) world reachable.sound
  refine keeps.step spares.evolves.keepsSlots ?_
    (spares.evolves.continues.get?_callable keeps.made)
    fun _ => .proceed reachable spares.evolves.proceeds
  intro slot later found still
  obtain ⟨kept, there, stays⟩ := spares.slots store name slot found
  cases there.symm.trans still
  exact stays.annotations

end Keeps

/-- A function stays in its slot whatever happens. -/
theorem Ensues.keeps {first last : World} {store : StoreId} {name : String}
    (ensues : Ensues store name first last) {callable : CallableId} {function : Function}
    {receiver : Option Receiver} (plain : function.annotations = [])
    (keeps : first.Keeps store name callable function receiver) :
    last.Keeps store name callable function receiver := by
  induction ensues with
  | refl => exact keeps
  | change _ change spares ih => exact ih.change change spares
  | withdraw _ alive other taken target offered annotated held ih =>
      exact ih.withdraw plain alive offered annotated held
  | host _ change slots ih => exact ih.host change slots
  | enlist _ enlists ih => exact ih.enlist enlists
  | operation _ alive budget operation ih => exact ih.operation alive budget operation
  | dropAssembly _ ih => exact ⟨ih.there, ih.made, fun alive => nomatch alive⟩

/-- Later on, the store holds the function for good. -/
theorem Keeps.ensues {second last : World} {store : StoreId} {name : String}
    {callable : CallableId} {function : Function} {receiver : Option Receiver}
    (keeps : second.Keeps store name callable function receiver) (plain : function.annotations = [])
    (ensues : Ensues store name second last) :
    last.HoldsForGood store name callable ∧
      last.callables.get? callable = some (.ofFunction function receiver) :=
  ⟨holdsForGood (ensues.keeps plain keeps).there, (ensues.keeps plain keeps).made⟩

/-! ## From the first lookup on -/

section

variable {first second : World} (reachable : Reachable first) {store : StoreId} {name : String}
  {function : Function} {receiver : Option Receiver}
  (offered : first.offer? store name = some (function, receiver))

/-- What leaves all slots as they are leaves a function in its slot. -/
theorem Keeps.undisturbed {callable : CallableId}
    (keeps : first.Keeps store name callable function receiver)
    (nothing : first.ModifiesOnly noSlot second) (later : Reachable second) :
    second.Keeps store name callable function receiver := by
  refine ⟨(nothing.slots store name id).trans keeps.there, ?_, fun _ => later⟩
  have old := inside_of_get? keeps.made
  rw [Heap.get?_eq_some _ (Nat.lt_of_lt_of_le old nothing.grown), nothing.values callable old,
    ← Heap.get?_eq_some _ old]
  exact keeps.made

include reachable offered

/-- A function that is in its slot already, and not annotated by hand. -/
theorem keeps_held {slot : Slot} (found : (first.store store).slot? name = some slot)
    (held : slot.immutable = true) (bare : slot.annotations = []) :
    ∃ callable, first.Keeps store name callable function receiver := by
  obtain ⟨_, sound⟩ := reachable.sound
  obtain ⟨declared, target, ⟨callable, typed, content, made⟩, same⟩ :=
    sound.laid.functions store name slot found held
  cases offered.symm.trans same
  obtain ⟨type, kept, annotations, immutable⟩ := slot
  cases typed
  cases content
  cases bare
  cases held
  exact ⟨callable, found, made, fun _ => reachable⟩

variable (plain : function.annotations = [])
include plain

/-- A read that succeeds gives the function of the slot, which is there from then on. -/
theorem keeps_of_read (bare : ∀ slot, (first.store store).slot? name = some slot →
      slot.immutable = true ∧ slot.annotations = [])
    {scope : Scope} (answers : scope.stores.find? (first.Answers name) = some store)
    {budget : Nat} {value : Value}
    (reads : performUpTo (budget + 1) (.read scope name) first = (.done value, second)) :
    ∃ callable, value = .function callable ∧
      second.Keeps store name callable function receiver := by
  obtain ⟨alive, _⟩ := reachable.sound
  have later : Reachable second := by
    have proceeds := performUpTo_proceeds (budget + 1) (.read scope name) first
    rw [reads] at proceeds
    exact .proceed reachable proceeds
  cases found : (first.store store).slot? name with
  | some slot =>
      obtain ⟨held, none⟩ := bare slot found
      obtain ⟨callable, keeps⟩ := keeps_held reachable offered found held none
      obtain ⟨last, nothing, read⟩ := read_kept alive scope budget answers keeps.there rfl rfl
      cases reads.symm.trans read
      exact ⟨callable, rfl, keeps.undisturbed nothing later⟩
  | none =>
      have readsAt : ∀ here, first.ModifiesOnly noSlot here → _ := fun here reached =>
        readStore_of_unannotated (performUpTo budget) (reached.alive.trans alive)
          ((reached.slots store name id).trans found) ((reached.offer? store name).trans offered) plain
      obtain ⟨here, reached, _, looks⟩ := comes_to_store
        (readScope_tries (performUpTo budget) name) (readStore_missesUnknown _ name) alive answers
        fun here reached _ fault after ends => by
          rw [readsAt here reached] at ends
          split at ends <;> cases ends
          rfl
      have looks : performUpTo (budget + 1) (.read scope name) first = _ := looks
      rw [readsAt here reached, reads] at looks
      split at looks
      · cases looks
        have asked := reached.trans (.askedFor here store name)
        have materializes := materializes_install answers found offered asked
        refine ⟨_, rfl, ?_⟩
        rw [← callables_askedFor here store name]
        exact ⟨materializes.there, materializes.made, fun _ => later⟩
      · cases looks

/-- A write is refused, and while the instance that it is bound to lives the function is in its slot
from then on. -/
theorem keeps_of_assign (bare : ∀ slot, (first.store store).slot? name = some slot →
      slot.immutable = true ∧ slot.annotations = [])
    {scope : Scope} (answers : scope.stores.find? (first.Answers name) = some store)
    (budget : Nat) (value : Value) :
    ∃ fault second,
      performUpTo (budget + 1) (.assign scope name value) first = (.failed fault, second) ∧
      ((receiver.all fun target => (first.object target.owner).alive) = true →
        fault = .lookup (.immutableFunction name) ∧
        ∃ callable, second.Keeps store name callable function receiver) := by
  obtain ⟨alive, _⟩ := reachable.sound
  have resolves : first.ResolvesToFunction scope name := by
    intro other found
    obtain rfl : store = other := Option.some.inj (answers.symm.trans found)
    cases there : (first.store store).slot? name with
    | some slot => exact (bare slot there).1
    | none =>
        intro declared target same
        cases offered.symm.trans same
        exact plain
  obtain ⟨fault, second, assigns, refuses⟩ := resolves.refuses alive value budget
  have later : Reachable second := by
    have proceeds := performUpTo_proceeds (budget + 1) (.assign scope name value) first
    rw [assigns] at proceeds
    exact .proceed reachable proceeds
  refine ⟨fault, second, assigns, fun living => ?_⟩
  cases refuses with
  | unknown silent => cases answers.symm.trans silent
  | held first found held nothing =>
      cases answers.symm.trans first
      obtain ⟨callable, keeps⟩ := keeps_held reachable offered found held (bare _ found).2
      exact ⟨rfl, callable, keeps.undisturbed nothing later⟩
  | materialized materializes =>
      cases answers.symm.trans materializes.first
      cases offered.symm.trans materializes.offered
      exact ⟨rfl, _, materializes.there, materializes.made, fun _ => later⟩
  | dropped first same gone nothing =>
      cases answers.symm.trans first
      cases offered.symm.trans same
      rw [Option.all_some, gone] at living
      cases living

end

/-- A function that is not annotated becomes a slot with the first lookup that succeeds, and every
later lookup gives the identical value. -/
theorem materialized_for_good {first : World} (reachable : Reachable first) {store : StoreId}
    {name : String} {function : Function} {receiver : Option Receiver}
    (offered : first.offer? store name = some (function, receiver))
    (plain : function.annotations = [])
    (bare : ∀ slot, (first.store store).slot? name = some slot →
      slot.immutable = true ∧ slot.annotations = []) :
    (∀ scope, scope.stores.find? (first.Answers name) = some store → ∀ budget value second,
      performUpTo (budget + 1) (.read scope name) first = (.done value, second) →
        ∃ callable, value = .function callable ∧ ∀ last, Ensues store name second last →
          last.HoldsForGood store name callable ∧
          last.callables.get? callable = some (.ofFunction function receiver)) ∧
    (∀ scope, scope.stores.find? (first.Answers name) = some store → ∀ budget value,
      ∃ fault second, performUpTo (budget + 1) (.assign scope name value) first =
          (.failed fault, second) ∧
        ((receiver.all fun target => (first.object target.owner).alive) = true →
          fault = .lookup (.immutableFunction name) ∧
          ∃ callable, ∀ last, Ensues store name second last →
            last.HoldsForGood store name callable ∧
            last.callables.get? callable = some (.ofFunction function receiver))) := by
  refine ⟨fun scope answers budget value second reads => ?_, fun scope answers budget value => ?_⟩
  · obtain ⟨callable, same, keeps⟩ := keeps_of_read reachable offered plain bare answers reads
    exact ⟨callable, same, fun last ensues => keeps.ensues plain ensues⟩
  · obtain ⟨fault, second, assigns, kept⟩ :=
      keeps_of_assign reachable offered plain bare answers budget value
    refine ⟨fault, second, assigns, fun living => ?_⟩
    obtain ⟨refused, callable, keeps⟩ := kept living
    exact ⟨refused, callable, fun last ensues => keeps.ensues plain ensues⟩

theorem reachable_gaugeOpened : Reachable gaugeOpened := by
  have opened := LeadsFreely.proceeds (openScope?_leads ⟨0⟩ ⟨0, .global, .all⟩)
    (sampleAfter gaugeSpecs ⟨0⟩)
  exact .proceed (reachable_sampleStart gaugeSpecs)
    ((proceeds_sampleAfter gaugeSpecs ⟨0⟩).trans opened)

/-- The function of a gauge is looked up, then its field is written, then the assembly is gone. -/
theorem materialized_for_good_gauge : ∃ callable second,
    performUpTo 9 (.read gaugeScope "reset") gaugeOpened = (.done (.function callable), second) ∧
    ∀ value, { ((Operation.ofRequest (.assign gaugeScope "level" value)).run (performUpTo 9) second).2
      with alive := false }.HoldsForGood ⟨3⟩ "reset" callable := by
  obtain ⟨⟨function, receiver⟩, offered⟩ : ∃ offer, gaugeOpened.offer? ⟨3⟩ "reset" = some offer :=
    Option.isSome_iff_exists.mp (by decide +kernel)
  obtain ⟨declared, named⟩ := World.offer?_declared offered
  have plain := (unannotated_of_check (by decide +kernel) "reset").functions
    function declared named
  have missing : (gaugeOpened.store ⟨3⟩).slot? "reset" = none := by decide +kernel
  obtain ⟨value, ends⟩ : ∃ value,
      (performUpTo 9 (.read gaugeScope "reset") gaugeOpened).1.result? = some value :=
    Option.isSome_iff_exists.mp (by decide +kernel)
  obtain ⟨callable, rfl, later⟩ := (materialized_for_good reachable_gaugeOpened offered plain
    (fun slot found => nomatch missing.symm.trans found)).1 gaugeScope (by decide +kernel) 8 value _
      (done_of_result? ends)
  have proceeds := performUpTo_proceeds 9 (.read gaugeScope "reset") gaugeOpened
  have alive := (Reachable.proceed reachable_gaugeOpened proceeds).sound.1
  exact ⟨callable, _, done_of_result? ends, fun value =>
    (later _ (.dropAssembly (.operation (.refl _) alive 9 _))).1⟩

end World

end ScriptObjects

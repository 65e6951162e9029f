import ScriptObjects.Proofs.Milestones
import ScriptObjects.Proofs.Contents

/-!
# An annotated function becomes a slot with all its annotations or not at all

The slot of an annotated function is there before its annotations are: it is put into the store,
then every annotation is created, which runs initializers, constructors and hooks, and in the end
the annotations are attached to the slot.  If one of them cannot be created, the slot is taken away
again, whatever was done in between.

In between, the function is looked up like any other that is a slot already.  So no lookup on the
way turns it into a slot a second time, and the slot that is taken away is the one that was put
there.  Slots that were there before stay, and keep their values unless somebody asks to write them.
After a failure everything is in place for the next attempt, which is no different from the first.
-/

namespace ScriptObjects

set_option autoImplicit false

open Exec

/-- A fault that is not that of a lookup does not say that a name is missing. -/
theorem Fault.Foreign.state_ne {fault : Fault} (foreign : fault.Foreign) :
    fault.state ≠ .notDeclared := by
  cases fault with
  | lookup cause => exact absurd rfl (foreign cause)
  | _ => nofun

namespace World

/-! ## An attempt -/

/-- A store stands for an annotated function of a name under which it has no slot, and the instance
that the function is bound to, if there is one, is there. -/
structure Materializable (world : World) (store : StoreId) (name : String) (function : Function)
    (receiver : Option Receiver) : Prop where
  reachable : Reachable world
  missing : (world.store store).slot? name = none
  offered : world.offer? store name = some (function, receiver)
  annotated : function.annotations ≠ []
  living : (receiver.all fun target => (world.object target.owner).alive) = true

section

variable (world : World) (store : StoreId) (name : String) (function : Function)
  (receiver : Option Receiver)

/-- The state in which the annotations of a function are created: the function is in its slot, and
there is a context to run on. -/
def underConstruction : World :=
  { (world.askedFor store name).install store function receiver with
    contexts := world.contexts.push (.fresh world.config.maxCallDepth) }

/-- How the creation of the annotations ends. -/
def annotating (budget : Nat) : Outcome (List InstanceId) × World :=
  createAnnotations (performUpTo budget) function.label receiver world.contexts.next
    function.annotations (world.underConstruction store name function receiver)

/-- The requests that are made while the annotations are created. -/
def annotationInquiries (budget : Nat) : List Inquiry :=
  (createAnnotationsAccount function.label receiver world.contexts.next
    function.annotations).inquiries (performUpTo budget) (inquiriesUpTo budget)
      (world.underConstruction store name function receiver)

end

namespace Materializable

variable {world : World} {store : StoreId} {name : String} {function : Function}
  {receiver : Option Receiver} (start : world.Materializable store name function receiver)
include start

theorem named : function.name = name := (offer?_declared start.offered).2

theorem free : (world.store store).declares name = false := by
  simp [Store.declares, start.missing]

/-- Putting the function into its slot spares what is attached. -/
theorem opens : Spares (fun _ => True) world (world.underConstruction store name function receiver) := by
  obtain ⟨visited, asked⟩ := askedFor_follows world store name
  have follows : Spares (fun _ => True) world (world.askedFor store name) :=
    .of_still (.askedFor world store name) (world.askedFor_still store name).stores
      (world.askedFor_still store name).instances
  have offered : (world.askedFor store name).offer? store function.name =
      some (function, receiver) := by
    rw [offer?_askedFor, start.named, start.offered]
  have free : ((world.askedFor store name).store store).declares function.name = false := by
    rw [store_askedFor, start.named, start.free]
  have pushed : Spares (fun _ => True) (world.askedFor store name)
      { world.askedFor store name with
        callables := (world.askedFor store name).callables.push (.ofFunction function receiver) } :=
    .of_still (.single (.callable store _ function receiver offered)) rfl rfl
  have inserted : Spares (fun _ => True) _ _ := install_spares offered free
  have opening : Spares (fun _ => True) ((world.askedFor store name).install store function receiver)
      { (world.askedFor store name).install store function receiver with
        contexts := ((world.askedFor store name).install store function receiver).contexts.push
          (.fresh world.config.maxCallDepth) } :=
    .of_still (.single (.context _)) rfl rfl
  have same : ((world.askedFor store name).install store function receiver).contexts =
      world.contexts := by
    rw [asked, resolveBases_eq]
    rfl
  rw [same] at opening
  exact follows.trans (pushed.trans (inserted.trans opening))

omit start in
theorem opens_same (other : StoreId) (label : String) :
    SameContent other label world (world.underConstruction store name function receiver) := by
  have asked : SameContent other label world (world.askedFor store name) :=
    .of_stores (world.askedFor_still store name).stores
  have made : SameContent other label (world.askedFor store name)
      { world.askedFor store name with
        callables := (world.askedFor store name).callables.push (.ofFunction function receiver) } :=
    .of_stores rfl
  exact asked.trans (made.trans ((SameContent.insert store function.name _).trans (.of_stores rfl)))

theorem live : (world.underConstruction store name function receiver).Live :=
  Live.later start.reachable.sound start.opens.evolves

/-- The slot holds the new function value, and nothing is attached to it yet. -/
theorem placed : ((world.underConstruction store name function receiver).store store).slot? name =
    some (.function world.callables.next) := by
  have offered := (offer?_askedFor world store name store name).trans start.offered
  have free : ((world.askedFor store name).store store).declares function.name = false := by
    rw [store_askedFor, start.named, start.free]
  have there : (((world.askedFor store name).install store function receiver).store store).slot?
      function.name = some (.function (world.askedFor store name).callables.next) :=
    World.declares_install receiver (inside_of_offer? offered) free
  rw [callables_askedFor, start.named] at there
  exact there

omit start in
theorem made : (world.underConstruction store name function receiver).callables.get?
    world.callables.next = some (.ofFunction function receiver) := by
  rw [← callables_askedFor world store name]
  exact Heap.get?_push_next _ _

/-- Turning the function into a slot is to create its annotations in that state. -/
theorem materializes (perform : Perform) :
    materialize perform store name world =
      (attachOrWithdraw perform store function receiver world.contexts.next >>= fun _ => pure true)
        (world.underConstruction store name function receiver) := by
  have free : ((world.askedFor store name).store store).declares function.name = false := by
    rw [store_askedFor, start.named, start.free]
  obtain ⟨visited, asked⟩ := askedFor_follows world store name
  have same : (world.askedFor store name).contexts = world.contexts ∧
      (world.askedFor store name).config = world.config := by
    rw [asked, resolveBases_eq]
    exact ⟨rfl, rfl⟩
  have installs := installFunction_of_annotated perform receiver free start.annotated
  rw [same.1, same.2] at installs
  rw [materialize_of_some perform start.reachable.sound.1 start.offered, if_pos start.living,
    bind_apply, installs, bind_apply]
  rfl

/-! ## While the annotations are created -/

/-- A run that spares what is attached keeps the function in its slot. -/
theorem keeps_slot {except : InstanceId → Prop} {after : World}
    (spares : Spares except (world.underConstruction store name function receiver) after) :
    (after.store store).slot? name = some (.function world.callables.next) := by
  obtain ⟨later, still, stays, persists⟩ := spares.slot start.placed
  rwa [persists.function stays.annotations] at still

/-- Whenever a request is made, the function is in its slot. -/
theorem placed_in {budget : Nat} {inquiry : Inquiry}
    (member : inquiry ∈ world.annotationInquiries store name function receiver budget) :
    (inquiry.world.store store).slot? name = some (.function world.callables.next) := by
  classical
  let elsewhere : Inquiry → Prop := fun inquiry =>
    (inquiry.world.store store).slot? name ≠ some (.function world.callables.next)
  let account := createAnnotationsAccount function.label receiver world.contexts.next
    function.annotations
  have never : ∀ inquiry : Inquiry, elsewhere inquiry → ∀ contexts,
      createAnnotations ((barredUpTo elsewhere budget).barring elsewhere) function.label receiver
          world.contexts.next function.annotations
          (world.underConstruction store name function receiver) ≠
        (.exhausted, { inquiry.world with contexts := contexts }) := by
    intro inquiry missing contexts ends
    have sparing := (barredUpTo_sparing elsewhere budget).barring elsewhere
    have spares := (createAnnotations_sparing sparing function.label receiver world.contexts.next
      function.annotations (fun _ => True) _).ends start.live ends
    have kept := start.keeps_slot spares
    exact missing kept
  exact Classical.not_not.mp (account.never_barred budget _ never inquiry member)

/-- The creation of the annotations, however it ends. -/
theorem creates (budget : Nat) :
    Spares (fun _ => True) (world.underConstruction store name function receiver)
      (world.annotating store name function receiver budget).2 :=
  createAnnotations_sparing (performUpTo_sparing budget) function.label receiver
    world.contexts.next function.annotations (fun _ => True) _ start.live

end Materializable

/-! ## How an attempt ends -/

/-- Every lookup at a store fails for the same reason, which nobody takes for a missing name. -/
structure LookupsFail (world last : World) (store : StoreId) (name : String) (budget : Nat)
    (fault : Fault) : Prop where
  reads : performUpTo (budget + 1) (.read (.store store) name) world = (.failed fault, last)
  assigns : ∀ value,
    performUpTo (budget + 1) (.assign (.store store) name value) world = (.failed fault, last)
  annotations : annotationsOf (performUpTo budget) name (.store store) world =
    (.failed (.lookup ⟨name, fault.state, some fault.message⟩), last)
  final : fault.state ≠ .notDeclared

/-- A name is not declared in a store, and all slots that were there are there as they were.  They
may have another value where a request was made that may write them. -/
structure LeavesNoTrace (world last : World) (store : StoreId) (name : String)
    (made : List Inquiry) : Prop where
  undeclared : (last.store store).declares name = false
  kept : ∀ other label slot, (world.store other).slot? label = some slot →
    ∃ later, (last.store other).slot? label = some later ∧ later.type = slot.type ∧
      later.annotations = slot.annotations ∧ later.immutable = slot.immutable ∧
      ((∀ inquiry ∈ made, ¬ inquiry.Writes other label) → later.content = slot.content)

/-- A function is in its slot with one annotation for each use, in order, and every lookup at the
store finds it there. -/
structure LookupsFind (world last : World) (store : StoreId) (name : String) (budget : Nat)
    (function : Function) (receiver : Option Receiver) (created : List InstanceId) : Prop where
  slot : (last.store store).slot? name =
    some { Slot.function world.callables.next with annotations := created }
  callable : last.callables.get? world.callables.next = some (.ofFunction function receiver)
  full : MakesAll world last function.annotations created
  reads : performUpTo (budget + 1) (.read (.store store) name) world =
    readSlot (performUpTo budget) store name last
  assigns : ∀ value, performUpTo (budget + 1) (.assign (.store store) name value) world =
    (.failed (.lookup (.immutableFunction name)), last)
  annotations : annotationsOf (performUpTo budget) name (.store store) world = (.done created, last)

section

variable (perform : Perform) {world last : World} {store : StoreId} {name : String}

theorem storeAnnotations_of_declared {slot : Slot}
    (found : (world.store store).slot? name = some slot) :
    storeAnnotations perform store name world = (.done slot.annotations, world) := by
  have declared : (world.store store).declares name = true := by simp [Store.declares, found]
  unfold storeAnnotations
  rw [get_bind_apply, if_pos declared]
  dsimp only
  rw [get_bind_apply, found]
  rfl

theorem storeAnnotations_of_failed {fault : Fault} (free : (world.store store).declares name = false)
    (fails : materialize perform store name world = (.failed fault, last)) :
    storeAnnotations perform store name world =
      (.failed (.lookup ⟨name, fault.state, some fault.message⟩), last) := by
  have attempted : Exec.attempt (materialize perform store name) world =
      (.done (.error fault), last) := by
    unfold Exec.attempt
    rw [fails]
  unfold storeAnnotations
  rw [get_bind_apply, if_neg (by simp [free]), bind_of_done _ attempted]
  rfl

theorem storeAnnotations_of_made {slot : Slot} (free : (world.store store).declares name = false)
    (makes : materialize perform store name world = (.done true, last))
    (found : (last.store store).slot? name = some slot) :
    storeAnnotations perform store name world = (.done slot.annotations, last) := by
  have attempted : Exec.attempt (materialize perform store name) world =
      (.done (.ok true), last) := by
    unfold Exec.attempt
    rw [makes]
  unfold storeAnnotations
  rw [get_bind_apply, if_neg (by simp [free]), bind_of_done _ attempted]
  dsimp only
  rw [get_bind_apply, found]
  rfl

end

section

variable {world : World} {store : StoreId} {name : String} {function : Function}
  {receiver : Option Receiver} (start : world.Materializable store name function receiver)
  {budget : Nat}
include start

/-- What was there before an attempt is there after it failed. -/
theorem Materializable.leaves_no_trace {fault : Fault} {after : World}
    (fails : world.annotating store name function receiver budget = (.failed fault, after)) :
    LeavesNoTrace world (after.withStore store (·.erase name)) store name
      (world.annotationInquiries store name function receiver budget) := by
  have spares := start.opens.trans (start.creates budget)
  rw [fails] at spares
  have inside := inside_of_slot? (start.keeps_slot (fails ▸ start.creates budget))
  refine ⟨?_, fun other label slot found => ?_⟩
  · rw [store_withStore, if_pos ⟨rfl, inside⟩]
    simp [Store.declares, Store.slot?_erase]
  · obtain ⟨latest, still, stays, persists⟩ := spares.slot found
    have differs : ¬ (other = store ∧ label = name) := by
      rintro ⟨rfl, rfl⟩
      rw [start.missing] at found
      cases found
    have kept : ((after.withStore store (·.erase name)).store other).slot? label = some latest := by
      rw [store_withStore]
      split
      · next here =>
          rw [Store.slot?_erase, if_neg fun same => differs ⟨here.1, same⟩, ← here.1]
          exact still
      · exact still
    refine ⟨latest, kept, persists.type, stays.annotations, persists.immutable, fun unwritten => ?_⟩
    have keeps := Account.keeps_content
      (createAnnotationsAccount function.label receiver world.contexts.next function.annotations)
      (fun nested => createAnnotations_keeping nested _ _ _ _) budget _ unwritten
    have ended : createAnnotations (performUpTo budget) function.label receiver world.contexts.next
        function.annotations (world.underConstruction store name function receiver) =
          (.failed fault, after) := fails
    rw [ended] at keeps
    obtain ⟨last, there, same⟩ := (Materializable.opens_same other label).trans keeps slot found
    obtain rfl : last = latest := Option.some.inj (there.symm.trans still)
    exact same

/-- The attempt that fails takes the slot away again, and with it every lookup fails. -/
theorem Materializable.lookups_fail {fault : Fault} {after : World}
    (fails : world.annotating store name function receiver budget = (.failed fault, after)) :
    LookupsFail world (after.withStore store (·.erase name)) store name budget fault := by
  have withdraws : attachOrWithdraw (performUpTo budget) store function receiver
      world.contexts.next (world.underConstruction store name function receiver) = _ :=
    attachOrWithdraw_of_failed (performUpTo budget) receiver fails
  rw [start.named] at withdraws
  have materializes := (start.materializes (performUpTo budget)).trans (bind_of_failed _ withdraws)
  have foreign := (createAnnotations_distant (performUpTo budget) _ _ _ _ _ fault after fails).foreign
  exact {
    reads := (readStore_of_missing _ start.missing).trans (bind_of_failed _ materializes)
    assigns := fun value =>
      (assignStore_of_missing _ value start.missing).trans (bind_of_failed _ materializes)
    annotations := storeAnnotations_of_failed _ start.free materializes
    final := foreign.state_ne }

/-- Afterwards the function can be turned into a slot as before. -/
theorem Materializable.again {fault : Fault} {after : World}
    (fails : world.annotating store name function receiver budget = (.failed fault, after)) :
    (after.withStore store (·.erase name)).Materializable store name function receiver := by
  have spares := (materialize_sparing (performUpTo_sparing budget) store name (fun _ => True)
    world).ends start.reachable.sound
    ((start.materializes (performUpTo budget)).trans (bind_of_failed _
      (attachOrWithdraw_of_failed (performUpTo budget) receiver fails)))
  rw [start.named] at spares
  have trace := start.leaves_no_trace fails
  refine ⟨.proceed start.reachable spares.evolves.proceeds, ?_, ?_, start.annotated, ?_⟩
  · simpa [Store.declares] using trace.undeclared
  · rw [start.reachable.sound.2.laid.offer?_later spares.evolves.continues
      (inside_of_offer? start.offered), start.offered]
  · have living := start.living
    cases receiver with
    | none => rfl
    | some target => exact spares.evolves.keepsMark .alive target.owner living

/-- The attempt that succeeds attaches all annotations, and with it every lookup finds the function. -/
theorem Materializable.lookups_find {created : List InstanceId} {after : World}
    (done : world.annotating store name function receiver budget = (.done created, after)) :
    LookupsFind world (after.withStore store (·.modify name fun slot =>
      { slot with annotations := created })) store name budget function receiver created := by
  have spares := start.creates budget
  rw [done] at spares
  have kept := start.keeps_slot spares
  have declared : (after.store store).declares function.name = true := by
    simp [Store.declares, start.named, kept]
  have attaches := attachOrWithdraw_of_done (performUpTo budget) receiver done declared
  rw [start.named] at attaches
  have materializes := (start.materializes (performUpTo budget)).trans (bind_of_done _ attaches)
  have slot : ((after.withStore store (·.modify name fun slot =>
      { slot with annotations := created })).store store).slot? name =
        some { Slot.function world.callables.next with annotations := created } :=
    slot?_withStore_modify kept _
  have given : (world.underConstruction store name function receiver).callables.get?
      world.callables.next = some (.ofFunction function receiver) := Materializable.made
  have made := spares.evolves.continues.get?_callable given
  have full := createAnnotations_done (performUpTo_sparing budget)
    ((Underway.refl start.reachable.sound).later start.opens) start.reachable.sound.2.laid done
  exact {
    slot := slot
    callable := made
    full := full.later (.withStore after store _ fun _ => rfl)
    reads := (readStore_of_missing _ start.missing).trans (bind_of_done _ materializes)
    assigns := fun value =>
      (assignStore_of_missing _ value start.missing).trans (bind_of_done _ materializes)
    annotations := storeAnnotations_of_made _ start.free materializes slot }

/-! ## Through a scope -/

omit start in
theorem Materializable.moved (start : world.Materializable store name function receiver)
    {here : World} (nothing : world.ModifiesOnly noSlot here) (reachable : Reachable here) :
    here.Materializable store name function receiver where
  reachable := reachable
  missing := (nothing.slots store name id).trans start.missing
  offered := (nothing.offer? store name).trans start.offered
  annotated := start.annotated
  living := by
    simp only [nothing.object]
    exact start.living

/-- A lookup through a scope comes to the first store that answers.  It is the lookup there, in a
state that differs at most in bases that were walked to. -/
theorem Materializable.comes {α : Type} {atStore : StoreId → Exec α} {atScope : Scope → Exec α}
    {among : List Scope → Exec α} (tries : TriesStores name atStore atScope among)
    (unknown : MissesUnknown name atStore)
    (hits : ∀ here, world.ModifiesOnly noSlot here →
      here.Materializable store name function receiver →
        ∀ fault after, atStore store here = (.failed fault, after) → fault.isMiss name = false)
    {scope : Scope} (first : scope.stores.find? (world.Answers name) = some store) :
    ∃ here, world.ModifiesOnly noSlot here ∧ here.Materializable store name function receiver ∧
      atScope scope world = atStore store here := by
  have moved : ∀ here, world.ModifiesOnly noSlot here → Proceeds world here →
      here.Materializable store name function receiver := fun here nothing proceeds =>
    start.moved nothing (.proceed start.reachable proceeds)
  obtain ⟨here, nothing, proceeds, looks⟩ := comes_to_store tries unknown start.reachable.sound.1 first
    fun here nothing proceeds => hits here nothing (moved here nothing proceeds)
  exact ⟨here, nothing, moved here nothing proceeds, looks⟩

/-- Reads and writes through a scope.  A read may end in the hooks of the new annotations, so its
name has to be distinct. -/
theorem Materializable.through_scope {scope : Scope}
    (first : scope.stores.find? (world.Answers name) = some store) :
    (∀ value, ∃ here, world.ModifiesOnly noSlot here ∧
      here.Materializable store name function receiver ∧
      performUpTo (budget + 1) (.assign scope name value) world =
        performUpTo (budget + 1) (.assign (.store store) name value) here) ∧
    (world.Distinct name → ∃ here, world.ModifiesOnly noSlot here ∧
      here.Materializable store name function receiver ∧
      performUpTo (budget + 1) (.read scope name) world =
        performUpTo (budget + 1) (.read (.store store) name) here) := by
  have discerns := performUpTo_discerns name budget
  refine ⟨fun value => ?_, fun distinct => ?_⟩
  · refine start.comes (assignScope_tries (performUpTo budget) name value)
      (assignStore_missesUnknown _ name value)
      (fun here _ start fault after ends => ?_) first
    rw [assignStore_of_missing _ value start.missing] at ends
    obtain raised | ⟨made, last, done, later⟩ := bind_failed ends
    · exact materialize_never_misses discerns store name raised
    · obtain ⟨rfl, _⟩ := declares_of_materialized discerns start.offered done
      cases later
      rfl
  · refine start.comes (readScope_tries (performUpTo budget) name)
      (readStore_missesUnknown _ name)
      (fun here nothing start => ?_) first
    refine readStore_discerns discerns store name here (fun _ => ?_)
      (distinct.of_modifiesOnly nothing).forReads
    unfold Answers
    rw [start.offered, Option.isSome_some, Bool.or_true]

end

/-! ## All or nothing -/

/-- An annotated function is turned into a slot with all its annotations, or not at all.  While they
are created, every request finds the function in its slot, without annotations, and no lookup turns
it into a slot again.  If one of them cannot be created, every lookup fails, the slot is taken away,
all others are kept, and everything is ready for another attempt.  If all are created, they are
attached in order.  Lookups through a scope come down to lookups at the store. -/
theorem materialized_all_or_nothing {world : World} {store : StoreId} {name : String}
    {function : Function} {receiver : Option Receiver}
    (start : world.Materializable store name function receiver) (budget : Nat) :
    (∀ inquiry ∈ world.annotationInquiries store name function receiver budget,
      inquiry.world.HoldsForGood store name world.callables.next ∧
      ∀ deeper, annotationsOf (performUpTo deeper) name (.store store) inquiry.world =
        (.done [], inquiry.world)) ∧
    (∀ fault after, world.annotating store name function receiver budget = (.failed fault, after) →
      ∃ last, last = after.withStore store (·.erase name) ∧
        world.LookupsFail last store name budget fault ∧
        world.LeavesNoTrace last store name
          (world.annotationInquiries store name function receiver budget) ∧
        last.Materializable store name function receiver) ∧
    (∀ created after,
      world.annotating store name function receiver budget = (.done created, after) →
        ∃ last, world.LookupsFind last store name budget function receiver created) ∧
    ∀ scope, scope.stores.find? (world.Answers name) = some store →
      (∀ value, ∃ here, world.ModifiesOnly noSlot here ∧
        here.Materializable store name function receiver ∧
        performUpTo (budget + 1) (.assign scope name value) world =
          performUpTo (budget + 1) (.assign (.store store) name value) here) ∧
      (world.Distinct name → ∃ here, world.ModifiesOnly noSlot here ∧
        here.Materializable store name function receiver ∧
        performUpTo (budget + 1) (.read scope name) world =
          performUpTo (budget + 1) (.read (.store store) name) here) := by
  refine ⟨fun inquiry member => ?_, fun fault after fails => ?_, fun created after done => ?_,
    fun scope first => start.through_scope first⟩
  · have placed := start.placed_in member
    exact ⟨holdsForGood placed, fun deeper => storeAnnotations_of_declared _ placed⟩
  · exact ⟨_, rfl, start.lookups_fail fails, start.leaves_no_trace fails, start.again fails⟩
  · exact ⟨_, start.lookups_find done⟩

/-- A function with an annotation whose argument is refused until the instance is armed. -/
def triggerSpecs : List ClassSpec :=
  [⟨"Seal", .marker, none, [], [], [], none, none⟩,
   bareClass "Trigger" none [bareField "armed" (some (.bool false))]
     [⟨"fire", .global, .ordinary, .any, .script .null,
       [⟨"Seal", [.branch (.get "armed") (.int 1) (.throw "not armed")]⟩], none⟩]]

def triggerState : World := sampleAfter triggerSpecs ⟨1⟩

/-- The function was looked up in vain. -/
def triggerTried : World := (performUpTo 12 (.read (.store ⟨3⟩) "fire") triggerState).2

/-- Then the instance was armed. -/
def triggerArmed : World :=
  (performUpTo 12 (.assign (.store ⟨3⟩) "armed" (.bool true)) triggerTried).2

theorem proceeds_triggerArmed : Proceeds triggerState triggerArmed :=
  (performUpTo_proceeds 12 (.read (.store ⟨3⟩) "fire") triggerState).trans
    (performUpTo_proceeds 12 (.assign (.store ⟨3⟩) "armed" (.bool true)) triggerTried)

/-- The function can be turned into a slot before and after. -/
theorem materializable_trigger {function : Function} {receiver : Option Receiver}
    (offered : triggerState.offer? ⟨3⟩ "fire" = some (function, receiver)) :
    triggerState.Materializable ⟨3⟩ "fire" function receiver ∧
      triggerArmed.Materializable ⟨3⟩ "fire" function receiver := by
  have reachable : Reachable triggerState :=
    .proceed (reachable_sampleStart triggerSpecs) (proceeds_sampleAfter triggerSpecs ⟨1⟩)
  have given : (triggerState.offer? ⟨3⟩ "fire").all (fun offer =>
      !offer.1.annotations.isEmpty && offer.2.all fun target =>
        (triggerState.object target.owner).alive && (triggerArmed.object target.owner).alive) =
          true := by decide +kernel
  rw [offered, Option.all_some, Bool.and_eq_true] at given
  have annotated : function.annotations ≠ [] := by simpa using given.1
  have both := given.2
  have kept := (proceeds_triggerArmed.sound_continues reachable.sound.1 reachable.sound.2).2
  have later := reachable.sound.2.laid.offer?_later kept (inside_of_offer? offered) "fire"
  refine ⟨⟨reachable, by decide +kernel, offered, annotated, ?_⟩,
    ⟨.proceed reachable proceeds_triggerArmed, by decide +kernel, later.trans offered, annotated, ?_⟩⟩
  · cases receiver with
    | none => rfl
    | some target =>
        rw [Option.all_some, Bool.and_eq_true] at both
        rw [Option.all_some]
        exact both.1
  · cases receiver with
    | none => rfl
    | some target =>
        rw [Option.all_some, Bool.and_eq_true] at both
        rw [Option.all_some]
        exact both.2

/-- The first lookup fails and leaves everything ready for the second, which finds the function with
its annotation. -/
theorem materialized_all_or_nothing_trigger : ∃ function receiver,
    (triggerState.Materializable ⟨3⟩ "fire" function receiver ∧
      ∃ fault, triggerState.LookupsFail triggerTried ⟨3⟩ "fire" 11 fault ∧
        triggerTried.Materializable ⟨3⟩ "fire" function receiver) ∧
    triggerArmed.Materializable ⟨3⟩ "fire" function receiver ∧
      ∃ last created, triggerArmed.LookupsFind last ⟨3⟩ "fire" 11 function receiver [created] := by
  obtain ⟨⟨function, receiver⟩, offered⟩ : ∃ offer, triggerState.offer? ⟨3⟩ "fire" = some offer :=
    Option.isSome_iff_exists.mp (by decide +kernel)
  obtain ⟨first, second⟩ := materializable_trigger offered
  have refused : (triggerState.offer? ⟨3⟩ "fire").all (fun offer =>
      (triggerState.annotating ⟨3⟩ "fire" offer.1 offer.2 11).1.fault?.isSome) = true := by
    decide +kernel
  have created : (triggerState.offer? ⟨3⟩ "fire").all (fun offer =>
      (triggerArmed.annotating ⟨3⟩ "fire" offer.1 offer.2 11).1.result?.map List.length = some 1) =
        true := by
    decide +kernel
  rw [offered, Option.all_some] at refused created
  obtain ⟨fault, refused⟩ := Option.isSome_iff_exists.mp refused
  obtain ⟨instances, created, one⟩ := Option.map_eq_some_iff.mp (of_decide_eq_true created)
  obtain ⟨only, rfl⟩ := List.length_eq_one_iff.mp one
  obtain ⟨last, _, fails, _, again⟩ :=
    (materialized_all_or_nothing first 11).2.1 fault _ (failed_of_fault? refused)
  obtain rfl : triggerTried = last := congrArg Prod.snd fails.reads
  obtain ⟨latest, finds⟩ :=
    (materialized_all_or_nothing second 11).2.2.1 [only] _ (done_of_result? created)
  exact ⟨function, receiver, ⟨first, fault, fails, again⟩, second, latest, only, finds⟩

end World

end ScriptObjects

import ScriptObjects.Proofs.DistinctNames
import ScriptObjects.Proofs.Keeping

/-!
# What nobody writes stays

The content of a slot changes only when a write comes to it.  A slot that is there is never made
anew, its name is taken; annotations are attached beside its content; and the only slots that are
taken away again are those that were put there by the same lookup.  So a run that makes no request
to write a name, in a scope that has the store of the slot among its sources, leaves the content of
the slot as it is: the content is in custody, with an exception for writes to the slot.

A write of the name to another store is an activity like the others; a write that may come to the
slot is what the machine bars.
-/

namespace ScriptObjects

set_option autoImplicit false

open Exec World

/-! ## The content of one slot -/

/-- If the slot is there, it is still there, with the same content. -/
def World.SameContent (store : StoreId) (name : String) (before after : World) : Prop :=
  ∀ slot, (before.store store).slot? name = some slot →
    ∃ later, (after.store store).slot? name = some later ∧ later.content = slot.content

namespace World.SameContent

variable {store : StoreId} {name : String} {first second third world : World}

theorem of_stores (same : second.stores = first.stores) : SameContent store name first second := by
  intro slot found
  refine ⟨slot, ?_, rfl⟩
  unfold World.store at found ⊢
  rw [same]
  exact found

theorem refl (world : World) : SameContent store name world world := of_stores rfl

theorem trans (one : SameContent store name first second)
    (two : SameContent store name second third) : SameContent store name first third := by
  intro slot found
  obtain ⟨between, there, same⟩ := one slot found
  obtain ⟨later, still, again⟩ := two between there
  exact ⟨later, still, again.trans same⟩

/-- A store changes, but the slot does not if it is in that store. -/
theorem withStore {id : StoreId} {change : Store → Store}
    (keeps : id = store → ∀ (old : Store) (slot : Slot), old.slot? name = some slot →
      ∃ later, (change old).slot? name = some later ∧ later.content = slot.content) :
    SameContent store name world (world.withStore id change) := by
  intro slot found
  rw [store_withStore]
  split
  · next here =>
      obtain ⟨rfl, _⟩ := here
      exact keeps rfl _ slot found
  · exact ⟨slot, found, rfl⟩

theorem insert (id : StoreId) (label : String) (added : Slot) :
    SameContent store name world (world.withStore id (·.insert label added)) :=
  withStore fun _ old slot found => ⟨slot, by rw [Store.slot?_insert, found, Option.some_or], rfl⟩

theorem annotate (id : StoreId) (label : String) (annotations : List InstanceId) :
    SameContent store name world
      (world.withStore id (·.modify label fun slot => { slot with annotations := annotations })) := by
  refine withStore fun _ old slot found => ?_
  rw [Store.slot?_modify]
  split
  · next same =>
      rw [← same, found]
      exact ⟨_, rfl, rfl⟩
  · exact ⟨slot, found, rfl⟩

theorem write {id : StoreId} {label : String} (other : ¬ (label = name ∧ id = store))
    (value : Value) :
    SameContent store name world (world.withStore id (·.modify label (·.write value))) := by
  refine withStore fun here old slot found => ⟨slot, ?_, rfl⟩
  rw [Store.slot?_modify, if_neg fun same => other ⟨same.symm, here⟩]
  exact found

theorem allocate (world : World) (id : ClassId) :
    SameContent store name world (world.allocate id) := by
  refine fun slot found => ⟨slot, ?_, rfl⟩
  rw [(allocate_allocates world id).old store (inside_of_slot? found)]
  exact found

/-- A slot that was put there and is taken away again is another one. -/
theorem withdraw {id : StoreId} {label : String} (free : (first.store id).declares label = false)
    (inside : SameContent store name first second) :
    SameContent store name first (second.withStore id (·.erase label)) := by
  intro slot found
  obtain ⟨later, still, same⟩ := inside slot found
  refine ⟨later, ?_, same⟩
  rw [store_withStore]
  split
  · next here =>
      have differs : name ≠ label := by
        rintro rfl
        rw [here.1] at found
        simp [Store.declares, found] at free
      rw [Store.slot?_erase, if_neg differs, ← here.1]
      exact still
  · exact still

theorem of_bindHost {receiver : Receiver} {host : HostId} :
    SameContent store name world (world.bindHost receiver host) := by
  unfold World.bindHost
  split <;> exact of_stores rfl

end World.SameContent

/-- The content of a slot, with an exception for the writes to it. -/
def Custody.content (store : StoreId) (name : String) : Custody where
  keeps := SameContent store name
  mayWrite id label := ¬ (label = name ∧ id = store)
  mayBind _ := True
  refl := .refl
  trans one two := one.trans two
  aside same := .of_stores same.stores
  insert _ := .insert
  annotate _ := .annotate
  write _ := .write
  withdraw := .withdraw
  allocate := .allocate
  object _ _ _ _ := .of_stores rfl
  fallback _ _ := .of_stores rfl
  wrap _ _ _ _ _ := .of_bindHost
  construct _ _ := .of_bindHost

/-! ## Writes -/

/-- A write of a name through a scope may come to a store: the store is the first of the sources to
answer to the name.  Where the name is not distinct, an earlier source may report it as missing
although it answers, and the write goes on. -/
def World.WriteMayCome (world : World) (scope : Scope) (name : String) (store : StoreId) : Prop :=
  scope.stores.find? (world.Answers name) = some store ∨
    store ∈ scope.stores ∧ ¬ world.Distinct name

/-- A request that may write a slot is made. -/
def Inquiry.Writes (store : StoreId) (name : String) (inquiry : Inquiry) : Prop :=
  match inquiry.request with
  | .assign scope label _ => label = name ∧ inquiry.world.WriteMayCome scope name store
  | .call .. | .read .. | .construct .. => False

section

variable {store : StoreId} {name : String} {world : World}

theorem World.SameContent.of_modifiesOnly {after : World}
    (nothing : world.ModifiesOnly noSlot after) : SameContent store name world after :=
  fun slot found => ⟨slot, (nothing.slots store name id).trans found, rfl⟩

theorem World.Distinct.of_modifiesOnly {changed : StoreId → String → Prop} {after : World}
    (distinct : world.Distinct name) (modifies : world.ModifiesOnly changed after) :
    after.Distinct name := by
  refine ⟨distinct.notRead, distinct.notWrite, fun selective => distinct.trusts ?_⟩
  rw [modifies.rest] at selective
  exact selective

section

variable {perform : Perform} (nested : perform.Keeping (.content store name))
  (discerns : perform.Discerns name)
include nested

/-- What is done at the first store to answer keeps a slot of another store. -/
theorem lookAtFirst_keeping {scope : Scope} (value : Value)
    (elsewhere : scope.stores.find? (world.Answers name) ≠ some store) :
    Keeping (.content store name)
      (world.lookAtFirst name (assignStore perform · name value) scope.stores) := by
  unfold World.lookAtFirst
  cases found : scope.stores.find? (world.Answers name) with
  | none => exact .throw _
  | some first =>
      rw [found] at elsewhere
      exact assignStore_keeping nested (fun same => elsewhere (congrArg some same.2)) value

include discerns

/-- A write of the name that does not come to the store keeps the content of the slot. -/
theorem assignScope_elsewhere {scope : Scope} (value : Value)
    (other : ¬ world.WriteMayCome scope name store) :
    SameContent store name world (assignScope perform name value scope world).2 := by
  by_cases member : store ∈ scope.stores
  · have elsewhere := fun first => other (.inl first)
    have distinct : world.Distinct name :=
      Classical.not_not.mp fun indistinct => other (.inr ⟨member, indistinct⟩)
    have hits : ∀ first, scope.stores.find? (world.Answers name) = some first → ∀ here,
        world.ModifiesOnly noSlot here → ∀ fault after,
          assignStore perform first name value here = (.failed fault, after) →
            fault.isMiss name = false := fun first found here reached =>
      assignStore_discerns discerns distinct.notWrite first name value here
        (fun _ => (reached.answers id).trans (List.find?_some found))
        (distinct.of_modifiesOnly reached).forReads
    cases alive : world.alive with
    | true =>
        obtain ⟨there, reached, _, looks⟩ := comes_to_first (assignScope_tries perform name value)
          (assignStore_missesUnknown perform name value) alive scope
          fun first found here reached _ => hits first found here reached
        rw [looks]
        exact (SameContent.of_modifiesOnly reached).trans
          (lookAtFirst_keeping nested value elsewhere there)
    | false =>
        have looks := (assignScope_tries perform name value).fails_or_first
          (fun silent answers => assignStore_of_dropped _ value alive (answers_eq_false answers).1)
          scope
        cases found : scope.stores.find? (world.Answers name) with
        | none =>
            obtain ⟨fault, ends⟩ := looks.1 found
            rw [ends]
            exact .refl world
        | some first =>
            obtain same | ⟨fault, ends, _⟩ :=
              looks.2 first found (hits first found world (.refl world))
            · rw [same]
              refine assignStore_keeping nested (fun both => elsewhere ?_) value world
              rw [found, both.2]
            · rw [ends]
              exact .refl world
  · refine assignScope_keeping nested name value scope (fun id among both => member ?_) world
    rw [← both.2]
    exact among

/-- A step keeps the content of a slot, unless it is a write that may come to the slot. -/
theorem step_content {request : Request} (other : ¬ Inquiry.Writes store name ⟨request, world⟩) :
    SameContent store name world (step perform request world).2 := by
  cases request with
  | call callable args context =>
      exact step_keeping nested fun _ _ _ _ _ _ => trivial
  | read scope label => exact step_keeping nested trivial
  | construct id options args => exact step_keeping nested trivial
  | assign scope label value =>
      by_cases same : label = name
      · subst same
        exact assignScope_elsewhere nested discerns value fun comes => other ⟨rfl, comes⟩
      · exact step_keeping nested fun _ _ both => same both.1

end

/-! ## The machine -/

theorem content_guardedBy (store : StoreId) (name : String) :
    (Custody.content store name).GuardedBy (Inquiry.Writes store name) :=
  fun barred _ budget _ _ nested clear =>
    step_content nested (barredUpTo_discerns name barred budget) clear

/-- A run on the way of which no request may write a slot keeps the content of the slot. -/
theorem Account.keeps_content {allowed : Fault → Prop} {α : Type} {part : Perform → Exec α}
    (account : Account allowed part)
    (keeping : ∀ {perform : Perform}, perform.Keeping (.content store name) →
      Keeping (.content store name) (part perform)) (budget : Nat) (world : World)
    (unwritten : ∀ inquiry ∈ account.inquiries (performUpTo budget) (inquiriesUpTo budget) world,
      ¬ inquiry.Writes store name) :
    SameContent store name world (part (performUpTo budget) world).2 :=
  account.keeps (content_guardedBy store name) budget world (fun nested => keeping nested world)
    unwritten

end

end ScriptObjects

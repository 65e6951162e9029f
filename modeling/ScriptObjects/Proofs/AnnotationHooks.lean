import ScriptObjects.Proofs.Members

/-!
# The hooks of new annotations are found

The annotations of a field are made while the field is constructed, and its initializer is written
through their hooks at once.  An instance that was made since has a level for every class of its
chain, so the table of its class leads to a function that one of its levels declares.  The store of
that level gives the function, or at least does not report it as missing: what is attached to the
function was made since as well, so that its hooks are found in the same way, within a smaller
budget.

Nothing is asked of the registry or of the name, because all this happens within one command, during
which no class is defined.
-/

namespace ScriptObjects

set_option autoImplicit false

open Exec World

/-! ## Runs that report no name as missing -/

namespace Exec

variable {α β : Type} {world : World}

/-- A run reports no name as missing. -/
def FindsAt (run : Exec α) (world : World) : Prop :=
  ∀ fault after, run world = (.failed fault, after) → ∀ name, fault.isMiss name = false

namespace FindsAt

theorem pure (result : α) : FindsAt (pure result : Exec α) world :=
  fun _ _ ends => nomatch ends

theorem throw {fault : Fault} (other : ∀ name, fault.isMiss name = false) :
    FindsAt (throw fault : Exec α) world := by
  intro raised after ends
  cases ends
  exact other

theorem of_foreign {run : Exec α} (foreign : FaultsIn Fault.Foreign run) : FindsAt run world :=
  fun fault after ends name => (foreign world fault after ends).isMiss name

theorem bind {run : Exec α} {next : α → Exec β} (first : FindsAt run world)
    (second : ∀ result after, run world = (.done result, after) → FindsAt (next result) after) :
    FindsAt (run >>= next) world := by
  intro fault last ends
  obtain raised | ⟨result, after, done, later⟩ := bind_failed ends
  · exact first fault last raised
  · exact second result after done fault last later

end FindsAt

end Exec

/-! ## What new instances have -/

section

variable {start now : World} (laid : start.LaidOut) (underway : Underway start now)
include laid underway

/-- Every instance that was made since is a newcomer. -/
theorem World.Underway.newcomer {id : InstanceId} (new : start.instances.size ≤ id.index)
    (inside : id.index < now.instances.size) : Newcomer start now id where
  inside := inside
  chain := underway.whole id new inside
  empty _ _ sits tier := underway.empty_of_new laid new sits tier

variable {id : InstanceId} (newcomer : Newcomer start now id) {link : MetaLink} {place : Nat}
  {level : Level} (leads : now.LeadsTo id link place level)
include newcomer leads

/-- Where a level of a new instance declares a function, a slot of its name keeps its value itself,
and is annotated with new instances if at all. -/
theorem World.Underway.slot_of_link {slot : Slot}
    (found : (now.store (level.declarations link.access)).slot? link.key.methodName = some slot) :
    (∃ value, slot.content = .script value) ∧
      ∀ attached ∈ slot.annotations, Newcomer start now attached := by
  obtain ⟨none, script⟩ | adorns :=
    underway.tidy _ (newcomer.empty place level leads.sits link.access) _ slot found
  · rw [none]
    exact ⟨script, fun _ member => nomatch member⟩
  · have attached := fun other member =>
      underway.newcomer laid (adorns.made other member).1 (adorns.made other member).2
    obtain field | ⟨_, script⟩ := adorns.declared
    · rw [← leads.named] at field
      exact absurd field (underway.live.2.not_ofField leads.sits leads.declared link.access)
    · exact ⟨script, attached⟩

end

/-! ## Hooks of new instances -/

/-- A way to perform requests is such that the functions of the levels of new instances are not
missed. -/
def Perform.FindsFunctions (start : World) (perform : Perform) : Prop :=
  ∀ now, Underway start now → ∀ id, Newcomer start now id → ∀ link place level,
    now.LeadsTo id link place level →
      FindsAt (perform (.read (.store (level.declarations link.access)) link.key.methodName)) now

section

variable {start : World} (laid : start.LaidOut) {perform : Perform}
  (finds : perform.FindsFunctions start)
include finds

/-- The function of a hook of a new instance is not missed. -/
theorem hook_finds {now : World} (underway : Underway start now) {id : InstanceId}
    (newcomer : Newcomer start now id) (context : ContextId) (key : MetaKey) (args : List Value) :
    FindsAt (hook perform context id key args) now := by
  intro fault after ends
  cases found : (now.metaTable (now.object id).cls).get? key with
  | none =>
      rw [hook_of_none perform context args found] at ends
      cases ends
  | some link =>
      obtain ⟨rfl, links⟩ := underway.live.2.registered.links found
      let asked := now.keepMetaTable (now.object id).cls
      have asks : Exec.metaLink? (now.object id).cls link.key now = (.done (some link), asked) := by
        rw [← found]
        rfl
      have spares : Spares (fun _ => True) now asked :=
        ((Sparing.still (metaLink?_leads _ _) (metaLink?_still _ _)) (fun _ => True) now).ends
          underway.live asks
      obtain ⟨place, level, leads⟩ := links.leadsTo fun member => level_of_member newcomer.chain
      have leads := leads.later spares.evolves.continues
      have underway := underway.later spares
      have newcomer := newcomer.later spares.evolves.continues
      have opens : openScope? id ⟨(asked.levelOf? id link.owner.hash).getD 0, link.access,
          .declarations⟩ asked = (.done (some (.store (level.declarations link.access))), asked) := by
        rw [leads.levelOf?_eq (newcomer.chain ▸ List.prefix_rfl) underway.live.2.registered,
          Option.getD_some]
        exact openScope?_declarations leads.sits rfl
      unfold hook at ends
      rw [get_bind_apply, bind_of_done _ asks] at ends
      dsimp only at ends
      rw [get_bind_apply, bind_of_done _ opens] at ends
      refine FindsAt.bind (finds asked underway id newcomer link place level leads)
        (fun value _ _ => ?_) fault after ends
      exact .of_foreign (callFetched_foreign perform context link.key args value)

variable (nested : perform.Sparing)
include nested

/-- A value passes through hooks of new instances without a name being reported as missing. -/
theorem intercept_finds (key : MetaKey) (name : String) {annotations : List InstanceId} {now : World}
    (underway : Underway start now)
    (newcomers : ∀ attached ∈ annotations, Newcomer start now attached) (value : Value) :
    FindsAt (intercept perform key name value annotations) now := by
  induction annotations generalizing value now with
  | nil => exact .pure value
  | cons attached rest ih =>
      refine .bind (hook_finds finds underway (newcomers attached List.mem_cons_self) _ key _)
        fun answer after answered => ?_
      have spares := (hook_sparing nested _ attached key _ (fun _ => True) now).ends underway.live
        answered
      have others : ∀ other ∈ rest, Newcomer start after other := fun other member =>
        (newcomers other (List.mem_cons_of_mem attached member)).later spares.evolves.continues
      cases answer with
      | none => exact ih (underway.later spares) others value
      | some result => exact ih (underway.later spares) others result

include laid

/-- The slot of a function of a new instance is read without a name being reported as missing. -/
theorem readSlot_finds {now : World} (underway : Underway start now) {id : InstanceId}
    (newcomer : Newcomer start now id) {link : MetaLink} {place : Nat} {level : Level}
    (leads : now.LeadsTo id link place level)
    (declared : (now.store (level.declarations link.access)).declares link.key.methodName = true) :
    FindsAt (readSlot perform (level.declarations link.access) link.key.methodName) now := by
  obtain ⟨slot, found⟩ := Option.isSome_iff_exists.mp declared
  obtain ⟨⟨value, script⟩, newcomers⟩ := underway.slot_of_link laid newcomer leads found
  rw [FindsAt, readSlot, get_bind_apply, found]
  dsimp only
  rw [script]
  cases value with
  | none =>
      refine FindsAt.bind (.throw fun _ => rfl) fun kept after ends => ?_
      cases ends
  | some value =>
      refine FindsAt.bind (.pure value) fun kept after ends => ?_
      cases ends
      split
      · exact .pure value
      · refine .bind (.of_foreign (requireStoreAssembly_foreign _)) fun _ later required => ?_
        have still := requireStoreAssembly_still (level.declarations link.access)
        have spares := (Sparing.still (requireStoreAssembly_leads _) still (fun _ => True) now).ends
          underway.live required
        exact intercept_finds finds nested .onRead _ (underway.later spares)
          (fun attached member => (newcomers attached member).later spares.evolves.continues) value

/-- A function of a level of a new instance is looked up without being missed. -/
theorem readStore_finds {now : World} (underway : Underway start now) {id : InstanceId}
    (newcomer : Newcomer start now id) {link : MetaLink} {place : Nat} {level : Level}
    (leads : now.LeadsTo id link place level) :
    FindsAt (readStore perform (level.declarations link.access) link.key.methodName) now := by
  let store := level.declarations link.access
  cases found : (now.store store).slot? link.key.methodName with
  | some slot =>
      have reads := readSlot_finds laid finds nested underway newcomer leads
        (Option.isSome_iff_exists.mpr ⟨slot, found⟩)
      unfold FindsAt readStore
      rw [orElseMissing_of_other fun fault after ends => reads fault after ends _]
      exact reads
  | none =>
      have offered := leads.offered (newcomer.chain ▸ List.prefix_rfl) underway.live.2
      have makes {after : World} :=
        @materialize_of_offer _ nested.leads _ after underway.live.1 _ _ _ offered
      unfold FindsAt
      rw [readStore_of_missing perform found]
      refine FindsAt.bind (fun fault after ends => makes.1 fault ends) fun made after ends => ?_
      obtain ⟨rfl, declared⟩ := makes.2 made ends
      have spares := (materialize_sparing nested store link.key.methodName (fun _ => True) now).ends
        underway.live ends
      rw [if_pos rfl]
      exact readSlot_finds laid finds nested (underway.later spares)
        (newcomer.later spares.evolves.continues) (leads.later spares.evolves.continues) declared

end

/-! ## The machine -/

/-- Within every budget, the functions of the levels of new instances are not missed. -/
theorem performUpTo_findsFunctions {start : World} (laid : start.LaidOut) (budget : Nat) :
    Perform.FindsFunctions start (performUpTo budget) := by
  induction budget with
  | zero => exact fun _ _ _ _ _ _ _ _ => .of_foreign .exhaust
  | succ budget ih =>
      intro now underway id newcomer link place level leads
      exact readStore_finds laid ih (performUpTo_sparing budget) underway newcomer leads

/-- A write to a variable whose annotations are new is not taken for one to a missing name. -/
theorem assignSlot_finds {start now : World} (laid : start.LaidOut) (underway : Underway start now)
    {store : StoreId} {name : String} {slot : Slot}
    (found : (now.store store).slot? name = some slot) (isMutable : slot.immutable = false)
    {kept : Option Value} (script : slot.content = .script kept)
    (newcomers : ∀ attached ∈ slot.annotations, Newcomer start now attached) (budget : Nat)
    (value : Value) : FindsAt (assignSlot (performUpTo budget) store name value) now := by
  unfold FindsAt
  rw [assignSlot_of_mutable _ value found isMutable]
  refine FindsAt.bind ?_ fun final after _ => ?_
  · unfold writeHooks
    split
    · exact .pure value
    · refine .bind (.of_foreign (requireStoreAssembly_foreign store)) fun _ later required => ?_
      have still := requireStoreAssembly_still store
      have spares := (Sparing.still (requireStoreAssembly_leads _) still (fun _ => True) now).ends
        underway.live required
      exact intercept_finds (performUpTo_findsFunctions laid budget) (performUpTo_sparing budget)
        .onWrite name (underway.later spares)
        (fun attached member => (newcomers attached member).later spares.evolves.continues) value
  · unfold storeValue
    refine .bind (.of_foreign (coerce?_foreign _ _)) fun stored _ _ => ?_
    cases stored with
    | none => exact .bind (.of_foreign (.ask _)) fun _ _ _ => .throw fun _ => rfl
    | some stored =>
        rw [script]
        exact .of_foreign (.change _)

end ScriptObjects

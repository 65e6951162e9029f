import ScriptObjects.Proofs.FunctionSlots
import ScriptObjects.Proofs.Inquiries

/-!
# Names that are missed nowhere else

A lookup goes on to the next source when a source reports that the very name is not declared.  Such
a report can come from somewhere else, too: the hooks of an annotated slot are looked up while the
slot is read or written, each under the name of its meta-function, and a marshaler may report any
name.  A name is distinct if it is neither of those.  Then a store that answers to the name never
reports it as missing, in whatever state and whatever its hooks do, and the lookup ends there.

Where the registry was validated the same holds of every name; here nothing is assumed of the
registry, and of the requests no more than that they discern the name in turn.
-/

namespace ScriptObjects

set_option autoImplicit false

open Exec

namespace World

/-- A name is not looked up for the hooks of slots, and the marshaler does not report it. -/
structure Distinct (name : String) (world : World) : Prop where
  notRead : MetaKey.onRead.methodName ≠ name
  notWrite : MetaKey.onWrite.methodName ≠ name
  trusts : world.Trusts name

theorem Distinct.later {name : String} {before after : World} (distinct : before.Distinct name)
    (continues : before.Continues after) : after.Distinct name :=
  ⟨distinct.notRead, distinct.notWrite, distinct.trusts.later continues⟩

/-- What is asked of a name that is only read. -/
structure DistinctForReads (name : String) (world : World) : Prop where
  notRead : MetaKey.onRead.methodName ≠ name
  trusts : world.Trusts name

theorem Distinct.forReads {name : String} {world : World} (distinct : world.Distinct name) :
    world.DistinctForReads name :=
  ⟨distinct.notRead, distinct.trusts⟩

theorem DistinctForReads.later {name : String} {before after : World}
    (distinct : before.DistinctForReads name) (continues : before.Continues after) :
    after.DistinctForReads name :=
  ⟨distinct.notRead, distinct.trusts.later continues⟩

end World

/-! ## Runs that discern a name -/

namespace Exec

variable {α β : Type}

/-- If a name is distinct, a run does not report it as missing. -/
def DiscernsAt (name : String) (run : Exec α) (world : World) : Prop :=
  world.DistinctForReads name → ∀ fault after, run world = (.failed fault, after) →
    fault.isMiss name = false

namespace DiscernsAt

variable {name : String} {world : World}

theorem of_foreign {run : Exec α} (foreign : FaultsIn Fault.Foreign run) :
    DiscernsAt name run world :=
  fun _ fault after ends => (foreign world fault after ends).isMiss name

theorem throw {fault : Fault} (other : fault.isMiss name = false) :
    DiscernsAt name (throw fault : Exec α) world := by
  intro _ raised after ends
  cases ends
  exact other

theorem pure (result : α) : DiscernsAt name (pure result : Exec α) world :=
  fun _ _ _ ends => nomatch ends

theorem of_get {next : World → Exec β} (second : DiscernsAt name (next world) world) :
    DiscernsAt name ((get : Exec World) >>= next) world :=
  second

theorem bind {run : Exec α} {next : α → Exec β} (leads : LeadsFreely run)
    (first : DiscernsAt name run world)
    (second : ∀ result after, DiscernsAt name (next result) after) :
    DiscernsAt name (run >>= next) world := by
  intro distinct fault last ends
  obtain raised | ⟨result, after, done, later⟩ := bind_failed ends
  · exact first distinct fault last raised
  · have evolves := leads world world.permits_all fun _ _ => trivial
    rw [done] at evolves
    exact second result after (distinct.later evolves.continues) fault last later

/-- After a miss of another name a run may go on. -/
theorem orElseMissing {label : String} {run next : Exec α} (leads : LeadsFreely run)
    (first : DiscernsAt name run world) (second : ∀ after, DiscernsAt name next after) :
    DiscernsAt name (ScriptObjects.orElseMissing label run next) world := by
  intro distinct fault last ends
  have evolves := leads world world.permits_all fun _ _ => trivial
  rcases ended : run world with ⟨outcome, after⟩
  rw [ended] at evolves
  cases outcome with
  | done result =>
      rw [orElseMissing_of_done ended] at ends
      cases ends
  | failed raised =>
      rw [orElseMissing_of_failed ended] at ends
      split at ends
      · exact second after (distinct.later evolves.continues) fault last ends
      · cases ends
        exact first distinct fault last ended
  | exhausted =>
      unfold ScriptObjects.orElseMissing Exec.recover at ends
      rw [ended] at ends
      cases ends

end DiscernsAt

end Exec

/-- A way to perform requests is such that reading another name at a store does not report a distinct
name as missing. -/
structure Perform.Discerns (name : String) (perform : Perform) : Prop where
  leads : perform.Leads
  constructs : ∀ id options args, FaultsIn Fault.Foreign (perform (.construct id options args))
  reads : ∀ store label world, label ≠ name →
    DiscernsAt name (perform (.read (.store store) label)) world

section

variable {perform : Perform} {name : String} (nested : perform.Discerns name)
include nested

/-! ## Hooks -/

theorem hook_discerns (context : ContextId) (id : InstanceId) {key : MetaKey} (args : List Value)
    (other : key.methodName ≠ name) (world : World) :
    DiscernsAt name (hook perform context id key args) world := by
  have foreign : FaultsIn Fault.Foreign (Exec.metaLink? (world.object id).cls key) :=
    fun here fault after ends => by
      have done : Outcome.done ((here.metaTable (world.object id).cls).get? key) = .failed fault :=
        congrArg Prod.fst ends
      cases done
  refine .of_get (.bind (metaLink?_leads _ key) (.of_foreign foreign) fun found after => ?_)
  cases found with
  | none => exact .pure _
  | some link =>
      refine .of_get ?_
      cases sits : after.level? id ((after.levelOf? id link.owner.hash).getD 0) with
      | none =>
          intro _ fault last ends
          rw [bind_of_done _ (openScope?_of_none sits)] at ends
          cases ends
          rfl
      | some level =>
          unfold DiscernsAt
          rw [bind_of_done _ (openScope?_declarations sits rfl)]
          refine DiscernsAt.bind ((nested.leads.tracks _ _).read _ _).leads
            (nested.reads _ _ _ other) fun value _ => .of_foreign ?_
          split
          · refine .bind (.wrapFault _ fun _ => nofun) fun result => .bind ?_ fun _ => .pure _
            unfold castReturn
            split
            · exact .pure _
            · exact .bind (.ask _) fun _ => .throw nofun
          · exact .bind (.ask _) fun _ => .throw nofun

theorem intercept_discerns {key : MetaKey} (other : key.methodName ≠ name) (label : String)
    (value : Value) (annotations : List InstanceId) (world : World) :
    DiscernsAt name (intercept perform key label value annotations) world := by
  induction annotations generalizing value world with
  | nil => exact .pure _
  | cons annotation rest ih =>
      refine .bind (hook_tracks (nested.leads.tracks _ _) _ annotation key _).leads
        (hook_discerns nested _ annotation _ other world) fun result after => ?_
      cases result with
      | none => exact ih value after
      | some result => exact ih result after

/-! ## Slots -/

theorem fromHost_discerns (type : ValueType) (host : HostId) (world : World) :
    DiscernsAt name (fromHost perform type host) world := by
  have coerced : ∀ value, FaultsIn Fault.Foreign (coerceBack type value) := by
    intro value
    refine .bind (coerce?_foreign type value) fun result => ?_
    cases result with
    | some result => exact .pure _
    | none => exact .of_get fun _ => .throw nofun
  have taken : ∀ object : HostObject,
      FaultsIn Fault.Foreign (takeBack perform type host object) := by
    intro object
    unfold takeBack
    cases object.directValue? with
    | some value => exact .bind (.pure _) coerced
    | none => exact .bind (wrapHost_foreign perform nested.constructs host) coerced
  refine .bind (.ask _) (.of_foreign (.ask _)) fun object after => .of_get ?_
  by_cases selective : after.marshaling = .selective
  · rw [if_pos selective]
    cases refused : refusedCount? object with
    | none => exact .of_foreign (taken object)
    | some other =>
        intro distinct fault last ends
        have differs : other ≠ name := by
          rintro rfl
          exact distinct.trusts selective object refused
        cases ends
        exact isMiss_notDeclared differs
  · rw [if_neg selective]
    exact .of_foreign (taken object)

/-- Reading a slot of the name does not report it as missing, nor does reading another name. -/
theorem readSlot_discerns (store : StoreId) (label : String) (world : World)
    (known : label = name → (world.store store).declares label = true) :
    DiscernsAt name (readSlot perform store label) world := by
  have intercepted : ∀ (slot : Slot) (value : Value) (after : World), DiscernsAt name (do
      if slot.annotations.isEmpty then return value
      requireStoreAssembly store
      intercept perform .onRead label value slot.annotations : Exec Value) after := by
    intro slot value after distinct
    split
    · exact nofun
    · exact DiscernsAt.bind (requireStoreAssembly_leads store)
        (.of_foreign (requireStoreAssembly_foreign store))
        (fun _ => intercept_discerns nested distinct.notRead label value _) distinct
  refine .of_get ?_
  cases found : (world.store store).slot? label with
  | none =>
      refine .throw (isMiss_notDeclared fun same => ?_)
      have declared := known same
      simp [Store.declares, found] at declared
  | some slot =>
      obtain ⟨type, content, annotations, immutable⟩ := slot
      cases content with
      | script value =>
          cases value with
          | none =>
              intro _ fault after ends
              cases ends
              rfl
          | some value => exact intercepted _ value world
      | host accessor reference =>
          refine .bind (resolveReference_leads reference)
            (.of_foreign (resolveReference_foreign reference)) fun host _ => ?_
          refine .bind (accessor.read_leads host) (.of_foreign (accessor.read_foreign host))
            fun raw _ => ?_
          refine .bind (requireStoreAssembly_leads store)
            (.of_foreign (requireStoreAssembly_foreign store)) fun _ _ => ?_
          exact .bind (fromHost_tracks (nested.leads.tracks _ _) type raw).leads
            (fromHost_discerns nested type raw _) fun _ => intercepted _ _

theorem assignSlot_discerns (notWrite : MetaKey.onWrite.methodName ≠ name) (store : StoreId)
    (label : String) (value : Value) (world : World)
    (known : label = name → (world.store store).declares label = true) :
    DiscernsAt name (assignSlot perform store label value) world := by
  intro distinct
  cases found : (world.store store).slot? label with
  | none =>
      intro fault after ends
      rw [assignSlot_of_missing perform value found] at ends
      cases ends
      refine isMiss_notDeclared fun same => ?_
      have declared := known same
      simp [Store.declares, found] at declared
  | some slot =>
      cases held : slot.immutable with
      | true =>
          intro fault after ends
          rw [assignSlot_of_immutable perform value found held] at ends
          cases ends
          rfl
      | false =>
          rw [assignSlot_of_mutable perform value found held]
          have hooked : DiscernsAt name (writeHooks perform store label slot value) world := by
            unfold writeHooks
            split
            · exact .pure _
            · exact .bind (requireStoreAssembly_leads store)
                (.of_foreign (requireStoreAssembly_foreign store)) fun _ later =>
                  intercept_discerns nested notWrite label value _ later
          refine DiscernsAt.bind
            (writeHooks_tracks (nested.leads.tracks _ _).looksUp store label slot value).leads hooked
            (fun result after => ?_) distinct
          refine .bind (coerce?_leads _ _) (.of_foreign (coerce?_foreign _ _)) fun stored _ => ?_
          cases stored with
          | none => exact .bind (.ask _) (.of_foreign (.ask _)) fun _ _ => .throw rfl
          | some stored =>
              refine .of_foreign ?_
              cases slot.content with
              | script old => exact .change _
              | host accessor reference =>
                  refine .bind (requireStoreAssembly_foreign store) fun _ => ?_
                  refine .bind (resolveReference_foreign reference) fun host => ?_
                  exact .bind (toHost_foreign _ _) fun raw => accessor.write_foreign host raw

/-! ## Stores -/

/-- Turning what a store stands for into a slot never reports a name as missing. -/
theorem materialize_never_misses (store : StoreId) (label : String) {world after : World}
    {fault : Fault} (ends : materialize perform store label world = (.failed fault, after)) :
    fault.isMiss name = false := by
  cases home : (world.store store).home with
  | free attached =>
      rw [materialize_of_free perform home] at ends
      cases ends
  | level | root =>
      cases alive : world.alive with
      | false =>
          rw [materialize_of_dropped perform (by simp [home]) alive] at ends
          cases ends
          rfl
      | true =>
          cases offered : world.offer? store label with
          | none =>
              rw [materialize_of_none perform alive offered] at ends
              cases ends
          | some offer =>
              obtain ⟨function, receiver⟩ := offer
              have still := (offer?_askedFor world store label store label).trans offered
              rw [materialize_of_some perform alive offered] at ends
              split at ends
              · obtain raised | ⟨_, _, _, later⟩ := bind_failed ends
                · exact (installFunction_ends nested.leads receiver
                    (World.inside_of_offer? still)).1 fault raised name
                · cases later
              · cases ends
                rfl

/-- What a store stands for is a slot once it was turned into one. -/
theorem declares_of_materialized {store : StoreId} {label : String} {world after : World}
    {offer : Function × Option Receiver} {made : Bool}
    (offered : world.offer? store label = some offer)
    (done : materialize perform store label world = (.done made, after)) :
    made = true ∧ (after.store store).declares label = true := by
  obtain ⟨function, receiver⟩ := offer
  obtain ⟨_, rfl⟩ := World.offer?_declared offered
  cases alive : world.alive with
  | false =>
      have bound : ∀ attached, (world.store store).home ≠ .free attached := by
        intro attached home
        rw [offer?_of_free home] at offered
        cases offered
      rw [materialize_of_dropped perform bound alive] at done
      cases done
  | true =>
      have still :=
        (offer?_askedFor world store function.name store function.name).trans offered
      rw [materialize_of_some perform alive offered] at done
      split at done
      · obtain ⟨_, between, installed, ends⟩ := bind_done done
        cases ends
        exact ⟨rfl, (installFunction_ends nested.leads receiver
          (World.inside_of_offer? still)).2 installed⟩
      · cases done

/-- A lookup at a store that answers to the name discerns it, if its attempts at the slot do where
the slot is there. -/
theorem lookup_discerns {α : Type} {store : StoreId} {label : String} {attempt next : Exec α}
    {world : World} (leads : LeadsFreely attempt)
    (first : (label = name → (world.store store).declares label = true) →
      DiscernsAt name attempt world)
    (missing : (world.store store).slot? label = none →
      attempt world = (.failed (.lookup (.notDeclared label)), world))
    (second : ∀ after, (label = name → (after.store store).declares label = true) →
      DiscernsAt name next after)
    (known : label = name → world.Answers name store = true) :
    DiscernsAt name (orElseMissing label attempt do
      if ← materialize perform store label then next
      else throw (.lookup (.notDeclared label)) : Exec α) world := by
  have materializing : LeadsFreely (materialize perform store label) :=
    (materialize_tracks (nested.leads.tracks _ _).looksUp store label).leads
  by_cases same : label = name
  · subst same
    intro distinct fault last ends
    cases declared : (world.store store).declares label with
    | true =>
        have hits := first (fun _ => declared) distinct
        rw [orElseMissing_of_other hits] at ends
        exact hits fault last ends
    | false =>
        have free : (world.store store).slot? label = none := by
          simpa [Store.declares] using declared
        obtain ⟨offer, offered⟩ := Option.isSome_iff_exists.mp
          (by simpa [World.Answers, free] using known rfl)
        rw [orElseMissing_of_missing (missing free)] at ends
        obtain raised | ⟨made, after, done, later⟩ := bind_failed ends
        · exact materialize_never_misses nested store label raised
        · obtain ⟨rfl, there⟩ := declares_of_materialized nested offered done
          have evolves := materializing world world.permits_all fun _ _ => trivial
          rw [done] at evolves
          exact second after (fun _ => there) (distinct.later evolves.continues) fault last later
  · refine .orElseMissing leads (first fun equal => absurd equal same) fun after => ?_
    refine .bind materializing (fun _ _ _ => materialize_never_misses nested store label)
      fun made later => ?_
    cases made with
    | true => exact second later fun equal => absurd equal same
    | false => exact .throw (isMiss_notDeclared same)

/-- A store that answers to a distinct name does not report it as missing. -/
theorem readStore_discerns (store : StoreId) (label : String) (world : World)
    (known : label = name → world.Answers name store = true) :
    DiscernsAt name (readStore perform store label) world :=
  lookup_discerns nested ((readSlot_tracks (nested.leads.tracks _ _).looksUp store label).leads)
    (readSlot_discerns nested store label world) (readSlot_of_missing perform)
    (readSlot_discerns nested store label) known

theorem assignStore_discerns (notWrite : MetaKey.onWrite.methodName ≠ name) (store : StoreId)
    (label : String) (value : Value) (world : World)
    (known : label = name → world.Answers name store = true) :
    DiscernsAt name (assignStore perform store label value) world :=
  lookup_discerns nested ((assignSlot_tracks (nested.leads.tracks _ _).looksUp store label value).leads)
    (assignSlot_discerns nested notWrite store label value world) (assignSlot_of_missing perform value)
    (fun _ _ => .throw rfl) known

end

/-! ## The machine -/

/-- If the requests nested in a step discern a name, then so does the step. -/
theorem Perform.Discerns.step {perform : Perform} {name : String} (nested : perform.Discerns name)
    (leads : Perform.Leads (step perform)) : Perform.Discerns name (step perform) where
  leads := leads
  constructs := constructInstance_foreign perform
  reads store label world differs :=
    readStore_discerns nested store label world fun same => absurd same differs

theorem performUpTo_discerns (name : String) (budget : Nat) :
    Perform.Discerns name (performUpTo budget) := by
  induction budget with
  | zero => exact ⟨performUpTo_leads 0, fun _ _ _ => .exhaust, fun _ _ _ _ => .of_foreign .exhaust⟩
  | succ budget ih => exact ih.step (performUpTo_leads (budget + 1))

/-- Ending without an answer reports nothing. -/
theorem Perform.Discerns.barring {perform : Perform} {name : String}
    (discerns : perform.Discerns name) (bars : Inquiry → Prop) [DecidablePred bars]
    (leads : (perform.barring bars).Leads) : (perform.barring bars).Discerns name := by
  have silent : ∀ request world fault after,
      perform.barring bars request world = (.failed fault, after) →
        perform request world = (.failed fault, after) := by
    intro request world fault after ends
    by_cases barred : bars ⟨request, world⟩
    · rw [Perform.barring_of_barred bars barred] at ends
      cases ends
    · rwa [Perform.barring_of_clear bars barred] at ends
  exact ⟨leads,
    fun id options args world fault after ends =>
      discerns.constructs id options args world fault after (silent _ world fault after ends),
    fun store label world differs distinct fault after ends =>
      discerns.reads store label world differs distinct fault after (silent _ world fault after ends)⟩

theorem barredUpTo_discerns (name : String) (bars : Inquiry → Prop) [DecidablePred bars]
    (budget : Nat) : ((barredUpTo bars budget).barring bars).Discerns name := by
  have leads : ∀ budget, ((barredUpTo bars budget).barring bars).Leads := fun budget =>
    ((barredUpTo_sparing bars budget).barring bars).leads
  induction budget with
  | zero => exact (performUpTo_discerns name 0).barring bars (leads 0)
  | succ budget ih =>
      exact (ih.step (barredUpTo_sparing bars (budget + 1)).leads).barring bars (leads (budget + 1))

end ScriptObjects

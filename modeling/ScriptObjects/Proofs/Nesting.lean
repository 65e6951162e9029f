import ScriptObjects.Proofs.Frugality
import ScriptObjects.Proofs.Metering

/-!
# How far requests nest in frugal registries

A run that is given a context pushes its frames there, and one that is given none makes a new
context and pushes them on that.  In a frugal registry nothing else pushes any: a call holds a
frame around all that it asks for, a construction asks for calls, reads and writes and for no
further construction, and a read or a write asks for nothing.  So at most three requests in a row
go without a frame, and at most one context comes to hold frames that did not hold some before.

A metered machine with that allowance therefore sounds no alarm, by induction on the budget, and
every operation keeps to the allowance (`Operation.nestsWithin_of_frugal`).
-/

namespace ScriptObjects

set_option autoImplicit false

open Exec World

/-! ## Runs on one context -/

namespace World

/-- How many contexts hold frames under the ceiling besides a certain one. -/
def busyBeside (world : World) (on : Option ContextId) : Nat :=
  world.contexts.handles.countP fun id => on ≠ some id ∧ 0 < world.ceiledDepth id

theorem busyBeside_le (world : World) (on : Option ContextId) :
    world.busyBeside on ≤ world.busyContexts :=
  List.countP_mono_left fun _ _ busy => decide_eq_true (of_decide_eq_true busy).2

theorem busyContexts_le (world : World) (on : Option ContextId) :
    world.busyContexts ≤ world.busyBeside on + 1 := by
  have once : world.contexts.handles.countP (fun id => on = some id) ≤ 1 := by
    cases on with
    | none => simp
    | some context =>
        have once := List.nodup_iff_count_le_one.mp (handles_nodup world.contexts) context
        rw [List.count_eq_countP] at once
        refine Nat.le_trans (Nat.le_of_eq (List.countP_congr fun id _ => ?_)) once
        simp only [decide_eq_true_eq, Option.some.injEq, beq_iff_eq]
        exact eq_comm
  have apart : ∀ ids : List ContextId, ids.countP (fun id => 0 < world.ceiledDepth id) ≤
      ids.countP (fun id => on ≠ some id ∧ 0 < world.ceiledDepth id) +
        ids.countP fun id => on = some id := by
    intro ids
    induction ids with
    | nil => exact Nat.zero_le _
    | cons id rest ih =>
        simp only [List.countP_cons, decide_eq_true_eq]
        split <;> split <;> split <;> first | omega | tauto
  exact Nat.le_trans (apart _) (Nat.add_le_add_left once _)

/-- The frames of a context are counted by the ceiling. -/
def Limits (world : World) (ceiling : Nat) (context : ContextId) : Prop :=
  context.index < world.contexts.size ∧
    (world.context context).limit.any (· ≤ ceiling) = true

/-- The registry creates nothing without a frame, and frames are pushed on a certain context under
the ceiling.  There are so many frames at least, and so many other contexts hold some at most. -/
structure RunsOn (ceiling : Nat) (on : Option ContextId) (depth busy : Nat) (world : World) :
    Prop where
  frugal : world.Frugal
  configured : world.config.maxCallDepth = some ceiling
  limits : ∀ context ∈ on, world.Limits ceiling context
  deep : depth ≤ world.callDepth
  beside : world.busyBeside on ≤ busy

theorem KeepsContexts.busyBeside {before after : World} (keeps : before.KeepsContexts after)
    (config : after.config = before.config) (on : Option ContextId) :
    after.busyBeside on = before.busyBeside on := by
  obtain ⟨more, handles, old, new⟩ := keeps.handles config
  have idle : more.countP (fun id => on ≠ some id ∧ 0 < after.ceiledDepth id) = 0 :=
    List.countP_eq_zero.mpr fun id member => by simp [new id member]
  unfold World.busyBeside
  rw [handles, List.countP_append, idle, Nat.add_zero]
  exact List.countP_congr fun id member => by rw [old id member]

theorem RunsOn.later {may : String → Prop} {opened : InstanceId → Prop} {ceiling depth busy : Nat}
    {on : Option ContextId} {before after : World} (runs : before.RunsOn ceiling on depth busy)
    (evolves : Evolves may opened before after) : after.RunsOn ceiling on depth busy := by
  have config := evolves.continues.config
  have keeps := evolves.keepsContexts
  refine ⟨runs.frugal.later evolves, config ▸ runs.configured, fun context same => ?_,
    Nat.le_trans runs.deep (keeps.callDepth config), ?_⟩
  · obtain ⟨inside, limited⟩ := runs.limits context same
    refine ⟨Nat.lt_of_lt_of_le inside keeps.grown, ?_⟩
    rw [keeps.old context inside]
    exact limited
  · rw [keeps.busyBeside config on]
    exact runs.beside

/-- A frame on the context is one more frame under the ceiling. -/
theorem RunsOn.push {ceiling depth busy : Nat} {context : ContextId} {world : World}
    (runs : world.RunsOn ceiling (some context) depth busy) {frame : Frame} {deeper : Context}
    (pushed : (world.context context).push? frame = .ok deeper) :
    (world.withContext context fun _ => deeper).RunsOn ceiling (some context) (depth + 1) busy := by
  have limits := runs.limits context rfl
  have more : world.ceiledDepth context <
      (world.withContext context fun _ => deeper).ceiledDepth context := by
    unfold ceiledDepth
    rw [context_withContext, if_pos ⟨rfl, limits.1⟩]
    exact Config.ceiledDepth_push_lt runs.configured limits.2 pushed
  have handles := handles_withContext world context fun _ => deeper
  refine ⟨runs.frugal.withContext context _, runs.configured, ?_, ?_, ?_⟩
  · rintro _ ⟨⟩
    refine ⟨by rw [size_contexts_withContext]; exact limits.1, ?_⟩
    rw [context_withContext, if_pos ⟨rfl, limits.1⟩, Context.limit_push? pushed]
    exact limits.2
  · refine Nat.lt_of_le_of_lt runs.deep ?_
    unfold callDepth
    rw [handles]
    exact List.sum_lt_sum _ _ (fun id _ => ceiledDepth_push pushed id)
      ⟨context, (Heap.mem_handles _ context).mpr limits.1, more⟩
  · refine Nat.le_trans (Nat.le_of_eq ?_) runs.beside
    unfold busyBeside
    rw [handles]
    refine List.countP_congr fun id _ => ?_
    by_cases same : id = context
    · simp [same]
    · unfold ceiledDepth
      rw [context_withContext, if_neg fun both => same both.1]
      rfl

theorem RunsOn.weaken {ceiling depth more busy : Nat} {on : Option ContextId} {world : World}
    (runs : world.RunsOn ceiling on more busy) (fewer : depth ≤ more) :
    world.RunsOn ceiling on depth busy :=
  ⟨runs.frugal, runs.configured, runs.limits, Nat.le_trans fewer runs.deep, runs.beside⟩

/-- A run whose context is new goes on on that context. -/
theorem RunsOn.fresh {ceiling depth busy : Nat} {world : World}
    (runs : world.RunsOn ceiling none depth busy) :
    RunsOn ceiling (some world.contexts.next) depth busy
      { world with contexts := world.contexts.push (.fresh world.config.maxCallDepth) } := by
  have evolves : Evolves (fun _ => True) (fun _ => True) world
      { world with contexts := world.contexts.push (.fresh world.config.maxCallDepth) } :=
    .single (.context _)
  have later := runs.later evolves
  refine ⟨later.frugal, later.configured, ?_, later.deep, ?_⟩
  · rintro _ ⟨⟩
    refine ⟨?_, ?_⟩
    · show world.contexts.size < _
      rw [Heap.size_push]
      exact Nat.lt_succ_self _
    · unfold World.context
      rw [Heap.get_push_next]
      simp [Context.fresh, runs.configured]
  · refine Nat.le_trans (List.countP_mono_left fun id _ busy => ?_) later.beside
    simp only [decide_eq_true_eq] at busy ⊢
    exact ⟨nofun, busy.2⟩

end World

/-- The regime of the states in which a run goes on on one context. -/
def Regime.onContext (ceiling : Nat) (on : Option ContextId) (depth busy : Nat) :
    Regime (fun _ => True) (fun _ => True) where
  holds world := world.RunsOn ceiling on depth busy
  fresh _ _ := True
  lax := False
  evolves runs evolves := runs.later evolves
  allocate _ _ := trivial
  bindLevel _ _ _ := trivial
  adopt _ _ := trivial

/-! ## Requests of a run on one context -/

/-- Two ways to perform requests agree on those that stay on a context. -/
def Perform.AgreesOn (ceiling : Nat) (on : Option ContextId) (depth busy : Nat) (creating : Bool)
    (perform other : Perform) : Prop :=
  ∀ request world, world.RunsOn ceiling on depth busy → request.staysOn on creating = true →
    other request world = perform request world

theorem Perform.AgreesOn.keptOn {ceiling depth busy : Nat} {on : Option ContextId} {creating : Bool}
    {perform other : Perform} (agrees : perform.AgreesOn ceiling on depth busy creating other)
    (leads : perform.Leads) :
    Perform.Tracks (Regime.onContext ceiling on depth busy) (perform.keptOn on creating)
      (other.keptOn on creating) where
  leads := leads.keptOn on creating
  agrees request world _ _ _ runs := by
    left
    by_cases stays : request.staysOn on creating = true
    · rw [keptOn_of_stays stays, keptOn_of_stays stays]
      exact agrees request world runs stays
    · have strays := Bool.eq_false_of_not_eq_true stays
      exact (barring_of_barred _ strays).trans (barring_of_barred _ strays).symm

/-! ## What requests nest -/

/-- How many requests are nested in one before another frame is pushed. -/
def Request.nests : Request → Nat
  | .construct .. => 1
  | .call .. | .read .. | .assign .. => 0

theorem Request.nests_le (request : Request) : request.nests ≤ 1 := by
  cases request with
  | construct => exact Nat.le_refl _
  | call | read | assign => exact Nat.zero_le _

section

variable {ceiling depth busy : Nat} {perform other : Perform} (leads : perform.Leads)
include leads

theorem readScope_frugal {on : Option ContextId} {world : World}
    (runs : world.RunsOn ceiling on depth busy) (name : String) (scope : Scope) :
    readScope other name scope world = readScope perform name scope world := by
  have alike : perform.LooksUpAlike (Regime.onContext ceiling on depth busy) other :=
    leads.looksUpFrugally (fun _ runs => World.RunsOn.frugal runs) other
  exact (readScope_tracks alike name scope).eq id runs

theorem assignScope_frugal {on : Option ContextId} {world : World}
    (runs : world.RunsOn ceiling on depth busy) (name : String) (value : Value) (scope : Scope) :
    assignScope other name value scope world = assignScope perform name value scope world := by
  have alike : perform.LooksUpAlike (Regime.onContext ceiling on depth busy) other :=
    leads.looksUpFrugally (fun _ runs => World.RunsOn.frugal runs) other
  exact (assignScope_tracks alike name value scope).eq id runs

theorem callFunction_frugal {context : ContextId} {world : World}
    (agrees : perform.AgreesOn ceiling (some context) (depth + 1) busy true other)
    (runs : world.RunsOn ceiling (some context) depth busy) (id : CallableId) (args : List Value) :
    callFunction other id args context world = callFunction perform id args context world := by
  have enter : ∀ {world : World} {frame : Frame} {deeper : Context},
      (Regime.onContext ceiling (some context) depth busy).holds world →
      (world.context context).push? frame = .ok deeper →
      (Regime.onContext ceiling (some context) (depth + 1) busy).holds
        (world.withContext context fun _ => deeper) :=
    fun runs pushed => World.RunsOn.push runs pushed
  have tracks := callFunction_tracks (agrees.keptOn leads) (fun lax => False.elim lax) id args
    context enter
  have same := tracks.eq (fun lax => lax) runs
  rw [callFunction_keptOn runs.frugal, callFunction_keptOn runs.frugal] at same
  exact same

/-- What a construction does on a context once it is chosen. -/
theorem construct_frugal {context : ContextId} {world : World} (otherLeads : other.Leads)
    (agrees : perform.AgreesOn ceiling (some context) depth busy false other)
    (runs : world.RunsOn ceiling (some context) depth busy) (id : InstanceId)
    (options : CreateOptions) (args : List Value) (className : String) (place : Nat) :
    (constructLevels other id options context place >>= fun _ =>
        finishInstance other id options args className context) world =
      (constructLevels perform id options context place >>= fun _ =>
        finishInstance perform id options args className context) world := by
  have kept : ∀ machine : Perform, machine.Leads →
      (constructLevels machine id options context place >>= fun _ =>
          finishInstance machine id options args className context) world =
        (constructLevels (machine.keptOn (some context) false) id options context place >>= fun _ =>
          finishInstance (machine.keptOn (some context) false) id options args className context)
            world := by
    intro machine leads
    rw [bind_apply, bind_apply, constructLevels_keptOn (leads.keptOn _ _) runs.frugal]
    simp only [finishInstance_keptOn]
  have pushes : (Regime.onContext ceiling (some context) depth busy).PushesOn context :=
    fun runs pushed => (World.RunsOn.push runs pushed).weaken (Nat.le_succ depth)
  have nested := agrees.keptOn leads
  rw [kept other otherLeads, kept perform leads]
  refine Tracks.eq (.bind (constructLevels_tracks nested trivial options context place) fun _ => ?_)
    (fun lax => lax) runs
  exact finishInstance_tracks nested pushes id options args className

theorem constructInstance_frugal {on : Option ContextId} {world : World} (otherLeads : other.Leads)
    (agrees : ∀ context, perform.AgreesOn ceiling (some context) depth busy false other)
    (runs : world.RunsOn ceiling on depth busy) (id : InstanceId) {options : CreateOptions}
    (same : options.context = on) (args : List Value) :
    constructInstance other id options args world =
      constructInstance perform id options args world := by
  cases initialized : (world.object id).initialized with
  | true =>
      rw [constructInstance_of_initialized initialized,
        constructInstance_of_initialized initialized]
  | false =>
      rw [constructInstance_of_new initialized, constructInstance_of_new initialized]
      subst same
      unfold constructionContext
      cases chosen : options.context with
      | some context =>
          rw [chosen] at runs
          exact construct_frugal leads otherLeads (agrees context) runs id options args _ _
      | none =>
          rw [chosen] at runs
          exact construct_frugal leads otherLeads (agrees _) runs.fresh id options args _ _

end

/-- In states whose registry creates nothing without a frame, the metered machine sounds no alarm,
whichever request it is asked for that stays on its context. -/
theorem meteredUpTo_frugal {alarm : (α : Type) → Exec α}
    (alarms : ∀ α, ∀ {may opened}, Leads may opened (alarm α)) {ceiling busy : Nat} (budget : Nat)
    {on : Option ContextId} {depth bare : Nat} {request : Request} {world : World}
    (runs : world.RunsOn ceiling on depth busy) (stays : request.staysOn on true = true)
    (within : world.bareAfter depth bare + request.nests ≤ 2) :
    meteredUpTo alarm (fun _ => exhaust) ⟨2, busy + 1⟩ budget depth bare request world =
      performUpTo budget request world := by
  induction budget generalizing on depth bare request world with
  | zero => rfl
  | succ budget ih =>
      have allowed : world.bareAfter depth bare ≤ 2 ∧ world.busyContexts ≤ busy + 1 :=
        ⟨Nat.le_trans (Nat.le_add_right _ _) within,
          Nat.le_trans (world.busyContexts_le on) (Nat.succ_le_succ runs.beside)⟩
      have leads := performUpTo_leads budget
      have here : world.RunsOn ceiling on world.callDepth busy :=
        ⟨runs.frugal, runs.configured, runs.limits, Nat.le_refl _, runs.beside⟩
      unfold meteredUpTo
      rw [if_pos allowed]
      cases request with
      | read scope name => exact readScope_frugal leads here name scope
      | assign scope name value => exact assignScope_frugal leads here name value scope
      | call callable args context =>
          obtain rfl : on = some context := of_decide_eq_true stays
          -- Whatever the body asks for is asked for below another frame.
          refine callFunction_frugal leads (fun request later runs stays => ?_) here callable args
          refine ih (runs.weaken (Nat.le_succ _)) stays ?_
          rw [World.bareAfter_of_deeper runs.deep, Nat.zero_add]
          exact Nat.le_succ_of_le request.nests_le
      | construct id options args =>
          have single : world.bareAfter depth bare ≤ 1 := Nat.le_of_succ_le_succ within
          have same : options.context = on := of_decide_eq_true stays
          -- One more request is nested without a frame, but it is no construction.
          have nested : ∀ on, Perform.AgreesOn ceiling on world.callDepth busy false
              (performUpTo budget) (meteredUpTo alarm (fun _ => exhaust) ⟨2, busy + 1⟩ budget
                world.callDepth (world.bareAfter depth bare)) := by
            intro on request later runs stays
            have bounded := later.bareAfter_le world.callDepth (world.bareAfter depth bare)
            cases request with
            | construct => cases stays
            | call | read | assign => exact ih runs stays (by simp only [Request.nests]; omega)
          exact constructInstance_frugal leads (meteredUpTo_leads alarms (fun _ => .exhaust) _ _ _)
            (fun context => nested (some context)) here id same args

namespace Operation

variable {operation : Operation} {world : World} {ceiling : Nat}

/-- The context that an operation is given to push frames on. -/
def context? : Operation → Option ContextId
  | .ofRequest (.call _ _ context) | .dispatch context _ _ | .callHook context _ _ _ => some context
  | .ofRequest (.construct _ options _) | .create _ options _ => options.context
  | .ofRequest (.read ..) | .ofRequest (.assign ..) | .wrap _ | .unmarshal .. | .eval _ => none

/-- An operation asks only for what stays on its context. -/
theorem run_keptOn (frugal : world.Frugal) (perform : Perform) :
    operation.run (perform.keptOn operation.context? true) world = operation.run perform world := by
  cases operation with
  | ofRequest request =>
      have stays : request.staysOn (context? (.ofRequest request)) true = true := by
        cases request with
        | call | construct => exact decide_eq_true rfl
        | read | assign => rfl
      exact congrFun (Perform.keptOn_of_stays stays) world
  | create className options args =>
      refine bind_frugal frugal requireAssembly_leads fun _ _ _ => ?_
      exact congrFun (createInstance_keptOn className options.flags args) _
  | wrap host =>
      exact bind_frugal frugal requireAssembly_leads fun _ _ frugal =>
        wrapHost_frugal perform _ frugal host
  | unmarshal host type =>
      exact bind_frugal frugal requireAssembly_leads fun _ _ frugal =>
        fromHost_frugal perform _ frugal type host
  | dispatch context operator operands =>
      refine bind_frugal frugal requireAssembly_leads fun _ _ _ => ?_
      exact congrFun (operate_keptOn operator operands) _
  | callHook context id key args =>
      refine bind_frugal frugal requireAssembly_leads fun _ _ _ => ?_
      exact congrFun (hook_keptOn id key args) _
  | eval expr =>
      exact congrFun (evaluate_keptOn (fun _ inside => by cases inside) expr fun _ => rfl) world

/-- An operation on its context meets no alarm, either. -/
theorem run_frugal {alarm : (α : Type) → Exec α}
    (alarms : ∀ α, ∀ {may opened}, Leads may opened (alarm α)) {busy : Nat}
    (runs : world.RunsOn ceiling operation.context? world.callDepth busy) (budget : Nat) :
    operation.run (meteredUpTo alarm (fun _ => exhaust) ⟨2, busy + 1⟩ budget world.callDepth 0)
        world =
      operation.run (performUpTo budget) world := by
  have agrees : Perform.AgreesOn ceiling operation.context? world.callDepth busy true
      (performUpTo budget)
      (meteredUpTo alarm (fun _ => exhaust) ⟨2, busy + 1⟩ budget world.callDepth 0) := by
    intro request later runs stays
    exact meteredUpTo_frugal alarms budget runs stays
      (Nat.add_le_add (later.bareAfter_le _ 0) request.nests_le)
  have same := (operation.run_tracks (agrees.keptOn (performUpTo_leads budget))
    (fun _ _ => trivial)).eq id runs
  rw [run_keptOn runs.frugal, run_keptOn runs.frugal] at same
  exact same

/-- An operation keeps to an allowance if the registry is frugal and the ceiling counts the frames
on the context that the operation is given: no more than three requests in a row go without a frame,
and one context at most comes to hold frames. -/
theorem nestsWithin_of_frugal (frugal : world.Frugal)
    (configured : world.config.maxCallDepth = some ceiling)
    (limits : ∀ context ∈ operation.context?, world.Limits ceiling context) :
    operation.NestsWithin ⟨2, world.busyContexts + 1⟩
      (Allowance.bound ⟨2, world.busyContexts + 1⟩ ceiling) world := by
  have runs : world.RunsOn ceiling operation.context? world.callDepth world.busyContexts :=
    ⟨frugal, configured, limits, Nat.le_refl _, world.busyBeside_le _⟩
  have ends := ends_of_silent configured (run_frugal (fun _ _ _ => .throw _) runs _)
  refine nestsWithin_of_ends ?_
  rw [run_frugal (fun _ _ _ => .exhaust) runs]
  exact ends

end Operation

end ScriptObjects

import Mathlib
import ScriptObjects.Proofs.Likeness

/-!
# Metered runs

A ceiling on the frames of a context bounds a run only as far as its requests push frames.
So the machine is compared with a metered one, which counts the requests in a row since the
last frame under the ceiling, and the contexts that hold such frames, and sounds an alarm
where they leave an allowance.

Within the allowance every nested request has fewer frames left below the ceiling, or fewer
requests in a row: a budget that covers what is left is never used up.  An operation keeps
to an allowance if it does the same over the metered machine whatever the alarm would do,
and then it ends.
-/

namespace ScriptObjects

set_option autoImplicit false

open Exec

/-! ## Frames under the ceiling -/

/-- How many frames a context holds as far as the ceiling of the settings goes, if its limit is not
above the ceiling. -/
def Config.ceiledDepth (config : Config) (context : Context) : Nat :=
  match config.maxCallDepth with
  | some ceiling =>
      if context.limit.any (· ≤ ceiling) then min context.depth ceiling else 0
  | none => 0

theorem Config.ceiledDepth_le {config : Config} {ceiling : Nat}
    (configured : config.maxCallDepth = some ceiling) (context : Context) :
    config.ceiledDepth context ≤ ceiling := by
  unfold ceiledDepth
  rw [configured]
  dsimp only
  split
  · exact Nat.min_le_right _ _
  · exact Nat.zero_le _

theorem Context.limit_push? {context deeper : Context} {frame : Frame}
    (pushed : context.push? frame = .ok deeper) : deeper.limit = context.limit := by
  unfold Context.push? at pushed
  split at pushed
  · split at pushed <;> cases pushed
    rfl
  · cases pushed
    rfl

theorem Config.ceiledDepth_push (config : Config) {context deeper : Context} {frame : Frame}
    (pushed : context.push? frame = .ok deeper) :
    config.ceiledDepth context ≤ config.ceiledDepth deeper := by
  have frames := (Context.fits_of_push? pushed).1
  unfold ceiledDepth Context.depth
  rw [Context.limit_push? pushed, frames, List.length_cons]
  split
  · split <;> omega
  · exact Nat.le_refl _

/-- A frame counts if the limit of its context is not above the ceiling. -/
theorem Config.ceiledDepth_push_lt {config : Config} {ceiling : Nat}
    (configured : config.maxCallDepth = some ceiling) {context deeper : Context} {frame : Frame}
    (limited : context.limit.any (· ≤ ceiling) = true)
    (pushed : context.push? frame = .ok deeper) :
    config.ceiledDepth context < config.ceiledDepth deeper := by
  obtain ⟨frames, fits⟩ := Context.fits_of_push? pushed
  have kept := Context.limit_push? pushed
  have more : deeper.depth = context.depth + 1 := congrArg List.length frames
  have low : deeper.depth ≤ ceiling := by
    cases bound : context.limit with
    | none => rw [bound] at limited; cases limited
    | some limit =>
        simp only [Context.fits, kept, bound, Option.all_some, decide_eq_true_eq] at fits
        simp only [bound, Option.any_some, decide_eq_true_eq] at limited
        exact Nat.le_trans fits limited
  unfold ceiledDepth
  rw [configured]
  dsimp only
  rw [kept, if_pos limited, if_pos limited]
  omega

namespace World

/-- How many frames a context holds under the ceiling. -/
def ceiledDepth (world : World) (id : ContextId) : Nat :=
  world.config.ceiledDepth (world.context id)

/-- How many frames there are under the ceiling. -/
def callDepth (world : World) : Nat := (world.contexts.handles.map world.ceiledDepth).sum

/-- How many contexts hold frames under the ceiling. -/
def busyContexts (world : World) : Nat :=
  world.contexts.handles.countP fun id => 0 < world.ceiledDepth id

/-- Every busy context holds at most as many frames as the ceiling allows. -/
theorem callDepth_le {world : World} {ceiling : Nat}
    (configured : world.config.maxCallDepth = some ceiling) :
    world.callDepth ≤ ceiling * world.busyContexts := by
  unfold callDepth busyContexts
  induction world.contexts.handles with
  | nil => exact Nat.zero_le _
  | cons id rest ih =>
      have here : world.ceiledDepth id ≤ ceiling := Config.ceiledDepth_le configured _
      rw [List.map_cons, List.sum_cons, List.countP_cons]
      by_cases busy : 0 < world.ceiledDepth id
      · rw [if_pos (by simpa using busy), Nat.mul_succ]
        omega
      · rw [if_neg (by simpa using busy), Nat.eq_zero_of_not_pos busy, Nat.zero_add]
        exact ih

/-- The contexts of a later state are those of the earlier one and some without frames. -/
theorem KeepsContexts.handles {before after : World} (keeps : before.KeepsContexts after)
    (config : after.config = before.config) :
    ∃ more, after.contexts.handles = before.contexts.handles ++ more ∧
      (∀ id ∈ before.contexts.handles, after.ceiledDepth id = before.ceiledDepth id) ∧
      ∀ id ∈ more, after.ceiledDepth id = 0 := by
  obtain ⟨more, size⟩ := Nat.exists_eq_add_of_le keeps.grown
  refine ⟨(List.range more).map fun place => ⟨before.contexts.size + place⟩, ?_, ?_, ?_⟩
  · show (List.range after.contexts.size).map Handle.mk = _
    rw [size, List.range_add, List.map_append, List.map_map]
    rfl
  · intro id member
    unfold ceiledDepth
    rw [config, keeps.old id ((Heap.mem_handles _ id).mp member)]
  · intro id member
    obtain ⟨place, _, rfl⟩ := List.mem_map.mp member
    unfold ceiledDepth Config.ceiledDepth Context.depth
    rw [keeps.new _ (Nat.le_add_right _ _)]
    split
    · split
      · exact Nat.zero_min _
      · rfl
    · rfl

/-- A run leaves the frames where they were. -/
theorem KeepsContexts.callDepth {before after : World} (keeps : before.KeepsContexts after)
    (config : after.config = before.config) : before.callDepth ≤ after.callDepth := by
  obtain ⟨more, handles, old, _⟩ := keeps.handles config
  unfold World.callDepth
  rw [handles, List.map_append, List.sum_append, List.map_congr_left old]
  exact Nat.le_add_right _ _

theorem handles_withContext (world : World) (context : ContextId) (change : Context → Context) :
    (world.withContext context change).contexts.handles = world.contexts.handles := by
  show (List.range (world.withContext context change).contexts.size).map Handle.mk = _
  rw [size_contexts_withContext]
  rfl

theorem ceiledDepth_push {world : World} {context : ContextId} {frame : Frame} {deeper : Context}
    (pushed : (world.context context).push? frame = .ok deeper) (id : ContextId) :
    world.ceiledDepth id ≤ (world.withContext context fun _ => deeper).ceiledDepth id := by
  unfold ceiledDepth
  rw [context_withContext]
  split
  · next both =>
      rw [both.1]
      exact Config.ceiledDepth_push _ pushed
  · exact Nat.le_refl _

/-- Pushing a frame takes none away. -/
theorem callDepth_push {world : World} {context : ContextId} {frame : Frame} {deeper : Context}
    (pushed : (world.context context).push? frame = .ok deeper) :
    world.callDepth ≤ (world.withContext context fun _ => deeper).callDepth := by
  unfold callDepth
  rw [handles_withContext]
  exact List.sum_le_sum fun id _ => ceiledDepth_push pushed id

end World

/-! ## Nesting without frames -/

/-- How far requests may nest without the ceiling taking notice: how many in a row before a frame
under it is pushed, and how many contexts may hold such frames. -/
structure Allowance where
  bare : Nat
  busy : Nat
  deriving DecidableEq, Repr

namespace Allowance

/-- How deeply requests can nest within an allowance, under a ceiling. -/
def bound (allowance : Allowance) (ceiling : Nat) : Nat :=
  (ceiling * allowance.busy + 1) * (allowance.bare + 1)

/-- How deeply further requests can nest in one that is made with so many frames, and so many
requests after the last of them. -/
def left (allowance : Allowance) (ceiling depth bare : Nat) : Nat :=
  (ceiling * allowance.busy - depth) * (allowance.bare + 1) + (allowance.bare - bare)

theorem left_lt_bound (allowance : Allowance) (ceiling depth : Nat) :
    allowance.left ceiling depth 0 < allowance.bound ceiling := by
  have fewer : (ceiling * allowance.busy - depth) * (allowance.bare + 1) ≤
      ceiling * allowance.busy * (allowance.bare + 1) :=
    Nat.mul_le_mul_right _ (Nat.sub_le _ _)
  unfold left bound
  rw [Nat.succ_mul]
  omega

end Allowance

/-- How many requests are nested in a row, with the one that is made in this state, if there were
so many at the one around it, which was made with so many frames. -/
def World.bareAfter (world : World) (depth bare : Nat) : Nat :=
  if depth < world.callDepth then 0 else bare + 1

theorem World.bareAfter_of_deeper {world : World} {depth bare : Nat}
    (deeper : depth < world.callDepth) : world.bareAfter depth bare = 0 :=
  if_pos deeper

theorem World.bareAfter_le (world : World) (depth bare : Nat) :
    world.bareAfter depth bare ≤ bare + 1 := by
  unfold bareAfter
  split
  · exact Nat.zero_le _
  · exact Nat.le_refl _

/-- A nested request either has another frame below it or is one more without: it leaves less. -/
theorem Allowance.left_decreases {allowance : Allowance} {ceiling depth bare : Nat} {world : World}
    (deep : depth ≤ world.callDepth) (shallow : world.callDepth ≤ ceiling * allowance.busy)
    (within : world.bareAfter depth bare ≤ allowance.bare) :
    allowance.left ceiling world.callDepth (world.bareAfter depth bare) <
      allowance.left ceiling depth bare := by
  unfold World.bareAfter at within ⊢
  unfold left
  split at within
  · next deeper =>
      have fewer : (ceiling * allowance.busy - world.callDepth + 1) * (allowance.bare + 1) ≤
          (ceiling * allowance.busy - depth) * (allowance.bare + 1) :=
        Nat.mul_le_mul_right _ (by omega)
      rw [Nat.succ_mul] at fewer
      rw [if_pos deeper]
      omega
  · next level =>
      have same : world.callDepth = depth := Nat.le_antisymm (Nat.le_of_not_lt level) deep
      rw [if_neg level, same]
      omega

/-- Performs requests as the machine does, with an alarm where they leave an allowance. -/
def meteredUpTo (alarm spent : (α : Type) → Exec α) (allowance : Allowance) :
    Nat → Nat → Nat → Perform
  | 0, _, _, request => spent request.Answer
  | budget + 1, depth, bare, request => fun world =>
      if world.bareAfter depth bare ≤ allowance.bare ∧ world.busyContexts ≤ allowance.busy then
        step (meteredUpTo alarm spent allowance budget world.callDepth (world.bareAfter depth bare))
          request world
      else alarm request.Answer world

/-- An operation nests its requests within an allowance: the alarm does not sound, whatever it
would do. -/
def Operation.NestsWithin (allowance : Allowance) (budget : Nat) (operation : Operation)
    (world : World) : Prop :=
  ∀ alarm, operation.run (meteredUpTo alarm (fun _ => Exec.exhaust) allowance budget
    world.callDepth 0) world = operation.run (performUpTo budget) world

/-! ## The alarm and the end of the budget -/

/-- The regime of the states under a ceiling that hold at least some number of frames. -/
def Regime.ceiled (ceiling depth : Nat) : Regime (fun _ => True) (fun _ => True) where
  holds world := world.config.maxCallDepth = some ceiling ∧ depth ≤ world.callDepth
  fresh _ _ := True
  lax := False
  evolves := by
    rintro before after ⟨configured, deep⟩ evolves
    have config := evolves.continues.config
    exact ⟨config ▸ configured, Nat.le_trans deep (evolves.keepsContexts.callDepth config)⟩
  allocate _ _ := trivial
  bindLevel _ _ _ := trivial
  adopt _ _ := trivial

theorem Regime.ceiled_pushes (ceiling depth : Nat) : (Regime.ceiled ceiling depth).Pushes := by
  rintro world context frame deeper ⟨configured, deep⟩ pushed
  exact ⟨configured, Nat.le_trans deep (World.callDepth_push pushed)⟩

/-- The regime of all states, in which a run that used up its budget is excused. -/
def Regime.lenient : Regime (fun _ => True) (fun _ => True) where
  holds _ := True
  fresh _ _ := True
  lax := True
  evolves _ _ := trivial
  allocate _ _ := trivial
  bindLevel _ _ _ := trivial
  adopt _ _ := trivial

theorem Regime.lenient_pushes : Regime.lenient.Pushes := fun _ _ => trivial

/-- Under a regime that excuses no run, runs that agree are the same where it holds. -/
theorem Exec.Tracks.eq {α : Type} {regime : Regime (fun _ => True) (fun _ => True)}
    {run other : Exec α} {world : World} (tracks : Tracks regime run other)
    (strict : ¬ regime.lax) (holds : regime.holds world) : other world = run world :=
  ((tracks world world.permits_all fun _ _ => trivial).2 holds).resolve_right
    fun excused => strict excused.1

section

variable {alarm spent : (α : Type) → Exec α} {allowance : Allowance}

theorem meteredUpTo_leads (alarms : ∀ α, ∀ {may opened}, Leads may opened (alarm α))
    (spends : ∀ α, ∀ {may opened}, Leads may opened (spent α)) (budget depth bare : Nat) :
    Perform.Leads (meteredUpTo alarm spent allowance budget depth bare) := by
  induction budget generalizing depth bare with
  | zero => exact fun _ _ _ _ => spends _
  | succ budget ih =>
      intro may opened request isOpen world permits opens
      unfold meteredUpTo
      split
      · exact step_leads (ih _ _) may opened request isOpen world permits opens
      · exact alarms _ world permits opens

theorem meteredUpTo_ends (alarms : ∀ α, Ends (alarm α)) (spends : ∀ α, Ends (spent α))
    (budget depth bare : Nat) (request : Request) :
    Ends (meteredUpTo alarm spent allowance budget depth bare request) := by
  induction budget generalizing depth bare request with
  | zero => exact spends _
  | succ budget ih =>
      intro world
      unfold meteredUpTo
      split
      · exact step_ends (ih _ _) request world
      · exact alarms _ world

/-- As far as the budget covers what the allowance leaves, it is not used up: whatever would be done
then makes no difference. -/
theorem meteredUpTo_tracks {ceiling : Nat} {other : (α : Type) → Exec α}
    (alarms : ∀ α, ∀ {may opened}, Leads may opened (alarm α))
    (spends : ∀ α, ∀ {may opened}, Leads may opened (spent α)) {budget depth bare : Nat}
    (covered : allowance.left ceiling depth bare < budget) :
    (meteredUpTo alarm spent allowance budget depth bare).Tracks (Regime.ceiled ceiling depth)
      (meteredUpTo alarm other allowance budget depth bare) := by
  induction budget generalizing depth bare with
  | zero => exact absurd covered (Nat.not_lt_zero _)
  | succ budget ih =>
      refine ⟨meteredUpTo_leads alarms spends _ _ _, fun request world permits opens _ => ?_⟩
      rintro ⟨configured, deep⟩
      left
      unfold meteredUpTo
      by_cases within : world.bareAfter depth bare ≤ allowance.bare ∧
          world.busyContexts ≤ allowance.busy
      · rw [if_pos within, if_pos within]
        have shallow : world.callDepth ≤ ceiling * allowance.busy :=
          Nat.le_trans (World.callDepth_le configured) (Nat.mul_le_mul_left ceiling within.2)
        have remains := Allowance.left_decreases deep shallow within.1
        have nested := ih (Nat.lt_of_lt_of_le remains (Nat.le_of_lt_succ covered))
        have steps := @step_tracks _ _ _ _ _ nested (Regime.ceiled_pushes ceiling _) request
          fun _ _ _ _ => trivial
        exact ((steps world permits opens).2 ⟨configured, Nat.le_refl _⟩).resolve_right
          fun excused => excused.1
      · rw [if_neg within, if_neg within]

/-- A metered machine that gives up instead of sounding an alarm does what any machine does that
takes the same steps within the allowance, unless it gives up. -/
theorem meteredUpTo_lenient {others : Nat → Nat → Nat → Perform}
    (steps : ∀ budget depth bare request (world : World),
      world.bareAfter depth bare ≤ allowance.bare → world.busyContexts ≤ allowance.busy →
      others (budget + 1) depth bare request world =
        step (others budget world.callDepth (world.bareAfter depth bare)) request world)
    (budget depth bare : Nat) :
    (meteredUpTo (fun _ => exhaust) (fun _ => exhaust) allowance budget depth bare).Tracks
      Regime.lenient (others budget depth bare) := by
  have leads := @meteredUpTo_leads (fun _ => exhaust) (fun _ => exhaust) allowance
    (fun _ _ _ => .exhaust) (fun _ _ _ => .exhaust)
  induction budget generalizing depth bare with
  | zero => exact ⟨leads _ _ _, fun _ _ _ _ _ _ => .inr ⟨trivial, rfl⟩⟩
  | succ budget ih =>
      refine ⟨leads _ _ _, fun request world permits opens _ _ => ?_⟩
      unfold meteredUpTo
      by_cases within : world.bareAfter depth bare ≤ allowance.bare ∧
          world.busyContexts ≤ allowance.busy
      · rw [if_pos within, steps budget depth bare request world within.1 within.2]
        have alike := @step_tracks _ _ _ _ _ (ih world.callDepth (world.bareAfter depth bare))
          Regime.lenient_pushes request fun _ _ _ _ => trivial
        exact (alike world permits opens).2 trivial
      · rw [if_neg within]
        exact .inr ⟨trivial, rfl⟩

end

/-- A larger budget changes nothing unless the smaller one was used up. -/
theorem performUpTo_lenient (budget more : Nat) :
    (performUpTo budget).Tracks Regime.lenient (performUpTo (budget + more)) := by
  induction budget with
  | zero => exact ⟨performUpTo_leads 0, fun _ _ _ _ _ _ => .inr ⟨trivial, rfl⟩⟩
  | succ budget ih =>
      refine ⟨performUpTo_leads _, fun request world permits opens _ => ?_⟩
      rw [Nat.succ_add]
      exact (@step_tracks _ _ _ _ _ ih Regime.lenient_pushes request (fun _ _ _ _ => trivial) world
        permits opens).2

namespace Operation

variable {allowance : Allowance} {operation : Operation} {world : World} {ceiling : Nat}

/-- Two machines that agree unless the first gives up do the same in an operation that ends. -/
theorem run_lenient {perform other : Perform} (tracks : perform.Tracks Regime.lenient other)
    (ends : (operation.run perform world).1 ≠ .exhausted) :
    operation.run other world = operation.run perform world :=
  ((operation.run_tracks tracks (fun _ _ => trivial) world world.permits_all
    fun _ _ => trivial).2 trivial).resolve_right fun excused => ends excused.2

/-- An operation nests its requests within an allowance if it ends over the machine that gives up
where they leave it. -/
theorem nestsWithin_of_ends {budget : Nat}
    (ends : (operation.run (meteredUpTo (fun _ => exhaust) (fun _ => exhaust) allowance budget
      world.callDepth 0) world).1 ≠ .exhausted) :
    operation.NestsWithin allowance budget world := by
  intro alarm
  have sounding := run_lenient (@meteredUpTo_lenient allowance
    (meteredUpTo alarm (fun _ => exhaust) allowance)
    (fun _ _ _ _ _ bare busy => if_pos ⟨bare, busy⟩) budget world.callDepth 0) ends
  have plain := run_lenient (@meteredUpTo_lenient allowance (fun budget _ _ => performUpTo budget)
    (fun _ _ _ _ _ _ _ => rfl) budget world.callDepth 0) ends
  exact sounding.trans plain.symm

/-- An operation ends over a budget that covers the allowance if it does not meet an alarm that
fails. -/
theorem ends_of_silent (configured : world.config.maxCallDepth = some ceiling)
    (silent : operation.run (meteredUpTo (fun _ => Exec.fail .assemblyDropped) (fun _ => exhaust)
        allowance (allowance.bound ceiling) world.callDepth 0) world =
      operation.run (performUpTo (allowance.bound ceiling)) world) :
    (operation.run (performUpTo (allowance.bound ceiling)) world).1 ≠ .exhausted := by
  let alarm : (α : Type) → Exec α := fun _ => Exec.fail .assemblyDropped
  have alarms : ∀ α, Ends (alarm α) := fun _ _ => nofun
  have leads : ∀ α, ∀ {may opened}, Leads may opened (alarm α) := fun _ _ _ => .throw _
  -- Where the budget were used up it would fail as well, but that makes no difference.
  have tracks := @meteredUpTo_tracks alarm (fun _ => exhaust) allowance ceiling alarm leads
    (fun _ _ _ => .exhaust) _ world.callDepth 0 (allowance.left_lt_bound ceiling world.callDepth)
  have same := (operation.run_tracks tracks fun _ _ => trivial).eq id ⟨configured, Nat.le_refl _⟩
  rw [← silent, ← same]
  exact operation.run_ends (meteredUpTo_ends alarms alarms _ _ _) world

/-- Under a ceiling an operation that nests its requests within an allowance ends. -/
theorem ends_of_nestsWithin (configured : world.config.maxCallDepth = some ceiling)
    (nests : operation.NestsWithin allowance (allowance.bound ceiling) world) :
    (operation.run (performUpTo (allowance.bound ceiling)) world).1 ≠ .exhausted :=
  ends_of_silent configured (nests _)

end Operation

end ScriptObjects

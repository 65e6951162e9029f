import ScriptObjects.Proofs.SparingRequests
import ScriptObjects.Proofs.Surfacing

/-!
# Requests made on the way

A run makes requests, and what answers them makes further ones.  Here they are listed, each with the
state in which it is made, so that it can be said of a run that some request was never made, or that
something held whenever a request was made.

Both are proved with a machine that bars some requests: where one of them is made, it ends without
an answer, and up to there it does what the machine does.  So the states in which a request is made
are ends of runs, of that other machine, and what is known of the ends of its runs holds of them.
-/

namespace ScriptObjects

set_option autoImplicit false

open Exec

/-- A request, and the state in which it is made. -/
structure Inquiry where
  request : Request
  world : World

/-- The requests that are made to answer a request in a state. -/
abbrev Inquiries := Request → World → List Inquiry

/-! ## Barred requests -/

/-- Performs requests, but ends without an answer where a barred one is made. -/
def Perform.barring (bars : Inquiry → Prop) [DecidablePred bars] (perform : Perform) : Perform :=
  fun request world =>
    if bars ⟨request, world⟩ then (.exhausted, world) else perform request world

section

variable (bars : Inquiry → Prop) [DecidablePred bars] {perform : Perform}

theorem Perform.barring_of_barred {request : Request} {world : World}
    (barred : bars ⟨request, world⟩) :
    perform.barring bars request world = (.exhausted, world) :=
  if_pos barred

theorem Perform.barring_of_clear {request : Request} {world : World}
    (clear : ¬ bars ⟨request, world⟩) :
    perform.barring bars request world = perform request world :=
  if_neg clear

/-- What is performed where nothing is barred keeps everything that ending on the spot keeps. -/
theorem Perform.barring_end {request : Request} {world : World} {motive : World → Prop}
    (here : motive world) (performed : motive (perform request world).2) :
    motive (perform.barring bars request world).2 := by
  by_cases barred : bars ⟨request, world⟩
  · rw [barring_of_barred bars barred]
    exact here
  · rw [barring_of_clear bars barred]
    exact performed

theorem Perform.Sparing.barring (sparing : perform.Sparing) : (perform.barring bars).Sparing where
  leads may opened request isOpen world permits opens :=
    barring_end bars (.refl world) (sparing.leads may opened request isOpen world permits opens)
  call callable args context _ world live :=
    barring_end bars (.refl world) (sparing.call callable args context _ world live)
  read scope name _ world live := barring_end bars (.refl world) (sparing.read scope name _ world live)
  assign scope name value _ world live :=
    barring_end bars (.refl world) (sparing.assign scope name value _ world live)
  construct id options args world live :=
    barring_end bars (.refl world) (sparing.construct id options args world live)

end

/-! ## Up to the first barred request -/

/-- How a run with some requests barred compares with the run itself, given the requests that the
run makes.  It is the same run if none of them is barred.  Otherwise it may have ended where the first
of them is made, with some frames taken off again. -/
inductive StopsAt (bars : Inquiry → Prop) (made : List Inquiry) {α : Type}
    (run : Outcome α × World) : Outcome α × World → Prop
  | nowhere (clear : ∀ inquiry ∈ made, ¬ bars inquiry) : StopsAt bars made run run
  | inquiry {inquiry : Inquiry} {last : World} {earlier later : List Inquiry}
      (split : made = earlier ++ inquiry :: later) (clear : ∀ other ∈ earlier, ¬ bars other)
      (barred : bars inquiry) (same : last = { inquiry.world with contexts := last.contexts }) :
      StopsAt bars made run (.exhausted, last)

namespace StopsAt

variable {bars : Inquiry → Prop} {made more : List Inquiry} {α β : Type}
  {run barred : Outcome α × World}

theorem silent (run : Outcome α × World) : StopsAt bars [] run run :=
  .nowhere fun _ member => absurd member List.not_mem_nil

/-- What follows a run may not change that there is no answer, nor anything but frames then. -/
theorem followed (next : Outcome α × World → Outcome β × World)
    (ends : ∀ last : World, ∃ contexts,
      next (.exhausted, last) = (.exhausted, { last with contexts := contexts }))
    (stops : StopsAt bars made run barred) : StopsAt bars made (next run) (next barred) := by
  cases stops with
  | nowhere clear => exact .nowhere clear
  | @inquiry inquiry last _ _ split clear barred same =>
      obtain ⟨contexts, ended⟩ := ends last
      rw [ended]
      refine .inquiry split clear barred ?_
      rw [same]

/-- The first part of a longer run was the same with and without the bars. -/
theorem after (clear : ∀ inquiry ∈ made, ¬ bars inquiry) (stops : StopsAt bars more run barred) :
    StopsAt bars (made ++ more) run barred := by
  have both : ∀ {rest : List Inquiry}, (∀ inquiry ∈ rest, ¬ bars inquiry) →
      ∀ inquiry ∈ made ++ rest, ¬ bars inquiry := fun rest inquiry member =>
    (List.mem_append.mp member).elim (clear inquiry) (rest inquiry)
  cases stops with
  | nowhere rest => exact .nowhere (both rest)
  | inquiry split rest barred same =>
      exact .inquiry (by rw [split, List.append_assoc]) (both rest) barred same

/-- The bars had ended the first part of a longer run. -/
theorem before {inquiry : Inquiry} {last : World} {earlier later : List Inquiry}
    (split : made = earlier ++ inquiry :: later) (clear : ∀ other ∈ earlier, ¬ bars other)
    (barred : bars inquiry) (same : last = { inquiry.world with contexts := last.contexts }) :
    StopsAt bars (made ++ more) run (.exhausted, last) :=
  .inquiry (by rw [split, List.append_assoc, List.cons_append]) clear barred same

end StopsAt

namespace Account

variable (perform : Perform) (within : Inquiries)

/-- The requests that a run makes in a state, each followed by those made to answer it. -/
def inquiries : {allowed : Fault → Prop} → {α : Type} → {part : Perform → Exec α} →
    Account allowed part → World → List Inquiry
  | _, _, _, .silent _, _ => []
  | _, _, _, .request asked, world => ⟨asked, world⟩ :: within asked world
  | _, _, _, @bind _ _ _ part _ first second, world =>
      inquiries first world ++
        match part perform world with
        | (.done result, after) => inquiries (second result) after
        | (.failed _, _) | (.exhausted, _) => []
  | _, _, _, .wrapFault _ account, world => inquiries account world
  | _, _, _, .withFrame context frame account, world =>
      match (world.context context).push? frame with
      | .ok deeper => inquiries account (world.withContext context fun _ => deeper)
      | .error _ => []
  | _, _, _, .rethrow _ account, world => inquiries account world
  | _, _, _, .attempt account, world => inquiries account world
  | _, _, _, @orElseMissing _ part _ name first second, world =>
      inquiries first world ++
        match part perform world with
        | (.failed fault, after) => if fault.isMiss name then inquiries second after else []
        | (.done _, _) | (.exhausted, _) => []
  | _, _, _, .body _ account, world => inquiries account world
  | _, _, _, .anyway account, world => inquiries account world

/-- A run with some requests barred is the run itself up to the first of them. -/
theorem stopsAt {bars : Inquiry → Prop} [DecidablePred bars] {perform other : Perform}
    {within : Inquiries}
    (nested : ∀ request world,
      StopsAt bars (within request world) (perform request world) (other request world))
    {allowed : Fault → Prop} {α : Type} {part : Perform → Exec α} (account : Account allowed part)
    (world : World) :
    StopsAt bars (account.inquiries perform within world) (part perform world)
      (part (other.barring bars) world) := by
  induction account generalizing world with
  | silent run => exact .silent _
  | request asked =>
      show StopsAt bars (⟨asked, world⟩ :: within asked world) (perform asked world)
        (other.barring bars asked world)
      by_cases barred : bars ⟨asked, world⟩
      · rw [Perform.barring_of_barred bars barred]
        exact .inquiry (List.nil_append _).symm (fun _ member => absurd member List.not_mem_nil)
          barred rfl
      · rw [Perform.barring_of_clear bars barred]
        have clear : ∀ inquiry ∈ [(⟨asked, world⟩ : Inquiry)], ¬ bars inquiry :=
          fun inquiry member => List.mem_singleton.mp member ▸ barred
        exact .after clear (nested asked world)
  | @bind _ _ _ part next first second ihFirst ihSecond =>
      have one := ihFirst world
      rcases ends : part perform world with ⟨outcome, after⟩
      rcases stopped : part (other.barring bars) world with ⟨early, last⟩
      rw [ends, stopped] at one
      simp only [inquiries, ends]
      cases one with
      | nowhere clear =>
          cases outcome with
          | done result =>
              rw [bind_of_done _ ends, bind_of_done _ stopped]
              exact .after clear (ihSecond result after)
          | failed fault =>
              rw [bind_of_failed _ ends, bind_of_failed _ stopped]
              exact .after clear (.silent _)
          | exhausted =>
              rw [bind_of_exhausted _ ends, bind_of_exhausted _ stopped]
              exact .after clear (.silent _)
      | inquiry split clear barred same =>
          rw [bind_of_exhausted _ stopped]
          exact .before split clear barred same
  | @wrapFault _ _ part wrap causes account ih =>
      exact (ih world).followed (fun ended => Exec.wrapFault wrap (fun _ => ended) world)
        fun last => ⟨last.contexts, rfl⟩
  | @withFrame _ _ part context frame account ih =>
      rcases pushed : (world.context context).push? frame with limit | deeper
      · simp only [inquiries, pushed, withFrame_of_full _ pushed]
        exact .silent _
      · simp only [inquiries, pushed, withFrame_of_pushed _ rfl pushed]
        exact (ih (world.withContext context fun _ => deeper)).followed
          (fun ended => (ended.1, ended.2.withContext context
            (·.truncate (world.context context).depth)))
          fun last => ⟨_, rfl⟩
  | @rethrow _ _ part update account ih =>
      exact (ih world).followed (fun ended => Exec.recover (fun _ => ended) (fun fault => do
        Exec.change update
        throw fault) world) fun last => ⟨last.contexts, rfl⟩
  | @attempt _ _ _ part account ih =>
      exact (ih world).followed (fun ended => Exec.attempt (fun _ => ended) world)
        fun last => ⟨last.contexts, rfl⟩
  | @orElseMissing _ part otherwise name first second ihFirst ihSecond =>
      have one := ihFirst world
      rcases ends : part perform world with ⟨outcome, after⟩
      rcases stopped : part (other.barring bars) world with ⟨early, last⟩
      rw [ends, stopped] at one
      simp only [inquiries, ScriptObjects.orElseMissing, Exec.recover, ends, stopped]
      cases one with
      | nowhere clear =>
          cases outcome with
          | done result => exact .after clear (.silent _)
          | failed fault =>
              by_cases missing : fault.isMiss name = true
              · simp only [if_pos missing]
                exact .after clear (ihSecond after)
              · simp only [if_neg missing]
                exact .after clear (.silent _)
          | exhausted => exact .after clear (.silent _)
      | inquiry split clear barred same => exact .before split clear barred same
  | body evaluated account ih => exact ih world
  | anyway account ih => exact ih world

end Account

/-! ## The machine -/

/-- The requests made to answer a request that nests at most so deep. -/
def inquiriesUpTo : Nat → Inquiries
  | 0, _, _ => []
  | depth + 1, request, world =>
      (stepAccount request).inquiries (performUpTo depth) (inquiriesUpTo depth) world

section

variable (bars : Inquiry → Prop) [DecidablePred bars]

/-- Performs a request as the machine does, with some of those nested in it barred. -/
def barredUpTo : Nat → Perform
  | 0, _ => Exec.exhaust
  | depth + 1, request => step ((barredUpTo depth).barring bars) request

theorem barredUpTo_sparing (budget : Nat) : (barredUpTo bars budget).Sparing := by
  induction budget with
  | zero => exact performUpTo_sparing 0
  | succ budget ih => exact step_sparing (ih.barring bars)

theorem barredUpTo_stopsAt (budget : Nat) (request : Request) (world : World) :
    StopsAt bars (inquiriesUpTo budget request world) (performUpTo budget request world)
      (barredUpTo bars budget request world) := by
  induction budget generalizing request world with
  | zero => exact .silent _
  | succ budget ih => exact (stepAccount request).stopsAt ih world

end

namespace Account

variable {bars : Inquiry → Prop} [DecidablePred bars] {allowed : Fault → Prop} {α : Type}
  {part : Perform → Exec α} (account : Account allowed part) (budget : Nat) (world : World)

/-- A run that makes no barred request is the same with the bars. -/
theorem barred_eq
    (clear : ∀ inquiry ∈ account.inquiries (performUpTo budget) (inquiriesUpTo budget) world,
      ¬ bars inquiry) :
    part ((barredUpTo bars budget).barring bars) world = part (performUpTo budget) world := by
  have stops := account.stopsAt (barredUpTo_stopsAt bars budget) world
  generalize part ((barredUpTo bars budget).barring bars) world = barred at stops ⊢
  cases stops with
  | nowhere => rfl
  | inquiry split _ barred =>
      exact absurd barred (clear _ (split ▸ List.mem_append_right _ List.mem_cons_self))

/-- If the run with the bars does not end where a barred request would be made, none is made. -/
theorem never_barred
    (otherwise : ∀ inquiry : Inquiry, bars inquiry → ∀ contexts,
      part ((barredUpTo bars budget).barring bars) world ≠
        (.exhausted, { inquiry.world with contexts := contexts })) :
    ∀ inquiry ∈ account.inquiries (performUpTo budget) (inquiriesUpTo budget) world,
      ¬ bars inquiry := by
  have stops := account.stopsAt (barredUpTo_stopsAt bars budget) world
  generalize part ((barredUpTo bars budget).barring bars) world = barred at stops otherwise
  cases stops with
  | nowhere clear => exact clear
  | @inquiry inquiry _ _ _ _ _ barred same =>
      exact absurd (congrArg (Prod.mk _) same) (otherwise inquiry barred _)

end Account

end ScriptObjects

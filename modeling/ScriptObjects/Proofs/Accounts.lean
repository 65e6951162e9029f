import ScriptObjects.Proofs.Operations

/-!
# Accounts of what bodies raise

An account describes a run by the ways in which it can come to evaluate a body: the requests it
makes, the bodies it evaluates itself, and what it does about a fault.  Everything else in the run
is silent, since it is not given any way to perform requests.  Read together with records of the
requests, an account lists the bodies that the run begins and the faults that they raise; a fault
that an expression turns into its value is listed as caught.

The list is honest: nothing begins after a body has raised a fault, and the run ends in a fault
whose chain of causes leads to the one raised.  An account also says which faults a raised one can
surface as.  Out of a lookup it never surfaces as the fault of a lookup, so the sources of a
composite scope never take it for a missing name.
-/

namespace ScriptObjects

set_option autoImplicit false

/-! ## Chains of causes -/

/-- A fault followed by its cause, the cause of its cause, and so on. -/
def Fault.chain : Fault → List Fault
  | .declaration className field cause => [.declaration className field cause, .lookup cause]
  | .attachment target className cause => .attachment target className cause :: cause.chain
  | .initializer className field cause => .initializer className field cause :: cause.chain
  | .construction className cause => .construction className cause :: cause.chain
  | .hookFailed key cause => .hookFailed key cause :: cause.chain
  | fault => [fault]

theorem Fault.chain_of_cause {fault cause : Fault} (brought : fault.cause? = some cause) :
    fault.chain = fault :: cause.chain := by
  cases fault <;> cases brought <;> rfl

theorem Fault.chain_of_causeless {fault : Fault} (causeless : fault.cause? = none) :
    fault.chain = [fault] := by
  cases fault <;> first | rfl | cases causeless

/-- The fault of a lookup has no cause. -/
theorem Fault.foreign_of_cause {fault cause : Fault} (brought : fault.cause? = some cause) :
    fault.Foreign := by
  rintro found rfl
  cases brought

/-! ## Events -/

/-- What a declaration leaves to be evaluated later. -/
inductive Body where
  /-- The body of a function, of a constructor or of a meta-function. -/
  | function (label : String)
  | initializer (className field : String)
  /-- The arguments of an annotation on a target. -/
  | arguments (target annotation : String)
  deriving DecidableEq, Repr

/-- A step in the evaluation of bodies. -/
inductive Event where
  | begins (body : Body)
  /-- A body ends in a fault. -/
  | raises (body : Body) (fault : Fault)
  /-- A body ended in a fault that was turned into a value further out. -/
  | caught (body : Body) (fault : Fault)
  deriving DecidableEq, Repr

/-- An event, seen from outside an expression that turns faults into values. -/
def Event.quieted : Event → Event
  | .raises body fault => .caught body fault
  | event => event

/-- The end of a body. -/
def raised {α : Type} (body : Body) : Outcome α → List Event
  | .failed fault => [.raises body fault]
  | .done _ | .exhausted => []

/-- No body raises a fault. -/
def Calm (events : List Event) : Prop := ∀ body fault, .raises body fault ∉ events

theorem Calm.nil : Calm [] := fun _ _ => List.not_mem_nil

theorem Calm.quieted (events : List Event) : Calm (events.map Event.quieted) := by
  intro body fault raises
  obtain ⟨event, _, same⟩ := List.mem_map.mp raises
  cases event <;> cases same

/-- Nothing begins once a body has raised a fault. -/
def Halting (events : List Event) : Prop :=
  events.Pairwise fun first later =>
    ∀ body fault other, first = .raises body fault → later ≠ .begins other

theorem Halting.append_of_calm {first second : List Event} (calm : Calm first)
    (halting : Halting second) : Halting (first ++ second) := by
  refine List.pairwise_append.mpr ⟨?_, halting, ?_⟩
  · exact List.pairwise_of_forall_mem_list fun one member _ _ body fault _ same =>
      absurd (same ▸ member) (calm body fault)
  · exact fun one member _ _ body fault _ same => absurd (same ▸ member) (calm body fault)

theorem Calm.halting {events : List Event} (calm : Calm events) : Halting events := by
  simpa using Halting.append_of_calm calm List.Pairwise.nil

theorem Halting.append_of_ending {first second : List Event} (halting : Halting first)
    (ending : ∀ event ∈ second, ∀ body, event ≠ .begins body) : Halting (first ++ second) := by
  refine List.pairwise_append.mpr ⟨halting, ?_, ?_⟩
  · exact List.pairwise_of_forall_mem_list fun _ _ later member _ _ other _ =>
      ending later member other
  · exact fun _ _ later member _ _ other _ => ending later member other

/-- Events that tell the truth about a run: nothing begins after a fault was raised, and the run
ends in an allowed fault that the raised one is a cause of. -/
structure Honest {α : Type} (allowed : Fault → Prop) (events : List Event) (outcome : Outcome α) :
    Prop where
  halting : Halting events
  surfaces : ∀ body fault, .raises body fault ∈ events →
    ∃ last, outcome = .failed last ∧ allowed last ∧ fault.chain <:+ last.chain

namespace Honest

variable {α β : Type} {allowed : Fault → Prop} {events : List Event}

theorem of_calm (calm : Calm events) (outcome : Outcome α) : Honest allowed events outcome :=
  ⟨calm.halting, fun body fault raises => absurd raises (calm body fault)⟩

/-- A run that does not end in an allowed fault was calm. -/
theorem calm {outcome : Outcome α} (honest : Honest allowed events outcome)
    (otherwise : ∀ last, allowed last → outcome ≠ .failed last) : Calm events := by
  intro body fault raises
  obtain ⟨last, ends, permitted, _⟩ := honest.surfaces body fault raises
  exact otherwise last permitted ends

theorem after_calm {first : List Event} {outcome : Outcome α} (calm : Calm first)
    (honest : Honest allowed events outcome) : Honest allowed (first ++ events) outcome where
  halting := .append_of_calm calm honest.halting
  surfaces body fault raises :=
    (List.mem_append.mp raises).elim (fun early => absurd early (calm body fault))
      (honest.surfaces body fault)

theorem weaken {more : Fault → Prop} {outcome : Outcome α} (honest : Honest allowed events outcome)
    (among : ∀ fault, allowed fault → more fault) : Honest more events outcome where
  halting := honest.halting
  surfaces body fault raises := by
    obtain ⟨last, ends, permitted, chain⟩ := honest.surfaces body fault raises
    exact ⟨last, ends, among last permitted, chain⟩

/-- What is raised surfaces in whatever the fault of the run is turned into, as long as the chain
of causes is kept. -/
theorem surface {more : Fault → Prop} {last outer : Fault}
    (honest : Honest allowed events (.failed last : Outcome α))
    (permitted : allowed last → more outer) (keeps : last.chain <:+ outer.chain) :
    Honest more events (.failed outer : Outcome β) where
  halting := honest.halting
  surfaces body fault raises := by
    obtain ⟨_, ends, allows, chain⟩ := honest.surfaces body fault raises
    cases ends
    exact ⟨outer, rfl, permitted allows, chain.trans keeps⟩

/-- The events of a body, between its beginning and its end. -/
theorem of_body {body : Body} {outcome : Outcome α} (honest : Honest allowed events outcome) :
    Honest (fun _ => True) (.begins body :: (events ++ raised body outcome)) outcome := by
  have begins : Calm [.begins body] := fun other fault raises => by simp at raises
  refine after_calm begins ⟨honest.halting.append_of_ending ?_, ?_⟩
  · intro event member
    cases outcome with
    | failed fault =>
        obtain rfl := List.mem_singleton.mp member
        exact fun _ same => nomatch same
    | done result => cases member
    | exhausted => cases member
  · intro other fault raises
    obtain inside | ends := List.mem_append.mp raises
    · exact (honest.weaken fun _ _ => trivial).surfaces other fault inside
    · cases outcome with
      | failed last =>
          cases List.mem_singleton.mp ends
          exact ⟨fault, rfl, trivial, List.suffix_refl _⟩
      | done result => cases ends
      | exhausted => cases ends

end Honest

/-! ## Requests -/

/-- The faults that what is raised within a request can surface as.  What a called function raises
is passed on as it is; what is raised within a lookup or a construction is always wrapped. -/
def Request.allows : Request → Fault → Prop
  | .call .. => fun _ => True
  | .read .. | .assign .. | .construct .. => Fault.Foreign

/-- The events of requests. -/
abbrev Record := Request → World → List Event

/-- The events are honest about every request. -/
def Perform.Recorded (perform : Perform) (record : Record) : Prop :=
  ∀ request world, Honest request.allows (record request world) (perform request world).1

/-! ## Accounts -/

/-- An account of a run that depends on a way to perform requests.  A fault that is raised within
it surfaces as an allowed one. -/
inductive Account : (Fault → Prop) → {α : Type} → (Perform → Exec α) → Type 1 where
  /-- A run that makes no request. -/
  | silent {allowed : Fault → Prop} {α : Type} (run : Exec α) : Account allowed fun _ => run
  | request (request : Request) : Account request.allows fun perform => perform request
  /-- One run after another. -/
  | bind {allowed : Fault → Prop} {α β : Type} {part : Perform → Exec α}
      {next : Perform → α → Exec β} (first : Account allowed part)
      (second : ∀ result, Account allowed fun perform => next perform result) :
      Account allowed fun perform => part perform >>= next perform
  /-- A run whose fault is wrapped in another, which is then not that of a lookup. -/
  | wrapFault {inside : Fault → Prop} {α : Type} {part : Perform → Exec α} {wrap : Fault → Fault}
      (causes : ∀ fault, (wrap fault).cause? = some fault) (account : Account inside part) :
      Account Fault.Foreign fun perform => Exec.wrapFault wrap (part perform)
  /-- A run with one more frame on a context. -/
  | withFrame {allowed : Fault → Prop} {α : Type} {part : Perform → Exec α} (context : ContextId)
      (frame : Frame) (account : Account allowed part) :
      Account allowed fun perform => Exec.withFrame context frame (part perform)
  /-- A run whose fault is raised again after a change of the state. -/
  | rethrow {allowed : Fault → Prop} {α : Type} {part : Perform → Exec α} (update : World → World)
      (account : Account allowed part) :
      Account allowed fun perform => (part perform).recover fun fault => do
        Exec.change update
        throw fault
  /-- A run whose fault becomes its result. -/
  | attempt {inside allowed : Fault → Prop} {α : Type} {part : Perform → Exec α}
      (account : Account inside part) : Account allowed fun perform => Exec.attempt (part perform)
  /-- A run that is followed by another one where a name is missing.  What is raised in the first
  run surfaces as a fault that no one takes for a missing name. -/
  | orElseMissing {α : Type} {part other : Perform → Exec α} (name : String)
      (first : Account Fault.Foreign part) (second : Account Fault.Foreign other) :
      Account Fault.Foreign fun perform =>
        ScriptObjects.orElseMissing name (part perform) (other perform)
  /-- The evaluation of a body. -/
  | body {inside : Fault → Prop} {α : Type} {part : Perform → Exec α} (body : Body)
      (account : Account inside part) : Account (fun _ => True) part
  /-- A run for which it does not matter what a raised fault surfaces as. -/
  | anyway {inside : Fault → Prop} {α : Type} {part : Perform → Exec α}
      (account : Account inside part) : Account (fun _ => True) part

namespace Account

open Exec

section

variable (perform : Perform) (record : Record)

/-- The events of a run in a state. -/
def events : {allowed : Fault → Prop} → {α : Type} → {part : Perform → Exec α} →
    Account allowed part → World → List Event
  | _, _, _, .silent _, _ => []
  | _, _, _, .request asked, world => record asked world
  | _, _, _, @bind _ _ _ part _ first second, world =>
      events first world ++
        match part perform world with
        | (.done result, after) => events (second result) after
        | (.failed _, _) | (.exhausted, _) => []
  | _, _, _, .wrapFault _ account, world => events account world
  | _, _, _, .withFrame context frame account, world =>
      match (world.context context).push? frame with
      | .ok deeper => events account (world.withContext context fun _ => deeper)
      | .error _ => []
  | _, _, _, .rethrow _ account, world => events account world
  | _, _, _, .attempt account, world => (events account world).map Event.quieted
  | _, _, _, @orElseMissing _ part _ name first second, world =>
      events first world ++
        match part perform world with
        | (.failed fault, after) => if fault.isMiss name then events second after else []
        | (.done _, _) | (.exhausted, _) => []
  | _, _, _, @body _ _ part evaluated account, world =>
      .begins evaluated :: (events account world ++ raised evaluated (part perform world).1)
  | _, _, _, .anyway account, world => events account world

end

/-- An account is honest where the records of the requests are. -/
theorem honest {perform : Perform} {record : Record} (recorded : perform.Recorded record)
    {allowed : Fault → Prop} {α : Type} {part : Perform → Exec α} (account : Account allowed part)
    (world : World) :
    Honest allowed (account.events perform record world) (part perform world).1 := by
  induction account generalizing world with
  | silent run => exact .of_calm .nil _
  | request asked => exact recorded asked world
  | @bind _ _ _ part next first second ihFirst ihSecond =>
      have one := ihFirst world
      rcases ends : part perform world with ⟨outcome, after⟩
      rw [ends] at one
      simp only [events, ends]
      cases outcome with
      | done result =>
          rw [bind_of_done _ ends]
          exact .after_calm (one.calm nofun) (ihSecond result after)
      | failed fault =>
          rw [bind_of_failed _ ends, List.append_nil]
          exact one.surface id (List.suffix_refl _)
      | exhausted =>
          rw [bind_of_exhausted _ ends, List.append_nil]
          exact .of_calm (one.calm nofun) _
  | @wrapFault _ _ part wrap causes account ih =>
      have one := ih world
      rcases ends : part perform world with ⟨outcome, after⟩
      rw [ends] at one
      simp only [events, Exec.wrapFault, ends]
      cases outcome with
      | done result => exact .of_calm (one.calm nofun) _
      | failed fault =>
          refine one.surface (fun _ => Fault.foreign_of_cause (causes fault)) ?_
          rw [Fault.chain_of_cause (causes fault)]
          exact List.suffix_cons _ _
      | exhausted => exact .of_calm (one.calm nofun) _
  | @withFrame _ _ part context frame account ih =>
      rcases pushed : (world.context context).push? frame with limit | deeper
      · simp only [events, pushed]
        exact .of_calm .nil _
      · simp only [events, pushed, withFrame_of_pushed _ rfl pushed]
        exact ih _
  | @rethrow _ _ part update account ih =>
      have one := ih world
      rcases ends : part perform world with ⟨outcome, after⟩
      rw [ends] at one
      simp only [events, Exec.recover, ends]
      cases outcome with
      | done result => exact one
      | failed fault => exact one
      | exhausted => exact one
  | attempt account ih => exact .of_calm (.quieted _) _
  | @orElseMissing _ part other name first second ihFirst ihSecond =>
      have one := ihFirst world
      rcases ends : part perform world with ⟨outcome, after⟩
      rw [ends] at one
      simp only [events, ScriptObjects.orElseMissing, Exec.recover, ends]
      cases outcome with
      | done result =>
          rw [List.append_nil]
          exact one
      | failed fault =>
          by_cases missing : fault.isMiss name = true
          · simp only [if_pos missing]
            have calm : Calm (first.events perform record world) := by
              refine one.calm fun last foreign same => ?_
              cases same
              rw [foreign.isMiss name] at missing
              cases missing
            exact .after_calm calm (ihSecond after)
          · simp only [if_neg missing, List.append_nil]
            exact one
      | exhausted =>
          rw [List.append_nil]
          exact one
  | body evaluated account ih => exact (ih world).of_body
  | anyway account ih => exact (ih world).weaken fun _ _ => trivial

end Account

end ScriptObjects

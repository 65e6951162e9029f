import ScriptObjects.Proofs.Runs

/-!
# Hooks that are called one after another

The annotations of a slot intercept its value, and those of an instance its arguments.  Either way
the hooks are called in the order of the annotations, something is passed on from each to the next,
and the first hook without an answer ends it.  What is passed on, and what an answer makes of it,
is left open here.
-/

namespace ScriptObjects

set_option autoImplicit false

open Exec

/-- One outcome is the other: no result, for the same reason. -/
inductive Outcome.Stops {α β : Type} : Outcome α → Outcome β → Prop
  | failed (fault : Fault) : Stops (.failed fault) (.failed fault)
  | exhausted : Stops .exhausted .exhausted

theorem Outcome.Stops.not_done {α β : Type} {first : Outcome α} {result : β}
    (stops : first.Stops (.done result)) : False :=
  nomatch stops

/-- A hook of an annotation is called. -/
structure HookCall (σ : Type) where
  /-- The annotation whose hook it is. -/
  attached : InstanceId
  /-- What is passed on from hook to hook, as it is now. -/
  passed : σ
  /-- The state in which the call begins. -/
  before : World
  answer : Outcome (Option Value)
  after : World

/-- Hooks of annotations are called one after another, up to the first without an answer.  What one
leaves is what the next one is passed. -/
inductive HookCalls {σ α : Type} (happens : HookCall σ → Prop)
    (leaves : HookCall σ → Option Value → σ → Prop) (finish : σ → α) :
    List InstanceId → σ → World → List (HookCall σ) → Outcome α → World → Prop
  | finished (passed : σ) (world : World) :
      HookCalls happens leaves finish [] passed world [] (.done (finish passed)) world
  | answered {rest : List InstanceId} {call : HookCall σ} {answer : Option Value} {left : σ}
      {calls : List (HookCall σ)} {outcome : Outcome α} {last : World}
      (called : happens call) (ends : call.answer = .done answer) (leaving : leaves call answer left)
      (later : HookCalls happens leaves finish rest left call.after calls outcome last) :
      HookCalls happens leaves finish (call.attached :: rest) call.passed call.before
        (call :: calls) outcome last
  | stopped {rest : List InstanceId} {call : HookCall σ} {outcome : Outcome α}
      (called : happens call) (ends : call.answer.Stops outcome) :
      HookCalls happens leaves finish (call.attached :: rest) call.passed call.before [call]
        outcome call.after

namespace HookCalls

variable {σ α : Type} {happens : HookCall σ → Prop}
  {leaves : HookCall σ → Option Value → σ → Prop} {finish : σ → α}
  {attached : InstanceId} {annotations : List InstanceId} {passed : σ} {world last : World}
  {calls : List (HookCall σ)} {outcome : Outcome α}

/-- One hook is called, and then, if it answered, the others. -/
theorem first {asked : Exec (Option Value)} {begun : World} {next : Option Value → Exec α}
    (called : ∀ answer after, asked begun = (answer, after) →
      happens ⟨attached, passed, world, answer, after⟩)
    (others : ∀ answer after, asked begun = (.done answer, after) → ∃ left,
      leaves ⟨attached, passed, world, .done answer, after⟩ answer left ∧
      ∃ calls outcome last, next answer after = (outcome, last) ∧
        HookCalls happens leaves finish annotations left after calls outcome last) :
    ∃ calls outcome last, (asked >>= next) begun = (outcome, last) ∧
      HookCalls happens leaves finish (attached :: annotations) passed world calls outcome
        last := by
  rcases hooked : asked begun with ⟨answer, after⟩
  let call : HookCall σ := ⟨attached, passed, world, answer, after⟩
  have happens : happens call := called answer after hooked
  cases answer with
  | done answer =>
      obtain ⟨left, leaving, calls, outcome, last, runs, later⟩ := others answer after hooked
      rw [bind_of_done _ hooked]
      exact ⟨call :: calls, outcome, last, runs, .answered happens rfl leaving later⟩
  | failed fault =>
      rw [bind_of_failed _ hooked]
      exact ⟨[call], _, after, rfl, .stopped happens (.failed fault)⟩
  | exhausted =>
      rw [bind_of_exhausted _ hooked]
      exact ⟨[call], _, after, rfl, .stopped happens .exhausted⟩

/-- Of several calls, the first is a call of the first hook, and the others follow if it answers. -/
theorem uncons
    (runs : HookCalls happens leaves finish (attached :: annotations) passed world calls outcome
      last) :
    ∃ answer after others, calls = ⟨attached, passed, world, answer, after⟩ :: others ∧
      happens ⟨attached, passed, world, answer, after⟩ ∧
      ∀ result, answer = .done result → ∃ left,
        leaves ⟨attached, passed, world, answer, after⟩ result left ∧
        HookCalls happens leaves finish annotations left after others outcome last := by
  generalize whole : attached :: annotations = all at runs
  cases runs with
  | finished => cases whole
  | @answered _ call answer left others _ _ called ends leaving later =>
      cases whole
      refine ⟨call.answer, call.after, others, rfl, called, fun result same => ⟨left, ?_, later⟩⟩
      rw [ends] at same
      cases same
      exact leaving
  | @stopped _ call _ called ends =>
      cases whole
      refine ⟨call.answer, call.after, [], rfl, called, fun result same => ?_⟩
      rw [same] at ends
      cases ends

/-- The annotations whose hooks are called are the first ones, in order. -/
theorem in_order (runs : HookCalls happens leaves finish annotations passed world calls outcome last) :
    calls.map HookCall.attached <+: annotations := by
  induction runs with
  | finished => exact List.nil_prefix
  | answered _ _ _ _ ih => exact List.prefix_cons_inj _ |>.mpr ih
  | stopped => exact List.prefix_cons_inj _ |>.mpr List.nil_prefix

/-- What every call keeps is kept from the first state to the last. -/
theorem lift (related : World → World → Prop) (refl : ∀ world, related world world)
    (trans : ∀ {first second third}, related first second → related second third →
      related first third)
    (keeps : ∀ call ∈ calls, happens call → related call.before call.after)
    (runs : HookCalls happens leaves finish annotations passed world calls outcome last) :
    related world last := by
  induction runs with
  | finished _ world => exact refl world
  | @answered _ call _ _ calls _ _ called _ _ _ ih =>
      exact trans (keeps call List.mem_cons_self called)
        (ih fun other member => keeps other (List.mem_cons_of_mem call member))
  | @stopped _ call _ called _ => exact keeps call List.mem_cons_self called

/-- What no answer changes is passed to every hook, and left at the end. -/
theorem unchanged (keeps : ∀ call ∈ calls, ∀ answer left, call.answer = .done answer →
      leaves call answer left → call.passed = passed → left = passed)
    (runs : HookCalls happens leaves finish annotations passed world calls outcome last) :
    (∀ call ∈ calls, call.passed = passed) ∧
      ∀ result, outcome = .done result → result = finish passed := by
  induction runs with
  | finished passed => exact ⟨fun _ member => absurd member List.not_mem_nil,
      fun result same => (Outcome.done.inj same).symm⟩
  | @answered _ call answer left calls _ _ _ ends leaving _ ih =>
      obtain rfl := keeps call List.mem_cons_self answer left ends leaving rfl
      obtain ⟨others, final⟩ := ih fun other member =>
        keeps other (List.mem_cons_of_mem call member)
      refine ⟨fun other member => ?_, final⟩
      obtain rfl | later := List.mem_cons.mp member
      · rfl
      · exact others other later
  | @stopped _ call _ _ ends =>
      refine ⟨fun other member => ?_, fun result same => ?_⟩
      · obtain rfl := List.mem_singleton.mp member
        rfl
      · rw [same] at ends
        exact ends.not_done.elim

end HookCalls

end ScriptObjects

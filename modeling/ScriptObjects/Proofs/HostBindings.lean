import ScriptObjects.Proofs.HostLinks

/-!
# Who binds levels

A level is bound by a host constructor that is called for it; whatever else a run does, the level
stays bound to what it is bound to.  A host constructor asks nobody for anything, so that what it does
can be told from the state in which it is called.
-/

namespace ScriptObjects

set_option autoImplicit false

open Exec World

/-! ## Host constructors that bind -/

/-- A function value is a host constructor of a level. -/
def World.Constructs (world : World) (id : CallableId) (receiver : Receiver) : Prop :=
  ∃ function constructor, (world.callables.get id).function = some function ∧
    function.body = .hostConstructor constructor ∧
    (world.callables.get id).receiver = some receiver

/-- A host constructor of a level is called, and binds the level to a new host object of a kind. -/
def Inquiry.Binds (receiver : Receiver) (kind : HostType → Prop) (inquiry : Inquiry) : Prop :=
  match inquiry.request with
  | .call callable args context =>
      inquiry.world.Constructs callable receiver ∧
        let after := (callFunction (performUpTo 0) callable args context inquiry.world).2
        ∃ host, after.bound? receiver = some host ∧ inquiry.world.bound? receiver ≠ some host ∧
          kind (after.hosts.get host).type
  | .read .. | .assign .. | .construct .. => False

theorem Inquiry.Binds.kind {receiver : Receiver} {kind : HostType → Prop} {inquiry : Inquiry}
    (binds : inquiry.Binds receiver kind) : ∃ type, kind type := by
  obtain ⟨request, world⟩ := inquiry
  cases request with
  | call =>
      obtain ⟨_, _, _, _, kind⟩ := binds
      exact ⟨_, kind⟩
  | read | assign | construct => exact binds.elim

/-- The level for which a function is called, if it is called for one. -/
def Inquiry.target? (inquiry : Inquiry) : Option Receiver :=
  match inquiry.request with
  | .call callable _ _ => (inquiry.world.callables.get callable).receiver
  | .read .. | .assign .. | .construct .. => none

theorem Inquiry.Binds.target? {receiver : Receiver} {kind : HostType → Prop} {inquiry : Inquiry}
    (binds : inquiry.Binds receiver kind) : inquiry.target? = some receiver := by
  obtain ⟨request, world⟩ := inquiry
  cases request with
  | call =>
      obtain ⟨⟨_, _, _, _, bound⟩, _⟩ := binds
      exact bound
  | read | assign | construct => exact binds.elim

section

variable {world : World} {receiver : Receiver} {permitted : HostType → Prop} {perform : Perform}

/-- A host constructor makes no requests. -/
theorem World.Constructs.callFunction_eq {id : CallableId} (constructs : world.Constructs id receiver)
    (args : List Value) (context : ContextId) :
    callFunction perform id args context world =
      callFunction (performUpTo 0) id args context world := by
  obtain ⟨function, constructor, called, body, _⟩ := constructs
  unfold callFunction
  cases alive : world.alive with
  | false => rw [bind_of_failed _ (requireAssembly_of_dropped alive),
      bind_of_failed _ (requireAssembly_of_dropped alive)]
  | true =>
      rw [bind_of_done _ (requireAssembly_of_alive alive),
        bind_of_done _ (requireAssembly_of_alive alive), get_bind_apply, get_bind_apply]
      simp only [called, body]
      rfl

/-- Whatever level a host constructor is called for, the links are kept. -/
theorem World.Constructs.relinks {id : CallableId} (constructs : world.Constructs id receiver)
    (args : List Value) (context : ContextId) (linked : world.WellLinked) :
    world.Relinks receiver (fun _ => True) (callFunction perform id args context world).2 := by
  obtain ⟨function, constructor, called, body, _⟩ := constructs
  have kept : (Custody.level receiver fun _ => True).keeps world
      (callFunction perform id args context world).2 := by
    refine callFunction_of_body fun other same => ?_
    obtain rfl : function = other := Option.some.inj (called.symm.trans same)
    rw [body]
    exact hostConstructor_keeping constructor (fun _ _ => Or.inr fun _ => trivial) args context
  exact kept linked

/-- A host constructor that does not bind a level to what is not permitted keeps it in custody. -/
theorem World.Constructs.rebound {id : CallableId} {args : List Value} {context : ContextId}
    (constructs : world.Constructs id receiver) (linked : world.WellLinked)
    (clear : ¬ Inquiry.Binds receiver (fun type => ¬ permitted type)
      ⟨.call id args context, world⟩) :
    world.Rebound receiver permitted (callFunction perform id args context world).2 := by
  have relinks : world.Relinks receiver (fun _ => True)
      (callFunction (performUpTo 0) id args context world).2 := constructs.relinks args context linked
  rw [constructs.callFunction_eq]
  generalize sound : (callFunction (performUpTo 0) id args context world).2 = after at relinks
  by_cases same : after.bound? receiver = world.bound? receiver
  · exact .same same
  cases bound : after.bound? receiver with
  | none =>
      -- A level that was bound would still be bound.
      refine .same (bound.trans ?_)
      cases before : world.bound? receiver with
      | none => rfl
      | some host =>
          have still := relinks.keeps.bound (Option.isSome_of_eq_some before)
          rw [bound] at still
          cases still
  | some host =>
      refine .made host bound (Classical.byContradiction fun forbidden => clear ⟨constructs, ?_⟩)
      exact ⟨host, sound ▸ bound, fun before => same (bound.trans before.symm), sound ▸ forbidden⟩

/-- What a level is bound to is kept by all requests other than calls of host constructors that bind
it to something that is not permitted. -/
theorem level_guardedBy (receiver : Receiver) (permitted : HostType → Prop) :
    (Custody.level receiver permitted).GuardedBy (Inquiry.Binds receiver fun type =>
      ¬ permitted type) := by
  intro barred _ budget request world nested clear
  cases request with
  | read | construct => exact step_keeping nested trivial
  | assign => exact step_keeping nested fun _ _ => trivial
  | call callable args context =>
      by_cases constructs : world.Constructs callable receiver
      · intro linked
        have relinks : world.Relinks receiver (fun _ => True)
            (step ((barredUpTo barred budget).barring barred) (.call callable args context) world).2 :=
          constructs.relinks args context linked
        exact ⟨relinks.linked, relinks.keeps, constructs.rebound linked clear⟩
      · refine step_keeping nested fun function constructor other called body bound => .inl ?_
        rintro rfl
        exact constructs ⟨function, constructor, called, body, bound⟩

end

end ScriptObjects

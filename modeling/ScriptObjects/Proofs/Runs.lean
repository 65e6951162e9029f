import ScriptObjects.Proofs.Chains

/-!
# Equations of runs

How a run of several parts ends is decided by how its parts end.  The equations
below read a composed run off its parts, forwards where the first part is known and
backwards where only the end is.
-/

namespace ScriptObjects

set_option autoImplicit false

/-- The result of a run that gave one. -/
def Outcome.result? {α : Type} : Outcome α → Option α
  | .done result => some result
  | .failed _ | .exhausted => none

/-- The fault of a run that ended in one. -/
def Outcome.fault? {α : Type} : Outcome α → Option Fault
  | .failed fault => some fault
  | .done _ | .exhausted => none

theorem Outcome.eq_done {α : Type} {outcome : Outcome α} {result : α}
    (given : outcome.result? = some result) : outcome = .done result := by
  cases outcome with
  | done other =>
      cases given
      rfl
  | failed | exhausted => cases given

theorem Outcome.eq_failed {α : Type} {outcome : Outcome α} {fault : Fault}
    (given : outcome.fault? = some fault) : outcome = .failed fault := by
  cases outcome with
  | failed other =>
      cases given
      rfl
  | done | exhausted => cases given

namespace Exec

variable {α β : Type}

/-! ## Atomic runs -/

@[simp] theorem pure_apply (result : α) (world : World) :
    (pure result : Exec α) world = (.done result, world) := rfl

@[simp] theorem get_apply (world : World) : (get : Exec World) world = (.done world, world) := rfl

@[simp] theorem throw_apply (fault : Fault) (world : World) :
    (throw fault : Exec α) world = (.failed fault, world) := rfl

@[simp] theorem change_apply (update : World → World) (world : World) :
    change update world = (.done (), update world) := rfl

@[simp] theorem ask_apply (question : World → α) (world : World) :
    ask question world = (.done (question world), world) := rfl

/-! ## How a run ends -/

theorem done_of_result? {ended : Outcome α × World} {result : α}
    (ends : ended.1.result? = some result) : ended = (.done result, ended.2) :=
  Prod.ext (Outcome.eq_done ends) rfl

theorem failed_of_fault? {ended : Outcome α × World} {fault : Fault}
    (ends : ended.1.fault? = some fault) : ended = (.failed fault, ended.2) :=
  Prod.ext (Outcome.eq_failed ends) rfl

/-! ## One run after another -/

theorem bind_apply (run : Exec α) (next : α → Exec β) (world : World) :
    (run >>= next) world =
      match run world with
      | (.done result, after) => next result after
      | (.failed fault, after) => (.failed fault, after)
      | (.exhausted, after) => (.exhausted, after) := rfl

theorem bind_of_done {run : Exec α} {world after : World} {result : α} (next : α → Exec β)
    (first : run world = (.done result, after)) : (run >>= next) world = next result after := by
  rw [bind_apply, first]

theorem bind_of_failed {run : Exec α} {world after : World} {fault : Fault} (next : α → Exec β)
    (first : run world = (.failed fault, after)) :
    (run >>= next) world = (.failed fault, after) := by
  rw [bind_apply, first]

theorem bind_of_exhausted {run : Exec α} {world after : World} (next : α → Exec β)
    (first : run world = (.exhausted, after)) : (run >>= next) world = (.exhausted, after) := by
  rw [bind_apply, first]

@[simp] theorem get_bind_apply (next : World → Exec β) (world : World) :
    ((get : Exec World) >>= next) world = next world world := rfl

@[simp] theorem pure_bind_apply (result : α) (next : α → Exec β) (world : World) :
    ((pure result : Exec α) >>= next) world = next result world := rfl

@[simp] theorem change_bind_apply (update : World → World) (next : Unit → Exec β)
    (world : World) : (change update >>= next) world = next () (update world) := rfl

@[simp] theorem throw_bind_apply (fault : Fault) (next : α → Exec β) (world : World) :
    ((throw fault : Exec α) >>= next) world = (.failed fault, world) := rfl

@[simp] theorem ask_bind_apply (question : World → α) (next : α → Exec β) (world : World) :
    (ask question >>= next) world = next (question world) world := rfl

/-- A composed run gives a result exactly when both of its parts do. -/
theorem bind_done {run : Exec α} {next : α → Exec β} {world last : World} {result : β}
    (ends : (run >>= next) world = (.done result, last)) :
    ∃ first between, run world = (.done first, between) ∧
      next first between = (.done result, last) := by
  rw [bind_apply] at ends
  rcases first : run world with ⟨outcome, between⟩
  rw [first] at ends
  cases outcome with
  | done value => exact ⟨value, between, rfl, ends⟩
  | failed fault => cases ends
  | exhausted => cases ends

/-- A composed run ends in a fault of its first part or of its second. -/
theorem bind_failed {run : Exec α} {next : α → Exec β} {world last : World} {fault : Fault}
    (ends : (run >>= next) world = (.failed fault, last)) :
    run world = (.failed fault, last) ∨
      ∃ first between, run world = (.done first, between) ∧
        next first between = (.failed fault, last) := by
  rw [bind_apply] at ends
  rcases first : run world with ⟨outcome, between⟩
  rw [first] at ends
  cases outcome with
  | done value => exact .inr ⟨value, between, rfl, ends⟩
  | failed raised =>
      cases ends
      exact .inl rfl
  | exhausted => cases ends

/-! ## Faults -/

theorem recover_of_done {run : Exec α} {world after : World} {result : α}
    (handler : Fault → Exec α) (ends : run world = (.done result, after)) :
    run.recover handler world = (.done result, after) := by
  unfold recover
  rw [ends]

theorem recover_of_failed {run : Exec α} {world after : World} {fault : Fault}
    (handler : Fault → Exec α) (ends : run world = (.failed fault, after)) :
    run.recover handler world = handler fault after := by
  unfold recover
  rw [ends]

theorem recover_of_exhausted {run : Exec α} {world after : World} (handler : Fault → Exec α)
    (ends : run world = (.exhausted, after)) :
    run.recover handler world = (.exhausted, after) := by
  unfold recover
  rw [ends]

theorem wrapFault_of_done {run : Exec α} {world after : World} {result : α}
    (wrap : Fault → Fault) (ends : run world = (.done result, after)) :
    wrapFault wrap run world = (.done result, after) := by
  unfold wrapFault
  rw [ends]

theorem wrapFault_of_failed {run : Exec α} {world after : World} {fault : Fault}
    (wrap : Fault → Fault) (ends : run world = (.failed fault, after)) :
    wrapFault wrap run world = (.failed (wrap fault), after) := by
  unfold wrapFault
  rw [ends]

/-- A run whose fault is wrapped gives a result exactly when the run does. -/
theorem wrapFault_done {run : Exec α} {world after : World} {result : α} {wrap : Fault → Fault}
    (ends : wrapFault wrap run world = (.done result, after)) :
    run world = (.done result, after) := by
  unfold wrapFault at ends
  rcases ended : run world with ⟨outcome, last⟩
  rw [ended] at ends
  cases outcome with
  | done => exact ends
  | failed => cases ends
  | exhausted => cases ends

/-! ## Requirements -/

theorem requireAssembly_of_alive {world : World} (alive : world.alive = true) :
    requireAssembly world = (.done (), world) := by
  simp [requireAssembly, alive]

theorem requireAssembly_of_dropped {world : World} (dropped : world.alive = false) :
    requireAssembly world = (.failed .assemblyDropped, world) := by
  simp [requireAssembly, dropped]

/-! ## Frames -/

theorem withFrame_of_full {world : World} {context : ContextId} {frame : Frame} {limit : Nat}
    (run : Exec α) (full : (world.context context).push? frame = .error limit) :
    withFrame context frame run world = (.failed (.stackOverflow limit), world) := by
  simp only [withFrame, get_bind_apply, full, throw_apply]

theorem withFrame_of_pushed {world : World} {context deeper : Context} {id : ContextId}
    {frame : Frame} (run : Exec α) (known : world.context id = context)
    (pushed : context.push? frame = .ok deeper) :
    withFrame id frame run world =
      ((run (world.withContext id fun _ => deeper)).1,
        (run (world.withContext id fun _ => deeper)).2.withContext id
          (·.truncate context.depth)) := by
  subst known
  simp only [withFrame, get_bind_apply, pushed, change_bind_apply, thenAlways]

end Exec

end ScriptObjects

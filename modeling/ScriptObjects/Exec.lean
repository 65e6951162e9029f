import ScriptObjects.Fault
import ScriptObjects.World

/-!
# Runs

A run changes the state of the session and ends with a result, in a fault, or
without an answer when the budget for nested requests is used up.  A fault keeps
the changes made before it: nothing is rolled back.
-/

namespace ScriptObjects

set_option autoImplicit false

/-- What a run ends in. -/
inductive Outcome (α : Type) where
  | done (result : α)
  | failed (fault : Fault)
  /-- The budget for nested requests was used up. -/
  | exhausted

instance {α : Type} : Inhabited (Outcome α) := ⟨.exhausted⟩

/-- A run that may change the state. -/
def Exec (α : Type) : Type := World → Outcome α × World

namespace Exec

variable {α β : Type}

/-- A run that changes nothing. -/
def done (result : α) : Exec α := fun world => (.done result, world)

/-- A run that ends in a fault at once. -/
def fail (fault : Fault) : Exec α := fun world => (.failed fault, world)

/-- A run without an answer. -/
def exhaust : Exec α := fun world => (.exhausted, world)

/-- One run after another, as long as the first gives a result. -/
def andThen (first : Exec α) (next : α → Exec β) : Exec β := fun world =>
  match first world with
  | (.done result, world) => next result world
  | (.failed fault, world) => (.failed fault, world)
  | (.exhausted, world) => (.exhausted, world)

instance : Monad Exec where
  pure := done
  bind := andThen

instance : MonadStateOf World Exec where
  get := fun world => (.done world, world)
  set world := fun _ => (.done (), world)
  modifyGet change := fun world => let (result, world) := change world; (.done result, world)

/-- A run that continues from a fault. -/
def recover (run : Exec α) (handler : Fault → Exec α) : Exec α := fun world =>
  match run world with
  | (.failed fault, world) => handler fault world
  | answer => answer

instance : MonadExceptOf Fault Exec where
  throw := fail
  tryCatch := recover

/-- A run whose fault becomes its result. -/
def attempt (run : Exec α) : Exec (Except Fault α) := fun world =>
  match run world with
  | (.done result, world) => (.done (.ok result), world)
  | (.failed fault, world) => (.done (.error fault), world)
  | (.exhausted, world) => (.exhausted, world)

/-- A run whose fault is wrapped in another. -/
def wrapFault (wrap : Fault → Fault) (run : Exec α) : Exec α := fun world =>
  match run world with
  | (.failed fault, world) => (.failed (wrap fault), world)
  | answer => answer

/-- A run that ends in any of three ways, followed by a change of the state. -/
def thenAlways (run : Exec α) (change : World → World) : Exec α := fun world =>
  let (outcome, world) := run world
  (outcome, change world)

/-- A question to the state. -/
def ask (question : World → α) : Exec α := fun world => (.done (question world), world)

/-- A change of the state. -/
def change (update : World → World) : Exec Unit := fun world => (.done (), update world)

theorem map_id (run : Exec α) : (id <$> run) = run := by
  funext world
  show andThen run (fun result => done (id result)) world = run world
  unfold andThen done
  rcases run world with ⟨outcome, world⟩
  cases outcome <;> rfl

theorem andThen_assoc {γ : Type} (run : Exec α) (next : α → Exec β) (last : β → Exec γ) :
    (run >>= next) >>= last = run >>= fun result => next result >>= last := by
  funext world
  show andThen (andThen run next) last world =
    andThen run (fun result => andThen (next result) last) world
  unfold andThen
  rcases run world with ⟨outcome, world⟩
  cases outcome <;> rfl

instance : LawfulMonad Exec :=
  LawfulMonad.mk' Exec map_id (fun _ _ => rfl) andThen_assoc

end Exec

end ScriptObjects

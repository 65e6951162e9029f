import ScriptObjects.Proofs.Endings
import ScriptObjects.Proofs.Settled

/-!
# Bodies that recover

One form of expression goes on after a fault and makes a list of it.  Where no body has
that form, nothing that a script can do stops a fault that a full call stack brought
about: it is wrapped on the way, and its innermost cause stays what it was.

Two ways to perform requests are compared here once more, now by how runs end.  Runs are
alike if the second does what the first does and the first ends; or else, where cuts are
admitted, if the first was cut short, by its budget or by a full call stack.
-/

namespace ScriptObjects

set_option autoImplicit false

/-! ## Expressions -/

mutual

/-- Whether the evaluation of an expression can go on after a fault. -/
def Expr.recovers : Expr → Bool
  | .attempt _ => true
  | .list items | .host _ items | .sequence items | .call _ items | .baseCall _ items
  | .create _ items | .operate _ items => Expr.anyRecovers items
  | .table entries => Expr.anyEntryRecovers entries
  | .bind _ value | .log value | .typeName value | .set _ value | .baseSet _ value
  | .member value _ _ => value.recovers
  | .branch condition thenCase elseCase =>
      condition.recovers || thenCase.recovers || elseCase.recovers
  | .index target key => target.recovers || key.recovers
  | .setIndex target key value => target.recovers || key.recovers || value.recovers
  | .identical left right => left.recovers || right.recovers
  | .setMember target _ _ value => target.recovers || value.recovers
  | .null | .bool _ | .int _ | .float _ | .text _ | .var _ | .throw _ | .raiseHost _
  | .raiseType _ _ | .raiseNotDeclared _ | .arg _ | .args | .argCount | .this | .level
  | .trace | .depth | .get _ | .baseGet _ | .declare _ _ => false

/-- Whether the evaluation of one of several expressions can go on after a fault. -/
def Expr.anyRecovers : List Expr → Bool
  | [] => false
  | expr :: rest => expr.recovers || Expr.anyRecovers rest

/-- Whether the evaluation of an entry of a table can go on after a fault. -/
def Expr.anyEntryRecovers : List (Expr × Expr) → Bool
  | [] => false
  | (key, value) :: rest => key.recovers || value.recovers || Expr.anyEntryRecovers rest

end

theorem Expr.anyRecovers_eq_false {bodies : List Expr} :
    Expr.anyRecovers bodies = false ↔ ∀ body ∈ bodies, body.recovers = false := by
  induction bodies with
  | nil => simp [Expr.anyRecovers]
  | cons expr rest ih => simp [Expr.anyRecovers, ih]

/-! ## States -/

theorem Expr.anyRecovers_of_subset {bodies fewer : List Expr}
    (all : Expr.anyRecovers bodies = false) (among : ∀ body ∈ fewer, body ∈ bodies) :
    Expr.anyRecovers fewer = false :=
  Expr.anyRecovers_eq_false.mpr fun body member =>
    Expr.anyRecovers_eq_false.mp all body (among body member)

/-- No body in a state recovers. -/
abbrev World.NeverRecovers (world : World) : Prop :=
  world.AllBodies fun bodies => Expr.anyRecovers bodies = false

theorem World.NeverRecovers.offered {world : World} (never : world.NeverRecovers) {store : StoreId}
    {name : String} {function : Function} {receiver : Option Receiver}
    (offered : world.offer? store name = some (function, receiver)) :
    Expr.anyRecovers function.bodies = false :=
  AllBodies.offered never Expr.anyRecovers_of_subset offered

/-- A function value whose function does not recover may be made. -/
theorem World.NeverRecovers.withCallable {world : World} (never : world.NeverRecovers)
    {function : Function} (plain : Expr.anyRecovers function.bodies = false)
    (receiver : Option Receiver) :
    NeverRecovers
      { world with callables := world.callables.push (.ofFunction function receiver) } := by
  refine ⟨never.classes, never.functions, fun callable declared held => ?_⟩
  rw [Heap.get_push] at held
  split at held
  · cases held
    exact plain
  · exact never.callables callable declared held

theorem Evolves.neverRecovers {may : String → Prop} {opened : InstanceId → Prop}
    {first second : World} (evolves : Evolves may opened first second)
    (never : first.NeverRecovers) : second.NeverRecovers :=
  evolves.allBodies Expr.anyRecovers_of_subset never

/-! ## Cuts -/

/-- The fault at the bottom of the causes of a fault. -/
def Fault.innermost : Fault → Fault
  | .declaration _ _ cause => .lookup cause
  | .attachment _ _ cause | .initializer _ _ cause | .construction _ cause
  | .hookFailed _ cause => cause.innermost
  | fault => fault

/-- A full call stack brought the fault about. -/
def Fault.Overflows (fault : Fault) : Prop := ∃ limit, fault.innermost = .stackOverflow limit

theorem Fault.Overflows.isMiss {fault : Fault} (overflows : fault.Overflows) (name : String) :
    fault.isMiss name = false := by
  cases fault with
  | lookup cause =>
      obtain ⟨limit, same⟩ := overflows
      cases same
  | _ => rfl

theorem Fault.Overflows.declarationFault {fault : Fault} (overflows : fault.Overflows)
    (className field : String) : (declarationFault className field fault).Overflows := by
  cases fault with
  | lookup cause =>
      obtain ⟨limit, same⟩ := overflows
      cases same
  | _ => exact overflows

/-- A run was cut short, by its budget or by a full call stack. -/
def Outcome.IsCut {α : Type} : Outcome α → Prop
  | .done _ => False
  | .failed fault => fault.Overflows
  | .exhausted => True

/-! ## Runs that are alike -/

namespace Exec

variable (cuts : Prop) {α β : Type}

/-- From a state on, another run does what a run does and the run ends; or else, where cuts are
admitted, the run is cut short.  Where they are, no body may recover. -/
def AlikeAt (run other : Exec α) (world : World) : Prop :=
  (cuts → world.NeverRecovers) →
    (cuts → (run world).2.NeverRecovers) ∧
      ((run world).1 ≠ .exhausted ∧ other world = run world ∨ cuts ∧ (run world).1.IsCut)

/-- From every state on the runs are alike. -/
def Alike (run other : Exec α) : Prop := ∀ world, AlikeAt cuts run other world

variable {cuts}

theorem AlikeAt.own {run : Exec α} {world : World} (ends : (run world).1 ≠ .exhausted)
    (keeps : world.NeverRecovers → (run world).2.NeverRecovers) : AlikeAt cuts run run world :=
  fun never => ⟨fun admitted => keeps (never admitted), .inl ⟨ends, rfl⟩⟩

/-- Runs that go on as others do from a later state are alike if those are. -/
theorem AlikeAt.congr {run other first second : Exec α} {world after : World}
    (keeps : cuts → world.NeverRecovers → after.NeverRecovers) (one : run world = first after)
    (two : other world = second after) (alike : AlikeAt cuts first second after) :
    AlikeAt cuts run other world := by
  intro never
  obtain ⟨still, agrees⟩ := alike fun admitted => keeps admitted (never admitted)
  rw [one, two]
  exact ⟨still, agrees⟩

theorem AlikeAt.of_apply {run other : Exec α} {world after : World} {outcome : Outcome α}
    (keeps : cuts → world.NeverRecovers → after.NeverRecovers)
    (one : run world = (outcome, after)) (two : other world = (outcome, after))
    (ends : outcome ≠ .exhausted := by nofun) : AlikeAt cuts run other world := by
  intro never
  rw [one, two]
  exact ⟨fun admitted => keeps admitted (never admitted), .inl ⟨ends, rfl⟩⟩

theorem AlikeAt.bind {run other : Exec α} {next later : α → Exec β} {world : World}
    (first : AlikeAt cuts run other world)
    (second : ∀ result after, run world = (.done result, after) →
      AlikeAt cuts (next result) (later result) after) :
    AlikeAt cuts (run >>= next) (other >>= later) world := by
  intro never
  obtain ⟨still, agrees⟩ := first never
  rcases ended : run world with ⟨outcome, after⟩
  rw [ended] at still agrees
  obtain ⟨ends, same⟩ | ⟨admitted, cut⟩ := agrees
  · cases outcome with
    | done result =>
        rw [bind_of_done _ ended, bind_of_done _ same]
        exact second result after ended still
    | failed fault =>
        rw [bind_of_failed _ ended, bind_of_failed _ same]
        exact ⟨still, .inl ⟨nofun, rfl⟩⟩
    | exhausted => exact absurd rfl ends
  · cases outcome with
    | done result => exact cut.elim
    | failed fault =>
        rw [bind_of_failed _ ended]
        exact ⟨still, .inr ⟨admitted, cut⟩⟩
    | exhausted =>
        rw [bind_of_exhausted _ ended]
        exact ⟨still, .inr ⟨admitted, cut⟩⟩

/-- What recovers from a run must let the fault of a full call stack pass. -/
theorem AlikeAt.recover {run other : Exec α} {handler rescue : Fault → Exec α} {world : World}
    (first : AlikeAt cuts run other world)
    (second : ∀ fault after, run world = (.failed fault, after) →
      AlikeAt cuts (handler fault) (rescue fault) after)
    (passes : ∀ fault after, fault.Overflows → (handler fault after).1 = .failed fault) :
    AlikeAt cuts (run.recover handler) (other.recover rescue) world := by
  intro never
  obtain ⟨still, agrees⟩ := first never
  rcases ended : run world with ⟨outcome, after⟩
  rw [ended] at still agrees
  obtain ⟨ends, same⟩ | ⟨admitted, cut⟩ := agrees
  · cases outcome with
    | done result =>
        rw [recover_of_done _ ended, recover_of_done _ same]
        exact ⟨still, .inl ⟨nofun, rfl⟩⟩
    | failed fault =>
        rw [recover_of_failed _ ended, recover_of_failed _ same]
        exact second fault after ended still
    | exhausted => exact absurd rfl ends
  · cases outcome with
    | done result => exact cut.elim
    | failed fault =>
        rw [recover_of_failed _ ended]
        refine ⟨(second fault after ended still).1, .inr ⟨admitted, ?_⟩⟩
        rw [passes fault after cut]
        exact cut
    | exhausted =>
        rw [recover_of_exhausted _ ended]
        exact ⟨still, .inr ⟨admitted, cut⟩⟩

theorem AlikeAt.wrapFault {wrap : Fault → Fault} {run other : Exec α} {world : World}
    (first : AlikeAt cuts run other world)
    (keeps : ∀ fault, fault.Overflows → (wrap fault).Overflows) :
    AlikeAt cuts (Exec.wrapFault wrap run) (Exec.wrapFault wrap other) world := by
  intro never
  obtain ⟨still, agrees⟩ := first never
  unfold Exec.wrapFault
  rcases ended : run world with ⟨outcome, after⟩
  rw [ended] at still agrees
  obtain ⟨ends, same⟩ | ⟨admitted, cut⟩ := agrees
  · rw [same]
    cases outcome with
    | done | failed => exact ⟨still, .inl ⟨nofun, rfl⟩⟩
    | exhausted => exact absurd rfl ends
  · cases outcome with
    | done result => exact cut.elim
    | failed fault => exact ⟨still, .inr ⟨admitted, keeps fault cut⟩⟩
    | exhausted => exact ⟨still, .inr ⟨admitted, cut⟩⟩

namespace Alike

/-- What makes only listed changes and ends is like itself. -/
theorem own {run : Exec α} (leads : LeadsFreely run) (ends : Ends run) : Alike cuts run run :=
  fun world => .own (ends world)
    (leads world world.permits_all fun _ _ => trivial).neverRecovers

/-- What leaves all bodies where they are and ends is like itself. -/
theorem silent {run : Exec α} (ends : Ends run)
    (same : ∀ world, (run world).2.classes = world.classes ∧
      (run world).2.functions = world.functions ∧ (run world).2.callables = world.callables) :
    Alike cuts run run := by
  refine fun world => .own (ends world) fun never => ?_
  obtain ⟨classes, functions, callables⟩ := same world
  refine ⟨fun id => ?_, ?_, ?_⟩
  · unfold World.cls
    rw [classes]
    exact never.classes id
  · rw [functions]
    exact never.functions
  · rw [callables]
    exact never.callables

theorem pure (result : α) : Alike cuts (pure result : Exec α) (pure result) :=
  silent (.pure _) fun _ => ⟨rfl, rfl, rfl⟩

theorem throw (fault : Fault) : Alike cuts (throw fault : Exec α) (throw fault) :=
  silent (.throw _) fun _ => ⟨rfl, rfl, rfl⟩

theorem bind {run other : Exec α} {next later : α → Exec β} (first : Alike cuts run other)
    (second : ∀ result, Alike cuts (next result) (later result)) :
    Alike cuts (run >>= next) (other >>= later) :=
  fun world => (first world).bind fun result after _ => second result after

/-- A part that nests no requests comes before the others. -/
theorem after {run : Exec α} {next later : α → Exec β} (leads : LeadsFreely run)
    (ends : Ends run) (second : ∀ result, Alike cuts (next result) (later result)) :
    Alike cuts (run >>= next) (run >>= later) :=
  (own leads ends).bind second

theorem of_get {next later : World → Exec β}
    (second : ∀ seen, Alike cuts (next seen) (later seen)) :
    Alike cuts ((get : Exec World) >>= next) ((get : Exec World) >>= later) :=
  fun world => second world world

theorem attempt {run other : Exec α} (strict : ¬ cuts) (first : Alike cuts run other) :
    Alike cuts (Exec.attempt run) (Exec.attempt other) := by
  intro world never
  obtain ⟨_, agrees⟩ := first world never
  refine ⟨fun admitted => absurd admitted strict, ?_⟩
  unfold Exec.attempt
  obtain ⟨ends, same⟩ | ⟨admitted, _⟩ := agrees
  · rw [same]
    rcases ended : run world with ⟨outcome, after⟩
    rw [ended] at ends
    cases outcome with
    | done | failed => exact .inl ⟨nofun, rfl⟩
    | exhausted => exact absurd rfl ends
  · exact absurd admitted strict

theorem wrapFault {wrap : Fault → Fault} {run other : Exec α}
    (keeps : ∀ fault, fault.Overflows → (wrap fault).Overflows) (first : Alike cuts run other) :
    Alike cuts (Exec.wrapFault wrap run) (Exec.wrapFault wrap other) :=
  fun world => (first world).wrapFault keeps

end Alike

end Exec

/-- The requests of two ways to perform them are alike. -/
def Perform.Alike (cuts : Prop) (perform other : Perform) : Prop :=
  ∀ request, Exec.Alike cuts (perform request) (other request)

end ScriptObjects

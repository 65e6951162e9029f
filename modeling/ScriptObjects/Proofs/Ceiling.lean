import ScriptObjects.Proofs.Collisions
import ScriptObjects.Proofs.Nesting

/-!
# The ceiling on call depth

The settings of an assembly may put a ceiling on the frames of every context it makes.
Calls hold frames, and so does the phase before a constructor.  Initializers, annotations
and lookups nest without any, and the annotations of a function are created on a context
of their own.  So the ceiling bounds the runs in which requests nest only so often in a
row before another frame is pushed, and in which only so many contexts hold frames.
Frugal registries allow no other runs.

Where no body recovers, a run that meets a full call stack ends in the fault of it: the
machine is compared with one that does something else at a full call stack.  Instances
that create others by their fields never meet the ceiling at all.
-/

namespace ScriptObjects

set_option autoImplicit false

open Exec

/-! ## Full call stacks -/

/-- Frames as the machine pushes them; where a context is full, something else is done instead. -/
def refusedFraming (instead : Framing) (nested : Perform) : Framing where
  around context frame part world :=
    match (world.context context).push? frame with
    | .ok _ => withFrame context frame (part nested) world
    | .error _ => instead.around context frame part world

/-- Performs requests as the machine does, except that something else is done where a call stack
is full. -/
def replacedUpTo (instead : Framing) : Nat → Perform
  | 0, _ => Exec.exhaust
  | budget + 1, request =>
      stepBy (refusedFraming instead (replacedUpTo instead budget)) (replacedUpTo instead budget)
        request

/-- Where a call stack is full, the run is cut short. -/
theorem refusedFraming_resembles (instead : Framing) {perform other : Perform}
    (nested : perform.Alike True other) :
    (refusedFraming instead other).Resembles True perform := by
  intro α context frame part parts world
  cases pushed : (world.context context).push? frame with
  | ok deeper =>
      have same : (refusedFraming instead other).around context frame part world =
          withFrame context frame (part other) world := by
        simp only [refusedFraming, pushed]
      exact .congr (fun _ never => never) rfl same (withFrame_alikeAt pushed (parts nested))
  | error limit =>
      intro never
      have full : perform.framing.around context frame part world =
          (.failed (.stackOverflow limit), world) := withFrame_of_full _ pushed
      rw [full]
      exact ⟨never, .inr ⟨trivial, limit, rfl⟩⟩

theorem replacedUpTo_alike (instead : Framing) (budget : Nat) :
    (performUpTo budget).Alike True (replacedUpTo instead budget) := by
  induction budget with
  | zero => exact fun _ _ never => ⟨never, .inr ⟨trivial, trivial⟩⟩
  | succ budget ih => exact stepBy_alike (refusedFraming_resembles instead ih) ih

/-- The ceiling bounds every run.  An operation that nests its requests within an allowance ends,
with a result or a fault, and no larger budget changes how.  Where no body recovers, it either ends
in a fault that a full call stack brought about, or never met one: whatever would be done where a
call stack is full makes no difference. -/
theorem Operation.ceiling_bounds {allowance : Allowance} {operation : Operation} {world : World}
    {ceiling : Nat} (configured : world.config.maxCallDepth = some ceiling)
    (nests : operation.NestsWithin allowance (allowance.bound ceiling) world) :
    ∃ outcome after, outcome ≠ .exhausted ∧
      (∀ budget, allowance.bound ceiling ≤ budget →
        operation.run (performUpTo budget) world = (outcome, after)) ∧
      (operation.recovers = false → world.NeverRecovers →
        (∃ fault, outcome = .failed fault ∧ fault.Overflows) ∨
          ∀ instead budget, allowance.bound ceiling ≤ budget →
            operation.run (replacedUpTo instead budget) world = (outcome, after)) := by
  have ends := ends_of_nestsWithin configured nests
  rcases ended : operation.run (performUpTo (allowance.bound ceiling)) world with ⟨outcome, after⟩
  have later : ∀ budget, allowance.bound ceiling ≤ budget →
      operation.run (performUpTo budget) world = (outcome, after) := by
    intro budget enough
    obtain ⟨more, rfl⟩ := Nat.exists_eq_add_of_le enough
    exact (run_lenient (performUpTo_lenient _ more) ends).trans ended
  rw [ended] at ends
  refine ⟨outcome, after, ends, later, fun calm never => ?_⟩
  by_cases overflows : ∃ fault, outcome = .failed fault ∧ fault.Overflows
  · exact .inl overflows
  · refine .inr fun instead budget enough => ?_
    -- Runs that are alike are the same unless one is cut short, and this one is not.
    obtain ⟨_, agrees⟩ := operation.run_alike (replacedUpTo_alike instead budget) (fun _ => calm)
      world fun _ => never
    rw [later budget enough] at agrees
    obtain ⟨_, same⟩ | ⟨_, cut⟩ := agrees
    · exact same
    · cases outcome with
      | done result => exact cut.elim
      | failed fault => exact absurd ⟨fault, rfl, cut⟩ overflows
      | exhausted => exact absurd rfl ends

/-! ## Sessions under a ceiling -/

/-- Some classes are defined and checked where a context holds at most four frames. -/
def limitedStart (specs : List ClassSpec) : World :=
  (World.validate.run (World.defining ⟨some 4, true, false⟩ specs)).2

/-- A class with a constructor. -/
def constructorSpecs (body : Expr) : List ClassSpec :=
  [World.bareClass "A" none [] [World.bareFunction "constructor" body]]

theorem World.neverRecovers_of_check {world : World}
    (checked : world.checkBodies (fun body => !body.recovers) = true) : world.NeverRecovers :=
  allBodies_of_check checked fun _ all => Expr.anyRecovers_eq_false.mpr fun body member =>
    (Bool.not_eq_true' _).mp (all body member)

/-- Whether a run gave a result or a fault within its budget. -/
def Outcome.hasEnded {α : Type} : Outcome α → Bool
  | .done _ | .failed _ => true
  | .exhausted => false

theorem Operation.ceiling_bounds_runaway :
    ∃ outcome after, outcome ≠ .exhausted ∧
      (∀ budget, 15 ≤ budget → (Operation.create "A" .standard []).run (performUpTo budget)
        (limitedStart (constructorSpecs (.create "A" []))) = (outcome, after)) ∧
      ((∃ fault, outcome = .failed fault ∧ fault.Overflows) ∨
        ∀ instead budget, 15 ≤ budget →
          (Operation.create "A" .standard []).run (replacedUpTo instead budget)
            (limitedStart (constructorSpecs (.create "A" []))) = (outcome, after)) := by
  have frugal : (limitedStart (constructorSpecs (.create "A" []))).Frugal :=
    World.frugal_of_check (by decide +kernel)
  have idle : (limitedStart (constructorSpecs (.create "A" []))).busyContexts = 0 := by
    decide +kernel
  have nests := @nestsWithin_of_frugal (.create "A" .standard []) _ 4 frugal rfl
    fun _ none => by cases none
  rw [idle] at nests
  obtain ⟨outcome, after, ends, runs, calm⟩ := Operation.ceiling_bounds rfl nests
  exact ⟨outcome, after, ends, runs, calm rfl (World.neverRecovers_of_check (by decide +kernel))⟩

/-- A class whose constructor bears an annotation that creates an instance of the class: both
constructors hold frames, but each annotation has a context of its own. -/
def annotatedSpecs : List ClassSpec :=
  [⟨"N", .marker, none, [], [World.bareFunction "constructor" (.create "A" [])], [], none, none⟩,
   World.bareClass "A" none []
    [{ World.bareFunction "constructor" .null with annotations := [⟨"N", []⟩] }]]

-- No context is ever full here: only the number of contexts that hold frames tells.
example : ((Operation.create "A" .standard []).run (performUpTo 20)
    (limitedStart annotatedSpecs)).1.hasEnded = false := by decide +kernel

/-! ## Construction without end -/

namespace World

/-- A class without bases whose first field holds, from the start, a new instance of the class. -/
structure Regrows (world : World) (name : String) (id : ClassId) : Prop where
  found : world.findClass? name = some id
  alone : world.ancestors id = [id]
  creatable : (world.cls id).mode.creatable = true
  unmarked : (world.cls id).annotations = []
  grows : ∃ field rest, (world.cls id).fields = field :: rest ∧ field.annotations = [] ∧
    field.storage = .script (some (.create name []))

theorem Regrows.later {before after : World} {name : String} {id : ClassId}
    (regrows : before.Regrows name id) (same : before.SameHierarchy after) :
    after.Regrows name id where
  found := (same.findClass? name).trans regrows.found
  alone := (same.ancestors id).trans regrows.alone
  creatable := by
    rw [same.ask (fun cls => cls.mode.creatable) fun _ => rfl]
    exact regrows.creatable
  unmarked := by
    rw [same.ask ClassDef.annotations fun _ => rfl]
    exact regrows.unmarked
  grows := by
    rw [same.ask ClassDef.fields fun _ => rfl]
    exact regrows.grows

end World

theorem Exec.exhausted_bind {α β : Type} {run : Exec α} {world : World} (next : α → Exec β)
    (spent : (run world).1 = .exhausted) : ((run >>= next) world).1 = .exhausted := by
  rcases ended : run world with ⟨outcome, after⟩
  rw [ended] at spent
  cases spent
  rw [bind_of_exhausted next ended]

theorem Exec.exhausted_wrapFault {α : Type} {run : Exec α} {world : World} (wrap : Fault → Fault)
    (spent : (run world).1 = .exhausted) : (wrapFault wrap run world).1 = .exhausted := by
  rcases ended : run world with ⟨outcome, after⟩
  rw [ended] at spent
  cases spent
  unfold wrapFault
  rw [ended]

/-- The context of a construction is given or new; no store changes. -/
theorem constructionContext_done (options : CreateOptions) (world : World) :
    ∃ context contexts, constructionContext options world =
      (.done context, { world with contexts := contexts }) := by
  unfold constructionContext
  cases options.context with
  | some context => exact ⟨context, world.contexts, rfl⟩
  | none => exact ⟨_, _, rfl⟩

namespace World.Regrows

variable {perform : Perform} {world : World} {name : String} {id : ClassId}

/-- Before the first field is filled it is declared, on a level that has no variables yet. -/
theorem constructLevel_exhausted (regrows : world.Regrows name id) {options : CreateOptions}
    (standard : options.flags = .standard) {created : InstanceId} {level : Level}
    (context : ContextId) (sits : world.level? created 0 = some level) (own : level.cls = id)
    (empty : ∀ tier, (world.store (level.declarations tier)).slots = [])
    (nested : ∀ (options : CreateOptions) (later : World), options.flags = .standard →
      later.Regrows name id → (createInstance perform name options [] later).1 = .exhausted) :
    (constructLevel perform created options context 0 world).1 = .exhausted := by
  subst own
  obtain ⟨field, rest, fields, plain, script⟩ := regrows.grows
  have wanted : ∀ flag, flag ≠ .enforceCreation → options.has flag = true := by
    intro flag differs
    unfold CreateOptions.has
    rw [standard]
    exact decide_eq_true differs
  have bare : annotateLevel perform created options context 0 (world.cls level.cls) = pure () := by
    unfold annotateLevel
    rw [regrows.unmarked]
    simp
  have flagged : options.has field.flag = true := by
    refine wanted _ ?_
    unfold Field.flag
    split <;> nofun
  have free : (world.store (level.declarations field.access)).declares field.name = false := by
    unfold Store.declares Store.slot?
    rw [empty]
    rfl
  have unannotated : ∀ className receiver,
      annotateField perform className receiver level options context field = pure () := by
    intro className receiver
    unfold annotateField
    rw [plain]
    simp
  rw [constructLevel_of_some sits, bare, pure_bind_apply, fields]
  refine exhausted_bind _ ?_
  rw [constructField_of_wanted flagged]
  have declared : declareField (world.cls level.cls).name level field world = (.done (), _) :=
    wrapFault_of_done _ (insertSlot_of_free _ free)
  rw [bind_of_done _ declared, unannotated, pure_bind_apply]
  unfold fillField
  rw [if_pos (wanted .assignScriptFields nofun)]
  unfold initializeField
  rw [script]
  have creates : evaluate perform (some ⟨context, some ⟨created, 0⟩, []⟩) (.create name []) =
      (do return .object (← createInstance perform name ⟨.standard, some context⟩ [])) := rfl
  refine exhausted_wrapFault _ (exhausted_bind _ ?_)
  rw [creates]
  refine exhausted_bind _ (nested _ _ rfl (regrows.later ?_))
  exact (Continues.withStore world _ (·.insert _ _) fun _ => rfl).hierarchy

theorem constructInstance_exhausted (regrows : world.Regrows name id) {options : CreateOptions}
    (standard : options.flags = .standard) (args : List Value)
    (nested : ∀ (options : CreateOptions) (later : World), options.flags = .standard →
      later.Regrows name id → (createInstance perform name options [] later).1 = .exhausted) :
    (constructInstance perform world.instances.next options args (world.allocate id)).1 =
      .exhausted := by
  have allocates := allocate_allocates world id
  obtain ⟨levels, object, chain⟩ := allocates.object
  rw [regrows.alone] at chain
  obtain ⟨level, rfl, own⟩ := List.map_eq_singleton_iff.mp chain
  have sits : (world.allocate id).level? world.instances.next 0 = some level := by
    unfold level?
    rw [object]
    rfl
  obtain ⟨context, contexts, opened⟩ := constructionContext_done options (world.allocate id)
  rw [constructInstance_of_new (by rw [object]; rfl), bind_of_done _ opened, object]
  refine exhausted_bind _ (exhausted_bind _ ?_)
  refine (regrows.later ?_).constructLevel_exhausted standard context sits own (fun tier => ?_)
    nested
  · have allocated := (Continues.allocate world id).hierarchy
    exact ⟨allocated.registry, allocated.size, allocated.declared, allocated.base⟩
  · exact congrArg Store.slots (allocates.stores 0 level sits tier).2

theorem createInstance_spent (regrows : world.Regrows name id) {options : CreateOptions}
    {args : List Value}
    (spent : ∀ later : World, later.Regrows name id →
      (perform (.construct later.instances.next options args) (later.allocate id)).1 = .exhausted) :
    (createInstance perform name options args world).1 = .exhausted := by
  have creatable : (options.has .enforceCreation || (world.cls id).mode.creatable) = true := by
    rw [regrows.creatable, Bool.or_true]
  have again := regrows.later (.resolveBases world (world.ancestors id))
  have same : (world.resolveBases (world.ancestors id)).instances = world.instances := by
    rw [World.resolveBases_eq]
  unfold createInstance
  rw [get_bind_apply, regrows.found]
  dsimp only
  unfold instantiate
  rw [bind_of_done _ (newInstance_apply creatable), ← same]
  exact exhausted_bind _ (spent _ again)

/-- However large the budget, an instance of the class uses it up. -/
theorem createInstance_exhausted (regrows : world.Regrows name id) {options : CreateOptions}
    (standard : options.flags = .standard) (args : List Value) (budget : Nat) :
    (createInstance (performUpTo budget) name options args world).1 = .exhausted := by
  induction budget generalizing world options args with
  | zero => exact regrows.createInstance_spent fun _ _ => rfl
  | succ budget ih =>
      exact regrows.createInstance_spent fun _ again =>
        again.constructInstance_exhausted standard args fun _ _ flags grown => ih grown flags []

end World.Regrows
/-- A class whose field holds a new instance of the class. -/
def regrowingSpecs : List ClassSpec :=
  [World.bareClass "A" none [World.bareField "x" (some (.create "A" []))] []]

theorem regrows_regrowing : (limitedStart regrowingSpecs).Regrows "A" ⟨0⟩ where
  found := by decide +kernel
  alone := by decide +kernel
  creatable := by decide +kernel
  unmarked := by decide +kernel
  grows := ⟨_, _, rfl, rfl, rfl⟩

/-- Two ways around the ceiling.  An initializer runs without a frame of its own, so that instances
that create others by their fields never meet the ceiling; and a constructor that recovers from a
full call stack completes. -/
theorem Operation.ceiling_evaded :
    (¬ ∀ (defined start : World) (ceiling : Nat) (className : String) (options : CreateOptions)
      (args : List Value), World.Reachable defined → defined.config.maxCallDepth = some ceiling →
      World.validate.run defined = (.ok (), start) →
      ∃ budget, ((Operation.create className options args).run (performUpTo budget) start).1 ≠
        .exhausted) ∧
    ¬ ∀ (defined start : World) (ceiling : Nat) (className : String) (options : CreateOptions)
      (args : List Value), World.Reachable defined → defined.config.maxCallDepth = some ceiling →
      World.validate.run defined = (.ok (), start) →
      ∀ instead budget,
        (Operation.create className options args).run (replacedUpTo instead budget) start ≠
          (Operation.create className options args).run (performUpTo budget) start →
        ∃ fault, ((Operation.create className options args).run (performUpTo budget) start).1 =
          .failed fault ∧ fault.Overflows := by
  refine ⟨fun claim => ?_, fun claim => ?_⟩
  · obtain ⟨budget, ends⟩ := claim (World.defining ⟨some 4, true, false⟩ regrowingSpecs)
      (limitedStart regrowingSpecs) 4 "A" .standard [] (World.reachable_defining _ _) rfl rfl
    refine ends ?_
    show ((requireAssembly >>= fun _ => createInstance _ _ _ _) _).1 = _
    rw [bind_of_done _ (requireAssembly_of_alive rfl)]
    exact regrows_regrowing.createInstance_exhausted rfl [] budget
  · have completes : ((Operation.create "A" .standard []).run (performUpTo 20)
        (limitedStart (constructorSpecs (.attempt (.create "A" []))))).1.result? = some ⟨0⟩ := by
      decide +kernel
    have met : ((Operation.create "A" .standard []).run
        (replacedUpTo ⟨fun _ _ _ => exhaust⟩ 20)
        (limitedStart (constructorSpecs (.attempt (.create "A" []))))).1.result? = none := by
      decide +kernel
    obtain ⟨fault, failed, _⟩ := claim
      (World.defining ⟨some 4, true, false⟩ (constructorSpecs (.attempt (.create "A" []))))
      (limitedStart (constructorSpecs (.attempt (.create "A" [])))) 4 "A" .standard []
      (World.reachable_defining _ _) rfl rfl ⟨fun _ _ _ => exhaust⟩ 20
      (fun same => by rw [same, completes] at met; cases met)
    rw [failed] at completes
    cases completes

end ScriptObjects

import ScriptObjects.Proofs.Milestones

/-!
# The order of a construction

In which order the construction of a new instance evaluates bodies is settled before it begins:
it follows from the declarations of the classes on its chain and from the options.  The bodies
that are evaluated are those of this plan, in its order, up to the fault if there is one.

When an initializer is evaluated, the levels below are done: every field of theirs that is
declared and has an initializer has a value.
-/

namespace ScriptObjects

set_option autoImplicit false

open Exec

/-! ## The plan -/

/-- The arguments of an annotation use, left to right, and then the construction of its instance. -/
def usePlan (place : Nat) (target : String) (use : AnnotationUse ClassRefId) : List Moment :=
  use.args.map (.argument place target) ++ [.creation place target use]

namespace World

/-- Whether the class of an annotation use has a meta-function. -/
def answers (world : World) (key : MetaKey) (use : AnnotationUse ClassRefId) : Bool :=
  (world.target? use.cls).any fun cls => ((world.metaTable cls).get? key).isSome

/-- The hooks of several annotation uses, counted from a position on; those without the hook are
skipped. -/
def hookPlan (world : World) (key : MetaKey) (called : Nat → Moment) (position : Nat)
    (uses : List (AnnotationUse ClassRefId)) : List Moment :=
  (uses.zipIdx position).flatMap fun entry =>
    if world.answers key entry.1 then [called entry.2] else []

/-- A field: its annotations, its initializer, and the hooks of the first write. -/
def fieldPlan (world : World) (options : CreateOptions) (place : Nat) (className : String)
    (field : Field) : List Moment :=
  if options.has field.flag then
    (field.wanted options).flatMap (usePlan place (className ++ "." ++ field.name)) ++
      if options.has .assignScriptFields && field.isInitialized then
        .initializer place field ::
          world.hookPlan .onWrite (.writeHook place field) 0 (field.wanted options)
      else []
  else []

/-- A level: the annotations of its class, and then its fields. -/
def levelPlan (world : World) (options : CreateOptions) (place : Nat) (cls : ClassDef) :
    List Moment :=
  (cls.wanted options).flatMap (usePlan place cls.name) ++
    cls.fields.flatMap (world.fieldPlan options place cls.name)

/-- The levels of a chain, from the root down to the most derived class. -/
def levelsPlan (world : World) (options : CreateOptions) (chain : List ClassId) : List Moment :=
  chain.zipIdx.reverse.flatMap fun entry => world.levelPlan options entry.2 (world.cls entry.1)

/-- The annotations of the classes of a chain, in the order in which they are attached. -/
def attachedUses (world : World) (options : CreateOptions) (chain : List ClassId) :
    List (AnnotationUse ClassRefId) :=
  chain.reverse.flatMap fun cls => (world.cls cls).wanted options

/-- The constructor between the hooks of the annotations. -/
def constructorPlan (world : World) (uses : List (AnnotationUse ClassRefId)) : List Moment :=
  world.hookPlan .preConstruct .preHook 0 uses ++
    .constructor :: world.hookPlan .postConstruct .postHook 0 uses

/-- What the construction of an instance of a class evaluates, in order. -/
def constructionPlan (world : World) (options : CreateOptions) (cls : ClassId) : List Moment :=
  world.levelsPlan options (world.ancestors cls) ++
    if options.has .callConstructor then
      world.constructorPlan (world.attachedUses options (world.ancestors cls))
    else []

/-- What holds at a moment of the construction of an instance: an initializer finds the fields of
the levels below assigned, and lookups perform no request. -/
def AsPlanned (start : World) (id : InstanceId) (options : CreateOptions) (world : World) :
    Moment → Prop
  | .initializer place _ => world.FilledFrom id options (place + 1)
  | .lookup scope name => start.Unadorned name → ∀ one other : Perform,
      readScope one name scope world = readScope other name scope world
  | .retry store name => ∀ one other : Perform,
      materialize one store name world = materialize other store name world
  | _ => True

end World

/-! ## Following a plan -/

namespace Traced

variable {α β : Type} {good : World → Moment → Prop} {plan more : List Moment} {world : World}

/-- From a state on, a run evaluates the bodies of a plan in its order, all of them if it gives a
result, and every moment is as it should be. -/
structure Follows (good : World → Moment → Prop) (plan : List Moment) (traced : Traced α)
    (world : World) : Prop where
  along : traced.bodies world <+: plan
  whole : ∀ result after, traced.run world = (.done result, after) → traced.bodies world = plan
  good : ∀ entry ∈ traced.trace world, good entry.2 entry.1

theorem trace_bind_of_done {first : Traced α} (next : α → Traced β) {result : α} {after : World}
    (done : first.run world = (.done result, after)) :
    (first >>= next).trace world = first.trace world ++ (next result).trace after := by
  show (andThen first next world).1 = _
  unfold run at done
  unfold andThen trace
  rcases ends : first world with ⟨record, outcome, last⟩
  rw [ends] at done
  cases done
  rfl

theorem trace_bind_of_not_done {first : Traced α} (next : α → Traced β)
    (fails : ∀ result after, first.run world ≠ (.done result, after)) :
    (first >>= next).trace world = first.trace world := by
  show (andThen first next world).1 = _
  unfold run at fails
  unfold andThen trace
  rcases ends : first world with ⟨record, outcome, last⟩
  rw [ends] at fails
  cases outcome with
  | done result => exact absurd rfl (fails result last)
  | failed fault => rfl
  | exhausted => rfl

namespace Follows

theorem silent (run : Exec α) : Follows good [] (.silent run) world :=
  ⟨List.prefix_rfl, fun _ _ _ => rfl, fun _ found => (List.not_mem_nil found).elim⟩

theorem pure (result : α) : Follows good [] (Pure.pure result : Traced α) world := silent _

/-- A silent run that gives no result is along every plan. -/
theorem of_not_done {run : Exec α} (fails : ∀ result after, run world ≠ (.done result, after)) :
    Follows good plan (.silent run) world :=
  ⟨List.nil_prefix, fun result after done => absurd done (fails result after),
    fun _ found => (List.not_mem_nil found).elim⟩

theorem throw (fault : Fault) : Follows good plan (.silent (throw fault) : Traced α) world :=
  of_not_done nofun

/-- The moment at which a body is evaluated. -/
theorem body {at_ : Moment} {run : Exec α} (evaluates : at_.evaluates = true)
    (holds : good world at_) : Follows good [at_] (.moment at_ run) world := by
  have bodies : (moment at_ run).bodies world = [at_] := by
    show [at_].filter Moment.evaluates = _
    rw [List.filter_cons_of_pos evaluates]
    rfl
  refine ⟨bodies ▸ List.prefix_rfl, fun _ _ _ => bodies, fun entry found => ?_⟩
  obtain rfl := List.mem_singleton.mp found
  exact holds

/-- A moment at which something is only looked up. -/
theorem question {at_ : Moment} {run : Exec α} (evaluates : at_.evaluates = false)
    (holds : good world at_) : Follows good [] (.moment at_ run) world := by
  have bodies : (moment at_ run).bodies world = [] := by
    show [at_].filter Moment.evaluates = _
    rw [List.filter_cons_of_neg (by simp [evaluates])]
    rfl
  refine ⟨bodies ▸ List.prefix_rfl, fun _ _ _ => bodies, fun entry found => ?_⟩
  obtain rfl := List.mem_singleton.mp found
  exact holds

theorem bind {first : Traced α} {next : α → Traced β} (one : Follows good plan first world)
    (two : ∀ result after, first.run world = (.done result, after) →
      Follows good more (next result) after) :
    Follows good (plan ++ more) (first >>= next) world := by
  by_cases done : ∃ result after, first.run world = (.done result, after)
  · obtain ⟨result, after, done⟩ := done
    have whole := one.whole result after done
    have rest := two result after done
    have trace := trace_bind_of_done next done
    have bodies : (first >>= next).bodies world = plan ++ (next result).bodies after := by
      rw [← whole]
      unfold Traced.bodies
      rw [trace, List.map_append, List.filter_append]
    refine ⟨?_, fun final last ends => ?_, fun entry found => ?_⟩
    · rw [bodies]
      exact (List.prefix_append_right_inj plan).mpr rest.along
    · rw [run_bind, bind_of_done _ done] at ends
      rw [bodies, rest.whole final last ends]
    · rw [trace] at found
      rcases List.mem_append.mp found with before | later
      · exact one.good entry before
      · exact rest.good entry later
  · have fails : ∀ result after, first.run world ≠ (.done result, after) :=
      fun result after ends => done ⟨result, after, ends⟩
    have trace := trace_bind_of_not_done next fails
    have bodies : (first >>= next).bodies world = first.bodies world := by
      unfold Traced.bodies
      rw [trace]
    refine ⟨?_, fun final last ends => ?_, fun entry found => ?_⟩
    · rw [bodies]
      exact one.along.trans (List.prefix_append plan more)
    · rw [run_bind] at ends
      obtain ⟨result, between, ended, _⟩ := bind_done ends
      exact absurd ended (fails result between)
    · rw [trace] at found
      exact one.good entry found

/-- A first part that evaluates nothing. -/
theorem after {first : Traced α} {next : α → Traced β} (one : Follows good [] first world)
    (two : ∀ result after, first.run world = (.done result, after) →
      Follows good plan (next result) after) :
    Follows good plan (first >>= next) world :=
  one.bind two

/-- A last part that evaluates nothing. -/
theorem andThen {first : Traced α} {next : α → Traced β} (one : Follows good plan first world)
    (two : ∀ result after, first.run world = (.done result, after) →
      Follows good [] (next result) after) :
    Follows good plan (first >>= next) world := by
  have both := one.bind two
  rw [List.append_nil] at both
  exact both

theorem of_get {next : World → Traced β} (rest : Follows good plan (next world) world) :
    Follows good plan (Traced.silent get >>= next) world :=
  (silent get).after fun result after done => by
    cases done
    exact rest

theorem wrapFault {traced : Traced α} {wrap : Fault → Fault} (one : Follows good plan traced world) :
    Follows good plan (.wrapFault wrap traced) world :=
  ⟨one.along, fun result after done => one.whole result after (wrapFault_done done), one.good⟩

theorem withFrame {traced : Traced α} {context : ContextId} {frame : Frame}
    (inside : ∀ deeper, (world.context context).push? frame = .ok deeper →
      Follows good plan traced (world.withContext context fun _ => deeper)) :
    Follows good plan (.withFrame context frame traced) world := by
  cases pushed : (world.context context).push? frame with
  | error limit =>
      have trace : (Traced.withFrame context frame traced).trace world = [] := by
        unfold Traced.trace Traced.withFrame
        rw [pushed]
      have bodies : (Traced.withFrame context frame traced).bodies world = [] := by
        unfold Traced.bodies
        rw [trace]
        rfl
      refine ⟨bodies ▸ List.nil_prefix, fun result after done => ?_, fun entry found => ?_⟩
      · rw [run_withFrame, withFrame_of_full _ pushed] at done
        cases done
      · rw [trace] at found
        exact (List.not_mem_nil found).elim
  | ok deeper =>
      have one := inside deeper pushed
      have trace : (Traced.withFrame context frame traced).trace world =
          traced.trace (world.withContext context fun _ => deeper) := by
        unfold Traced.trace Traced.withFrame
        rw [pushed]
        rfl
      have bodies : (Traced.withFrame context frame traced).bodies world =
          traced.bodies (world.withContext context fun _ => deeper) := by
        unfold Traced.bodies
        rw [trace]
      refine ⟨bodies ▸ one.along, fun result after done => ?_, fun entry found => ?_⟩
      · rw [run_withFrame, withFrame_of_pushed _ rfl pushed] at done
        rcases ends : traced.run (world.withContext context fun _ => deeper) with ⟨outcome, last⟩
        rw [ends] at done
        cases done
        rw [bodies, one.whole result last ends]
      · rw [trace] at found
        exact one.good entry found

/-- A run with a handler that evaluates nothing and gives no result. -/
theorem recover {traced : Traced α} {handler : Fault → Traced α}
    (one : Follows good plan traced world)
    (rescue : ∀ fault after, traced.run world = (.failed fault, after) →
      Follows good [] (handler fault) after ∧
        ∀ result last, (handler fault).run after ≠ (.done result, last)) :
    Follows good plan (traced.recover handler) world := by
  by_cases failed : ∃ fault after, traced.run world = (.failed fault, after)
  · obtain ⟨fault, after, failed⟩ := failed
    obtain ⟨rest, fails⟩ := rescue fault after failed
    have trace : (traced.recover handler).trace world =
        traced.trace world ++ (handler fault).trace after := by
      unfold Traced.run at failed
      unfold Traced.trace Traced.recover
      rcases ends : traced world with ⟨record, outcome, last⟩
      rw [ends] at failed
      cases failed
      rfl
    have none : (handler fault).bodies after = [] := List.prefix_nil.mp rest.along
    have bodies : (traced.recover handler).bodies world = traced.bodies world := by
      unfold Traced.bodies at none ⊢
      rw [trace, List.map_append, List.filter_append, none, List.append_nil]
    refine ⟨bodies ▸ one.along, fun result last done => ?_, fun entry found => ?_⟩
    · rw [run_recover, recover_of_failed _ failed] at done
      exact absurd done (fails result last)
    · rw [trace] at found
      rcases List.mem_append.mp found with before | later
      · exact one.good entry before
      · exact rest.good entry later
  · have same : traced.recover handler world = traced world := by
      unfold Traced.recover
      rcases ends : traced world with ⟨record, outcome, last⟩
      cases outcome with
      | done result => rfl
      | exhausted => rfl
      | failed fault => exact absurd ⟨fault, last, congrArg Prod.snd ends⟩ failed
    have trace : (traced.recover handler).trace world = traced.trace world := congrArg Prod.fst same
    have runs : (traced.recover handler).run world = traced.run world := congrArg Prod.snd same
    have bodies : (traced.recover handler).bodies world = traced.bodies world := by
      unfold Traced.bodies
      rw [trace]
    refine ⟨bodies ▸ one.along, fun result last done => ?_, fun entry found => ?_⟩
    · rw [bodies]
      exact one.whole result last (runs ▸ done)
    · exact one.good entry (trace ▸ found)

end Follows

end Traced

end ScriptObjects

import ScriptObjects.Proofs.Refinement
import ScriptObjects.Proofs.Vacancy

/-!
# Declarations that collide

Constructions nest: annotations, host objects and bodies construct further instances on
the way.  To speak of all of them at once, the machine is compared with a guarded one
that sounds an alarm wherever the construction of some instance ends in a fault of a
declaration that the declarations of its class do not explain.  From states in which no
body declares variables the two agree, whatever the alarm would do: it never sounds.
-/

namespace ScriptObjects

set_option autoImplicit false

open Exec

/-! ## The guarded machine -/

/-- A construction, with an alarm in place of a fault that the declarations do not explain. -/
def guardConstruction (alarm : Exec Unit) (id : InstanceId) (run : Exec Unit) : Exec Unit :=
  fun world =>
    match run world with
    | (.failed fault, after) =>
        if world.explains (world.object id).cls fault then (.failed fault, after)
        else alarm after
    | answer => answer

/-- Performs requests as the machine does, with every construction guarded. -/
def guardedUpTo (alarm : Exec Unit) : Nat → Perform
  | 0, _ => Exec.exhaust
  | depth + 1, request =>
      match request with
      | .construct id options args =>
          guardConstruction alarm id
            (step (guardedUpTo alarm depth) (.construct id options args))
      | request => step (guardedUpTo alarm depth) request

/-! ## The machines agree -/

namespace World

/-- On a new instance no field was declared. -/
theorem pristine_allocate (world : World) (id : ClassId) :
    (world.allocate id).Pristine world.instances.next := by
  have allocates := allocate_allocates world id
  obtain ⟨levels, object, chain⟩ := allocates.object
  refine ⟨?_, ?_, ?_⟩
  · rw [allocates.size, Heap.next_index]
    exact Nat.lt_succ_self _
  · rw [object, (Continues.allocate world id).hierarchy.ancestors]
    exact chain
  · intro place level sits field _ slot found
    rw [(allocates.stores place level sits field.access).2] at found
    cases found

/-- What changes no store declares no field. -/
theorem Pristine.keep {before after : World} {id : InstanceId} (pristine : before.Pristine id)
    (continues : before.Continues after) (stores : after.stores = before.stores) :
    after.Pristine id := by
  obtain ⟨cls, levels⟩ := continues.objects id pristine.inside
  refine ⟨Nat.lt_of_lt_of_le pristine.inside continues.instances, ?_, ?_⟩
  · rw [cls, levels, continues.hierarchy.ancestors]
    exact pristine.chain
  · intro place level sits field member
    rw [continues.level?_eq pristine.inside] at sits
    rw [continues.hierarchy.ask ClassDef.fields fun _ => rfl] at member
    unfold Vacant World.store
    rw [stores]
    exact pristine.vacant place level sits field member

end World

/-- The regime of the states in which no body declares variables; what is constructed next has no
fields yet. -/
def Regime.quiet : Regime (fun _ => False) (fun _ => True) where
  holds := World.Quiet
  fresh := World.Pristine
  lax := False
  evolves quiet evolves := quiet.evolves evolves
  allocate world id := by
    have instances : (world.resolveBases (world.ancestors id)).instances = world.instances := by
      rw [World.resolveBases_eq]
    have pristine := (world.resolveBases (world.ancestors id)).pristine_allocate id
    rw [instances] at pristine
    exact pristine
  bindLevel _ _ pristine := pristine.keep {} rfl
  adopt host pristine := pristine.keep (.withObject _ _ _ fun _ => ⟨rfl, rfl⟩) rfl

theorem Regime.quiet_pushes : Regime.quiet.Pushes := fun quiet _ => quiet.withContext _ _

/-- A construction that ends in no unexplained fault is not changed by its guard. -/
theorem guardConstruction_eq {alarm run : Exec Unit} {id : InstanceId} {world : World}
    (explained : ∀ fault after, run world = (.failed fault, after) →
      world.explains (world.object id).cls fault = true) :
    guardConstruction alarm id run world = run world := by
  unfold guardConstruction
  rcases ends : run world with ⟨outcome, after⟩
  cases outcome with
  | failed fault => exact if_pos (explained fault after ends)
  | done | exhausted => rfl

theorem guardedUpTo_tracks (alarm : Exec Unit) (budget : Nat) :
    (performUpTo budget).Tracks Regime.quiet (guardedUpTo alarm budget) := by
  induction budget with
  | zero => exact ⟨performUpTo_leads 0, fun _ _ _ _ _ _ => .inl rfl⟩
  | succ budget ih =>
      refine ⟨performUpTo_leads _, fun request world permits opens fresh quiet => ?_⟩
      have steps := @step_tracks _ _ _ _ _ ih Regime.quiet_pushes request fun _ _ _ _ => trivial
      obtain same | ⟨lax, _⟩ := (steps world permits opens).2 quiet
      · left
        cases request with
        | call | read | assign => exact same
        | construct id options args =>
            refine (guardConstruction_eq fun fault after ends => ?_).trans same
            rw [same] at ends
            exact constructInstance_explained (performUpTo_leads budget) quiet
              (fresh id options args rfl) ends
      · exact lax.elim

/-! ## Fresh instances -/

namespace World

theorem newInstance_pristine {world allocated : World} {cls : ClassId} {options : CreateOptions}
    {created : InstanceId} (allocates : newInstance cls options world = (.done created, allocated)) :
    allocated.Pristine created ∧ (allocated.object created).cls = cls := by
  cases creatable : options.has .enforceCreation || (world.cls cls).mode.creatable with
  | true =>
      rw [newInstance_apply creatable] at allocates
      cases allocates
      have fresh := (allocate_allocates (world.resolveBases (world.ancestors cls)) cls).object
      have instances : (world.resolveBases (world.ancestors cls)).instances = world.instances := by
        rw [World.resolveBases_eq]
      rw [instances] at fresh
      obtain ⟨levels, object, _⟩ := fresh
      refine ⟨Regime.quiet.allocate world cls, ?_⟩
      rw [object]
      rfl
  | false =>
      rw [newInstance_of_forbidden creatable] at allocates
      cases allocates

/-- In a session in which no body declares variables, the construction of a freshly allocated
instance ends in no fault of a declaration, unless a class of its chain hides a function by the
field; and neither does any construction nested in it, however deep. -/
theorem fresh_construction_explained {world allocated : World} {cls : ClassId}
    {creation : CreateOptions} {created : InstanceId} (reachable : Reachable world)
    (permits : world.Permits fun _ => False)
    (allocates : newInstance cls creation world = (.done created, allocated)) (budget : Nat)
    (options : CreateOptions) (args : List Value) :
    (∀ alarm, guardedUpTo alarm budget (.construct created options args) allocated =
      performUpTo budget (.construct created options args) allocated) ∧
    ∀ className field cause after,
      performUpTo budget (.construct created options args) allocated =
        (.failed (.declaration className field cause), after) →
      cause = .alreadyDeclared field ∧ ∃ member ∈ allocated.ancestors cls,
        (allocated.cls member).name = className ∧ allocated.hidesFunction member field = true := by
  obtain ⟨alive, sound⟩ := reachable.sound
  obtain ⟨pristine, same⟩ := newInstance_pristine allocates
  have evolves : Evolves (fun _ => False) (fun _ => True) world allocated := by
    have leads := newInstance_leads cls creation world permits fun _ _ => trivial
    rw [allocates] at leads
    exact leads
  have quiet : allocated.Quiet := Quiet.evolves ⟨alive, sound, permits⟩ evolves
  refine ⟨fun alarm => ?_, fun className field cause after ends => ?_⟩
  · have agrees := (guardedUpTo_tracks alarm budget).agrees (.construct created options args)
      allocated quiet.permits (fun _ _ => trivial)
      (fun _ _ _ equal => by cases equal; exact pristine) quiet
    exact agrees.resolve_right fun lax => lax.1
  · cases budget with
    | zero => cases ends
    | succ budget =>
        have explained := constructInstance_explained (performUpTo_leads budget) quiet pristine ends
        rw [same] at explained
        unfold explains at explained
        simpa only [Bool.and_eq_true, decide_eq_true_eq, List.any_eq_true] using explained

/-- Whether the bodies of each function of the assembly, of each class and of each function value
pass a check. -/
def checkBodies (passes : Expr → Bool) (world : World) : Bool :=
  (world.functions.flatMap FunctionDecl.bodies ++ world.classes.toList.flatMap ClassDef.bodies ++
    world.callables.toList.flatMap fun callable =>
      callable.function.toList.flatMap FunctionDecl.bodies).all passes

theorem allBodies_of_check {passes : Expr → Bool} {world : World} {kind : List Expr → Prop}
    (checked : world.checkBodies passes = true)
    (sound : ∀ bodies, (∀ body ∈ bodies, passes body = true) → kind bodies) :
    world.AllBodies kind := by
  unfold checkBodies at checked
  rw [List.all_append, List.all_append, Bool.and_eq_true, Bool.and_eq_true] at checked
  obtain ⟨⟨functions, classes⟩, callables⟩ := checked
  refine ⟨fun id => ?_, fun function member => ?_, fun callable => ?_⟩
  · refine @Heap.get_of_all _ _ _ world.classes (fun cls => kind cls.bodies) ?_ ?_ id
    · exact fun cls inside => sound _ fun body member =>
        List.all_eq_true.mp classes body (List.mem_flatMap.mpr ⟨cls, inside, member⟩)
    · exact sound _ fun body member => (List.not_mem_nil member).elim
  · exact sound _ fun body inside =>
      List.all_eq_true.mp functions body (List.mem_flatMap.mpr ⟨function, member, inside⟩)
  · refine @Heap.get_of_all _ _ _ world.callables
      (fun callable => ∀ function, callable.function = some function → kind function.bodies)
      ?_ ?_ callable
    · intro value inside function held
      refine sound _ fun body member => List.all_eq_true.mp callables body ?_
      refine List.mem_flatMap.mpr ⟨value, inside, List.mem_flatMap.mpr ⟨function, ?_, member⟩⟩
      rw [held]
      exact List.mem_singleton_self function
    · exact fun function held => nomatch held

theorem permits_of_check {world : World}
    (checked : world.checkBodies (fun body => body.declaredNames.isEmpty) = true) :
    world.Permits fun _ => False := by
  refine permits_iff.mpr (allBodies_of_check checked fun bodies all name declared => ?_)
  obtain ⟨body, inside, member⟩ := Expr.mem_declaredNamesOfAll.mp declared
  rw [List.isEmpty_iff.mp (all body inside)] at member
  exact List.not_mem_nil member

theorem newInstance_sample {specs : List ClassSpec} {cls : ClassId} {id : InstanceId}
    (created : (newInstance cls .standard (sampleStart specs)).1.result? = some id) :
    newInstance cls .standard (sampleStart specs) = (.done id, sampleBefore specs cls) :=
  done_of_result? created

/-- A class whose field looks up its function, and a class derived from it with a field of the same
name. -/
def overSpecs : List ClassSpec :=
  [bareClass "A" none [bareField "y" (some (.get "x"))] [bareFunction "x" (.int 1)],
   bareClass "C" (some "A") [bareField "x" (some (.int 2))] []]

/-- The field of the derived class is refused, and hides the function that was looked up. -/
theorem fresh_construction_explained_over :
    guardedUpTo (Exec.fail .assemblyDropped) 9 (.construct ⟨0⟩ .standard [])
      (sampleBefore overSpecs ⟨1⟩) =
        performUpTo 9 (.construct ⟨0⟩ .standard []) (sampleBefore overSpecs ⟨1⟩) ∧
    ∃ cause after, performUpTo 9 (.construct ⟨0⟩ .standard []) (sampleBefore overSpecs ⟨1⟩) =
        (.failed (.declaration "C" "x" cause), after) ∧ cause = .alreadyDeclared "x" ∧
      ∃ member ∈ (sampleBefore overSpecs ⟨1⟩).ancestors ⟨1⟩,
        ((sampleBefore overSpecs ⟨1⟩).cls member).name = "C" ∧
          (sampleBefore overSpecs ⟨1⟩).hidesFunction member "x" = true := by
  have created : newInstance ⟨1⟩ .standard (sampleStart overSpecs) =
      (.done ⟨0⟩, sampleBefore overSpecs ⟨1⟩) := newInstance_sample (by decide +kernel)
  obtain ⟨agrees, explained⟩ := fresh_construction_explained (reachable_sampleStart overSpecs)
    (permits_of_check (by decide +kernel)) created 9 .standard []
  have fails : performUpTo 9 (.construct ⟨0⟩ .standard []) (sampleBefore overSpecs ⟨1⟩) =
      (.failed (.declaration "C" "x" (.alreadyDeclared "x")), _) :=
    failed_of_fault? (by decide +kernel)
  exact ⟨agrees _, _, _, fails, explained _ _ _ _ fails⟩

/-! ## A field that is refused -/

theorem fresh_construction_refused : ¬ ∀ (defined start allocated : World) (cls : ClassId)
    (options : CreateOptions) (args : List Value) (created : InstanceId) (budget : Nat),
    Reachable defined → validate.run defined = (.ok (), start) → start.DistinctHashes →
    start.Permits (fun _ => False) →
    newInstance cls options start = (.done created, allocated) →
    ∀ className field cause after,
      performUpTo budget (.construct created options args) allocated ≠
        (.failed (.declaration className field cause), after) := by
  intro claim
  refine claim (defining default overSpecs) (sampleStart overSpecs) (sampleBefore overSpecs ⟨1⟩) ⟨1⟩
    .standard [] ⟨0⟩ 9 (reachable_defining default overSpecs) rfl
    (distinctHashes_of_nodup (by decide +kernel)) (permits_of_check (by decide +kernel))
    (newInstance_sample (by decide +kernel)) "C" "x" (.alreadyDeclared "x") _
    (failed_of_fault? (by decide +kernel))

end World

end ScriptObjects

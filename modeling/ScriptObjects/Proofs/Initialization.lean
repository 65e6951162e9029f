import ScriptObjects.Proofs.Reconstruction
import ScriptObjects.Proofs.Surfacing

/-!
# An instance is initialized once

The mark that an instance is initialized is set at one place, the last step of its construction,
and it is taken off nowhere.  A construction has many ways to fail before it comes there, on every
level, and it undoes nothing of what it did; but the mark it leaves as it was.  From this it is
known of any number of attempts, whatever happens between them, which of them marks the instance.

Once an instance is marked, an attempt to construct it looks at the mark and at nothing else.
-/

namespace ScriptObjects

set_option autoImplicit false

open Exec World

/-! ## The mark stays -/

section

variable {mark : Instance → Bool} (dropped : ∀ object : Instance, mark object = true →
  mark { object with alive := false } = true)
include dropped

theorem HostChange.keepsMark {first second : World} (change : HostChange first second) :
    KeepsMark mark first second := by
  cases change with
  | drop id => exact .withObject first id dropped
  | context | withdraw | declare | freeStore | reference | classRef | bindReference | bindings
  | heldFrames | log => exact .of_same rfl

/-- A mark that outlasts the end of an instance is taken off nowhere. -/
theorem Proceeds.keepsMark (lasting : Lasting mark) {first second : World}
    (proceeds : Proceeds first second) : KeepsMark mark first second := by
  induction proceeds with
  | refl => exact .refl _
  | run _ change ih => exact ih.trans (change.keepsMark lasting)
  | host _ change ih => exact ih.trans (change.keepsMark dropped)

end

/-! ## An attempt -/

/-- A run that marks an instance with its last step, if it is asked to: where the instance is not
marked, it is marked afterwards exactly when the run gave a result and was asked. -/
def MarksLast (asked : Bool) (id : InstanceId) (run : Exec Unit) (now : World) : Prop :=
  now.Live → id.index < now.instances.size → (now.object id).initialized = false →
    (((run now).2.object id).initialized = true ↔ (run now).1 = .done () ∧ asked = true)

namespace MarksLast

variable {α : Type} {asked : Bool} {id : InstanceId} {now : World}

theorem congr {run other : Exec Unit} (same : run now = other now)
    (marks : MarksLast asked id other now) : MarksLast asked id run now := by
  unfold MarksLast
  rw [same]
  exact marks

/-- What comes before the last step may attach annotations to the instance, but does not mark it. -/
theorem after {uses : List (AnnotationUse ClassRefId)} {run : Exec α} {next : α → Exec Unit}
    (first : AttachesAt now id False uses run now)
    (second : ∀ result after, run now = (.done result, after) →
      MarksLast asked id (next result) after) : MarksLast asked id (run >>= next) now := by
  intro live inside new
  have attaches := first (.refl live) inside
  have unmarked := attaches.mark not_false
  rw [new] at unmarked
  rw [bind_apply]
  rcases ends : run now with ⟨outcome, after⟩
  rw [ends] at attaches unmarked
  cases outcome with
  | done result =>
      have evolves := attaches.spares.evolves
      exact second result after ends (live.later evolves)
        (Nat.lt_of_lt_of_le inside evolves.continues.instances) unmarked
  | failed fault => simp [unmarked]
  | exhausted => simp [unmarked]

end MarksLast

section

variable {perform : Perform} (nested : perform.Sparing) {id : InstanceId} {options : CreateOptions}
  {args : List Value}
include nested

theorem finishInstance_marksLast (className : String) (context : ContextId) (now : World) :
    MarksLast (options.has .markInitialized) id
      (finishInstance perform id options args className context) now := by
  have marks : ∀ between, MarksLast (options.has .markInitialized) id (do
      if options.has .markInitialized then
        Exec.change (·.withObject id fun object => { object with initialized := true }) :
          Exec Unit) between := by
    intro between _ inside new
    cases asked : options.has .markInitialized with
    | true =>
        have marked : (between.withObject id fun object =>
            { object with initialized := true }).object id =
              { between.object id with initialized := true } := by
          rw [object_withObject, if_pos ⟨rfl, inside⟩]
        simp [Exec.change, marked]
    | false => simpa [pure_apply] using new
  unfold finishInstance
  by_cases wanted : options.has .callConstructor = true
  · rw [if_pos wanted]
    have calls := wrapConstructor_sparing nested id args className context (fun _ => False) now
    exact .after (.of_spares calls) fun _ between _ => marks between
  · rw [if_neg wanted]
    exact marks now

/-- Neither the levels nor the constructor of an instance mark it. -/
theorem constructInstance_marksLast {now : World} (new : (now.object id).initialized = false) :
    MarksLast (options.has .markInitialized) id (constructInstance perform id options args)
      now := by
  refine .congr (constructInstance_of_new new) fun live inside _ => ?_
  have prepares := constructionContext_sparing options (fun _ => False) now
  refine MarksLast.after (.of_spares prepares) (fun context ready done => ?_) live inside new
  have continues := (prepares.ends live done).evolves.continues
  have levels : (ready.object id).levels = (now.object id).levels :=
    (continues.objects id inside).2
  intro live
  have below : AttachesAt ready id False _
      (constructLevels perform id options context (now.object id).levels.length) ready :=
    constructLevels_attaches nested live.2.laid options context rfl
      (by rw [List.length_map, levels])
  exact MarksLast.after below
    (fun _ between _ => finishInstance_marksLast nested _ context between) live

end

/-- An attempt to construct an instance that is marked is refused at once. -/
theorem performUpTo_construct_initialized {world : World} {id : InstanceId}
    (initialized : (world.object id).initialized = true) (budget : Nat) (options : CreateOptions)
    (args : List Value) :
    performUpTo (budget + 1) (.construct id options args) world =
      (.failed (.alreadyInitialized (world.classOf id).name (World.instanceNumber id)), world) :=
  constructInstance_of_initialized initialized

namespace Account

variable {allowed : Fault → Prop} {α β : Type} {perform : Perform} {record : Record} {world : World}

/-- After a silent run that gave a result, the events are those of what follows. -/
theorem events_after {run : Exec α} {next : Perform → α → Exec β}
    {second : ∀ result, Account allowed fun perform => next perform result} {result : α}
    {after : World} (ends : run world = (.done result, after)) :
    (Account.after second : Account allowed fun perform => run >>= next perform).events perform
        record world = (second result).events perform record after := by
  simp only [Account.after, Account.events, ends, List.nil_append]

theorem events_after_failed {run : Exec α} {next : Perform → α → Exec β}
    {second : ∀ result, Account allowed fun perform => next perform result} {fault : Fault}
    {after : World} (ends : run world = (.failed fault, after)) :
    (Account.after second : Account allowed fun perform => run >>= next perform).events perform
        record world = [] := by
  simp only [Account.after, Account.events, ends, List.nil_append]

theorem events_either_of_true {condition : Prop} [decidable : Decidable condition]
    {part other : Perform → Exec α} {first : Account allowed part} {second : Account allowed other}
    (holds : condition) :
    (Account.either first second : Account allowed fun perform =>
        if condition then part perform else other perform).events perform record world =
      first.events perform record world := by
  unfold Account.either
  split
  · rfl
  · next fails => exact absurd holds fails

end Account

/-- Nothing is evaluated in such an attempt. -/
theorem events_construct_initialized {world : World} {id : InstanceId}
    (initialized : (world.object id).initialized = true) (budget : Nat) (options : CreateOptions)
    (args : List Value) :
    (Operation.ofRequest (.construct id options args)).events (budget + 1) world = [] := by
  -- The account looks at the instance, then at its class, and then at the mark.
  have looks : (get : Exec World) world = (.done world, world) := rfl
  refine (Account.events_after looks).trans ?_
  refine (Account.events_after looks).trans ?_
  refine (Account.events_either_of_true initialized).trans ?_
  exact Account.events_after_failed rfl

/-! ## Any number of attempts -/

theorem Operation.run_proceeds (operation : Operation) (budget : Nat) (world : World) :
    Proceeds world (operation.run (performUpTo budget) world).2 := by
  have tracks := operation.run_tracks
    ((performUpTo_leads budget).tracks (fun _ => True) (fun _ => True)) fun _ _ => trivial
  exact LeadsFreely.proceeds tracks.leads world

/-- The session goes on in any way: with whole operations, attempts to construct an instance among
them, with what runs and the host do at any moment, with definitions, and with the end of the
assembly. -/
inductive Unfolds : World → World → Prop
  | refl (world : World) : Unfolds world world
  | proceed {first second third : World} (before : Unfolds first second)
      (proceeds : Proceeds second third) : Unfolds first third
  | operation {first second : World} (before : Unfolds first second) (budget : Nat)
      (operation : Operation) : Unfolds first (operation.run (performUpTo budget) second).2
  | enlist {first second third : World} (before : Unfolds first second)
      (enlists : Enlists second third) : Unfolds first third
  | dropAssembly {first second : World} (before : Unfolds first second) :
      Unfolds first { second with alive := false }

/-- Nothing but the host takes the assembly away. -/
theorem Proceeds.alive {first second : World} (proceeds : Proceeds first second) :
    second.alive = first.alive := by
  induction proceeds with
  | refl => rfl
  | run _ change ih => exact change.continues.alive.trans ih
  | host _ change ih => cases change <;> exact ih

namespace Unfolds

variable {first last : World}

theorem keepsMark {mark : Instance → Bool} (lasting : Lasting mark)
    (dropped : ∀ object : Instance, mark object = true → mark { object with alive := false } = true)
    (unfolds : Unfolds first last) : KeepsMark mark first last := by
  induction unfolds with
  | refl => exact .refl first
  | proceed _ proceeds ih => exact ih.trans (proceeds.keepsMark dropped lasting)
  | operation _ budget operation ih =>
      exact ih.trans ((operation.run_proceeds budget _).keepsMark dropped lasting)
  | enlist _ enlists ih =>
      have rest := enlists.rest
      exact ih.trans (.of_same (by rw [rest]))
  | dropAssembly _ ih => exact ih.trans (.of_same rfl)

/-- While the assembly is there, the session has reached a state like any other, and the instances
that were there still are. -/
theorem reached (unfolds : Unfolds first last) (reachable : Reachable first)
    (alive : last.alive = true) :
    Reachable last ∧ first.instances.size ≤ last.instances.size := by
  have proceeded : ∀ {second third : World}, Proceeds second third →
      (second.alive = true → Reachable second ∧ first.instances.size ≤ second.instances.size) →
      third.alive = true → Reachable third ∧ first.instances.size ≤ third.instances.size := by
    intro second third proceeds before alive
    obtain ⟨reached, grown⟩ := before (proceeds.alive.symm.trans alive)
    have continues := (proceeds.sound_continues reached.sound.1 reached.sound.2).2
    exact ⟨.proceed reached proceeds, Nat.le_trans grown continues.instances⟩
  induction unfolds with
  | refl => exact ⟨reachable, Nat.le_refl _⟩
  | proceed _ proceeds ih => exact proceeded proceeds ih alive
  | operation _ budget operation ih => exact proceeded (operation.run_proceeds budget _) ih alive
  | enlist _ enlists ih =>
      obtain ⟨reached, grown⟩ := ih (enlists.alive.symm.trans alive)
      refine ⟨.enlist reached enlists, ?_⟩
      rw [enlists.rest]
      exact grown
  | dropAssembly _ ih => cases alive

end Unfolds

/-- What comes of attempts to construct an instance in a state, with any options and arguments. -/
structure World.InitializesOnce (world : World) (id : InstanceId) : Prop where
  /-- An attempt that succeeds finds the instance without a mark, and marks it exactly if it is asked
  to. -/
  succeeds : ∀ budget options args after,
    performUpTo budget (.construct id options args) world = (.done (), after) →
      (world.object id).initialized = false ∧
      (after.object id).initialized = options.has .markInitialized
  /-- An attempt that fails, at whatever stage, leaves the mark as it was. -/
  fails : ∀ budget options args outcome after,
    performUpTo budget (.construct id options args) world = (outcome, after) → outcome ≠ .done () →
      (after.object id).initialized = (world.object id).initialized
  /-- An attempt on an instance with a mark is refused: no body is evaluated, and nothing at all
  changes. -/
  refuses : (world.object id).initialized = true → ∀ budget options args,
    performUpTo (budget + 1) (.construct id options args) world =
        (.failed (.alreadyInitialized (world.classOf id).name (World.instanceNumber id)), world) ∧
      (Operation.ofRequest (.construct id options args)).events (budget + 1) world = []

theorem World.Live.initializesOnce {world : World} (live : world.Live) {id : InstanceId}
    (inside : id.index < world.instances.size) : world.InitializesOnce id := by
  have marks : ∀ budget options args outcome after,
      performUpTo (budget + 1) (.construct id options args) world = (outcome, after) →
      (world.object id).initialized = false →
      ((after.object id).initialized = true ↔
        outcome = .done () ∧ options.has .markInitialized = true) := by
    intro budget options args outcome after ends new
    have marks : MarksLast (options.has .markInitialized) id
        (constructInstance (performUpTo budget) id options args) world :=
      constructInstance_marksLast (performUpTo_sparing budget) new
    have last := marks live inside new
    have same : constructInstance (performUpTo budget) id options args world = (outcome, after) :=
      ends
    rw [same] at last
    exact last
  constructor
  case refuses =>
    exact fun initialized budget options args =>
      ⟨performUpTo_construct_initialized initialized budget options args,
        events_construct_initialized initialized budget options args⟩
  case succeeds =>
    intro budget options args after ends
    cases budget with
    | zero => cases ends
    | succ budget =>
        cases initialized : (world.object id).initialized with
        | true =>
            rw [performUpTo_construct_initialized initialized] at ends
            cases ends
        | false =>
            refine ⟨rfl, ?_⟩
            rw [Bool.eq_iff_iff, marks budget options args _ after ends initialized]
            simp
  case fails =>
    intro budget options args outcome after ends failed
    cases budget with
    | zero =>
        cases ends
        rfl
    | succ budget =>
        cases initialized : (world.object id).initialized with
        | true =>
            rw [performUpTo_construct_initialized initialized] at ends
            cases ends
            exact initialized
        | false =>
            rw [Bool.eq_false_iff, ne_eq, marks budget options args _ after ends initialized]
            exact fun both => failed both.1

/-- However a session goes on from a state in which an instance is there, and however many attempts
to construct the instance are made on the way: the mark that it is initialized stays once it is set,
and at every moment an attempt that fails leaves the mark as it was, one that succeeds sets it
exactly if it is asked to, and none gets anywhere when it is set. -/
theorem World.initialized_once {first last : World} (reachable : Reachable first)
    {id : InstanceId} (inside : id.index < first.instances.size) (unfolds : Unfolds first last) :
    ((first.object id).initialized = true → (last.object id).initialized = true) ∧
      (last.alive = true → last.InitializesOnce id) := by
  refine ⟨unfolds.keepsMark .initialized (fun _ marked => marked) id, fun alive => ?_⟩
  obtain ⟨reached, grown⟩ := unfolds.reached reachable alive
  exact Live.initializesOnce reached.sound (Nat.lt_of_lt_of_le inside grown)

/-- A class whose constructor refuses to run without arguments. -/
def gatedSpecs : List ClassSpec :=
  [bareClass "Gate" none []
    [bareFunction constructorName (.branch (.arg 0) .null (.throw "closed"))]]

/-- An attempt at an instance of the class, with the options and arguments given. -/
def gateAttempt (options : CreateOptions) (args : List Value) : Operation :=
  .ofRequest (.construct ⟨0⟩ options args)

/-- The state after attempts to construct an instance of the class. -/
def gateAfter (attempts : List Operation) : World :=
  attempts.foldl (fun world attempt => (attempt.run (performUpTo 9) world).2)
    (sampleBefore gatedSpecs ⟨0⟩)

theorem unfolds_gateAfter (attempts : List Operation) :
    Unfolds (sampleBefore gatedSpecs ⟨0⟩) (gateAfter attempts) := by
  suffices goes : ∀ world, Unfolds (sampleBefore gatedSpecs ⟨0⟩) world →
      Unfolds (sampleBefore gatedSpecs ⟨0⟩)
        (attempts.foldl (fun world attempt => (attempt.run (performUpTo 9) world).2) world) from
    goes _ (.refl _)
  induction attempts with
  | nil => exact fun _ before => before
  | cons attempt rest ih => exact fun _ before => ih _ (.operation before 9 attempt)

/-- An attempt fails, one succeeds that is not asked to mark the instance, and one that is; another
is refused. -/
theorem World.initialized_once_gate :
    let failing := gateAttempt .standard []
    let opening := gateAttempt reopening [.bool true]
    let marking := gateAttempt .standard [.bool true]
    ((gateAfter [failing]).object ⟨0⟩).initialized = false ∧
    ((gateAfter [failing, opening]).object ⟨0⟩).initialized = false ∧
    ((gateAfter [failing, opening, marking]).object ⟨0⟩).initialized = true ∧
    performUpTo 9 (.construct ⟨0⟩ .standard []) (gateAfter [failing, opening, marking]) =
      (.failed (.alreadyInitialized "Gate" 1), gateAfter [failing, opening, marking]) := by
  intro failing opening marking
  have proceeds := LeadsFreely.proceeds (newInstance_leads ⟨0⟩ .standard) (sampleStart gatedSpecs)
  have reachable : Reachable (sampleBefore gatedSpecs ⟨0⟩) :=
    .proceed (reachable_sampleStart gatedSpecs) proceeds
  have there : (⟨0⟩ : InstanceId).index < (sampleBefore gatedSpecs ⟨0⟩).instances.size := by
    decide +kernel
  have once := fun attempts => (initialized_once reachable there (unfolds_gateAfter attempts)).2
  have closed : (performUpTo 9 (.construct ⟨0⟩ .standard []) (gateAfter [])).1.fault? =
      some (.construction "Gate" (.script "closed")) := by decide +kernel
  have failed := (once [] (by decide +kernel)).fails 9 .standard [] _ _ (failed_of_fault? closed)
    nofun
  have opened := (once [failing] (by decide +kernel)).succeeds 9 reopening [.bool true] _
    (done_of_result? (by decide +kernel))
  have marked := (once [failing, opening] (by decide +kernel)).succeeds 9 .standard [.bool true] _
    (done_of_result? (by decide +kernel))
  have refused := ((once [failing, opening, marking] (by decide +kernel)).refuses marked.2 8
    .standard []).1
  have named : ((gateAfter [failing, opening, marking]).classOf ⟨0⟩).name = "Gate" := by
    decide +kernel
  rw [named] at refused
  have new : ((gateAfter []).object ⟨0⟩).initialized = false := by decide +kernel
  exact ⟨failed.trans new, opened.2, marked.2, refused⟩

end ScriptObjects

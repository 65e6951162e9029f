import ScriptObjects.Proofs.Operations

/-!
# Call stacks

A context holds one frame for each call and for each phase of construction in progress on
it, above the frames it held when the outermost activity began, and it gives them up
again however they end.

To speak of every moment of a run at once, the machine is compared with one that keeps
account of the calls and phases in progress by itself.  That machine surveys all contexts
before and after each request, each body of a call and each phase, and sounds an alarm
where the frames are not the ones accounted for, or where a context has left its limit.
From every state the two machines agree, whatever the alarm would do: it never sounds.
-/

namespace ScriptObjects

set_option autoImplicit false

open Exec

/-! ## What is in progress -/

/-- The frames of the calls and phases in progress, innermost first, each with its context. -/
abbrev InProgress := List (ContextId × Frame)

namespace InProgress

/-- The frames in progress on one context, innermost first. -/
def on (running : InProgress) (context : ContextId) : List Frame :=
  (running.filter (·.1 = context)).map Prod.snd

theorem on_cons (running : InProgress) (context other : ContextId) (frame : Frame) :
    on ((context, frame) :: running) other =
      if other = context then frame :: running.on other else running.on other := by
  by_cases same : other = context
  · subst same
    simp [on]
  · simp [on, same, Ne.symm same]

theorem on_eq_nil {running : InProgress} {context : ContextId}
    (absent : ∀ held ∈ running, held.1 ≠ context) : running.on context = [] := by
  unfold on
  rw [List.map_eq_nil_iff, List.filter_eq_nil_iff]
  intro held member
  simpa using absent held member

end InProgress

/-- Whether a context is within its limit. -/
def Context.fits (context : Context) : Bool := context.limit.all (context.depth ≤ ·)

theorem Context.fits_of_push? {context deeper : Context} {frame : Frame}
    (pushed : context.push? frame = .ok deeper) :
    deeper.frames = frame :: context.frames ∧ deeper.fits = true := by
  unfold Context.push? at pushed
  split at pushed
  · next limit bounded =>
      split at pushed
      · cases pushed
      · next free =>
          cases pushed
          refine ⟨rfl, ?_⟩
          simp only [Context.fits, bounded, Option.all_some]
          exact decide_eq_true (Nat.lt_of_not_le free)
  · next unbounded =>
      cases pushed
      exact ⟨rfl, by simp [Context.fits, unbounded]⟩

namespace World

/-- What is in progress once a frame was pushed; a handle that names no context holds none. -/
def entering (world : World) (context : ContextId) (frame : Frame) (running : InProgress) :
    InProgress :=
  if context.index < world.contexts.size then (context, frame) :: running else running

/-- Whether every context has the frames it had at the entry with those in progress on it above
them, and has not left its limit since.  A context made since had none at the entry. -/
def accountsFor (world entry : World) (running : InProgress) : Bool :=
  world.contexts.handles.all fun id =>
    (world.context id).frames = running.on id ++ (entry.context id).frames &&
      (!(entry.context id).fits || (world.context id).fits)

end World

/-! ## The surveying machine -/

/-- A way to run a part of an activity with one more frame on a context.  The part is given in
terms of the way to perform the requests nested in it. -/
structure Framing where
  around : {α : Type} → ContextId → Frame → (Perform → Exec α) → Exec α

/-- The part runs with the frame, and its requests are performed as all others are. -/
def Perform.framing (perform : Perform) : Framing where
  around context frame part := withFrame context frame (part perform)

/-- What a call does within its frame. -/
def callBody (callable : Callable) (args : List Value) (context : ContextId)
    (perform : Perform) : Exec Value := do
  match callable.function with
  | none => return .null
  | some function =>
      let result ← runBody perform callable function.body args context
      checkReturn function.returns result

/-- Calls a function value on a context, its body framed in a given way. -/
def callFunctionBy (framing : Framing) (id : CallableId) (args : List Value)
    (context : ContextId) : Exec Value := do
  Exec.requireAssembly
  let callable := (← get).callables.get id
  framing.around context callable.frame (callBody callable args context)

/-- Calls the constructor of an instance between the hooks of its annotations, the phase before
it framed in a given way. -/
def callConstructorBy (framing : Framing) (perform : Perform) (id : InstanceId)
    (args : List Value) (context : ContextId) : Exec Unit := do
  let constructor ← resolveConstructor perform id
  let annotations := ((← get).object id).annotations
  let phase := Frame.synthetic (((← get).classOf id).name ++ "." ++ MetaKey.preConstruct.methodName)
  let args ← framing.around context phase fun perform =>
    preConstruct perform id context args annotations
  let _ ← perform (.call constructor args context)
  postConstruct perform id context args annotations

/-- What follows the levels of an instance, the phase before the constructor framed in a given
way. -/
def finishInstanceBy (framing : Framing) (perform : Perform) (id : InstanceId)
    (options : CreateOptions) (args : List Value) (className : String) (context : ContextId) :
    Exec Unit := do
  if options.has .callConstructor then
    Exec.wrapFault (.construction className) (callConstructorBy framing perform id args context)
  if options.has .markInitialized then
    Exec.change (·.withObject id fun object => { object with initialized := true })

/-- Runs the construction protocol on an instance, the phase before the constructor framed in a
given way. -/
def constructInstanceBy (framing : Framing) (perform : Perform) (id : InstanceId)
    (options : CreateOptions) (args : List Value) : Exec Unit := do
  let object := (← get).object id
  let className := ((← get).classOf id).name
  if object.initialized then
    throw (.alreadyInitialized className (World.instanceNumber id))
  let context ← constructionContext options
  constructLevels perform id options context object.levels.length
  finishInstanceBy framing perform id options args className context

/-- Answers one request, with calls and phases framed in a given way. -/
def stepBy (framing : Framing) (perform : Perform) : Perform
  | .call callable args context => callFunctionBy framing callable args context
  | .read scope name => readScope perform name scope
  | .assign scope name value => assignScope perform name value scope
  | .construct id options args => constructInstanceBy framing perform id options args

/-- With the plain frames a step is the step of the machine. -/
theorem stepBy_framing (perform : Perform) : stepBy perform.framing perform = step perform := by
  funext request
  cases request with
  | call | read | assign => rfl
  | construct id options args =>
      funext world
      obtain ⟨flags, _ | context⟩ := options <;> rfl

section

variable {framing : Framing} {perform : Perform} {id : InstanceId} {options : CreateOptions}
  {args : List Value} {world : World}

theorem constructInstanceBy_of_initialized (initialized : (world.object id).initialized = true) :
    constructInstanceBy framing perform id options args world =
      (.failed (.alreadyInitialized (world.classOf id).name (World.instanceNumber id)), world) := by
  unfold constructInstanceBy
  rw [get_bind_apply, get_bind_apply, if_pos initialized, throw_bind_apply]

theorem constructInstanceBy_of_new (new : (world.object id).initialized = false) :
    constructInstanceBy framing perform id options args world = (do
      let context ← constructionContext options
      constructLevels perform id options context (world.object id).levels.length
      finishInstanceBy framing perform id options args (world.classOf id).name context :
        Exec Unit) world := by
  unfold constructInstanceBy
  rw [get_bind_apply, get_bind_apply, if_neg (by simp [new])]

end

section

variable (alarm : (α : Type) → Exec α) (entry : World)

/-- Runs between two surveys of the contexts. -/
def survey {α : Type} (running : InProgress) (run : Exec α) : Exec α := fun world =>
  if world.accountsFor entry running then
    let (outcome, after) := run world
    if after.accountsFor entry running then (outcome, after) else alarm α after
  else alarm α world

/-- Runs a part with one more frame, and with one more call or phase in the account. -/
def surveyedFraming (nested : InProgress → Perform) (running : InProgress) : Framing where
  around context frame part world :=
    let inside := world.entering context frame running
    withFrame context frame (survey alarm entry inside (part (nested inside))) world

/-- Performs requests as the machine does, keeping account of what is in progress and surveying
the contexts around each request, each body of a call and each phase. -/
def surveyedUpTo : Nat → InProgress → Perform
  | 0, _, _ => Exec.exhaust
  | depth + 1, running, request =>
      survey alarm entry running
        (stepBy (surveyedFraming alarm entry (surveyedUpTo depth) running)
          (surveyedUpTo depth running) request)

end

/-! ## What a run keeps of the contexts -/

/-- The contexts of the first state are the same in the second, and no frame is left on a later
one. -/
structure World.KeepsContexts (before after : World) : Prop where
  grown : before.contexts.size ≤ after.contexts.size := by exact Nat.le_refl _
  old : ∀ id, id.index < before.contexts.size → after.context id = before.context id := by
    intros; rfl
  new : ∀ id, before.contexts.size ≤ id.index → (after.context id).frames = []

namespace World

theorem context_beyond {world : World} {id : ContextId}
    (beyond : world.contexts.size ≤ id.index) : world.context id = .fresh none := by
  unfold World.context Heap.get
  rw [Heap.get?_eq_none _ beyond]
  rfl

theorem context_withContext (world : World) (id other : ContextId) (change : Context → Context) :
    (world.withContext id change).context other =
      if other = id ∧ id.index < world.contexts.size then change (world.context id)
      else world.context other :=
  world.contexts.get_modify id other change

theorem size_contexts_withContext (world : World) (id : ContextId) (change : Context → Context) :
    (world.withContext id change).contexts.size = world.contexts.size :=
  Heap.size_modify ..

namespace KeepsContexts

variable {first second third : World}

theorem refl (world : World) : KeepsContexts world world where
  new id beyond := by
    rw [context_beyond beyond]
    rfl

theorem of_same (same : second.contexts = first.contexts) : KeepsContexts first second := by
  have contexts : ∀ id, second.context id = first.context id := fun id => congrArg (·.get id) same
  refine ⟨Nat.le_of_eq (congrArg Heap.size same).symm, fun id _ => contexts id, fun id beyond => ?_⟩
  rw [contexts, context_beyond beyond]
  rfl

theorem trans (one : KeepsContexts first second) (two : KeepsContexts second third) :
    KeepsContexts first third where
  grown := Nat.le_trans one.grown two.grown
  old id inside := (two.old id (Nat.lt_of_lt_of_le inside one.grown)).trans (one.old id inside)
  new id beyond := by
    by_cases inside : id.index < second.contexts.size
    · rw [two.old id inside]
      exact one.new id beyond
    · exact two.new id (Nat.le_of_not_lt inside)

/-- A frame that is pushed and popped again leaves the contexts as they were. -/
theorem framed {context : ContextId} {frame : Frame} {deeper : Context}
    (pushed : (second.context context).push? frame = .ok deeper)
    (inside : KeepsContexts (second.withContext context fun _ => deeper) third) :
    KeepsContexts second
      (third.withContext context (·.truncate (second.context context).depth)) := by
  have size := size_contexts_withContext second context fun _ => deeper
  have grown := inside.grown
  rw [size] at grown
  refine ⟨?_, fun id old => ?_, fun id beyond => ?_⟩
  · rw [size_contexts_withContext]
    exact grown
  · have kept := inside.old id (size.symm ▸ old)
    rw [context_withContext] at kept ⊢
    by_cases same : id = context
    · subst same
      rw [if_pos ⟨rfl, old⟩] at kept
      rw [if_pos ⟨rfl, Nat.lt_of_lt_of_le old grown⟩, kept]
      exact Context.truncate_of_push? pushed
    · rw [if_neg fun both => same both.1] at kept ⊢
      exact kept
  · have empty := inside.new id (size.symm ▸ beyond)
    rw [context_withContext]
    split
    · next both =>
        rw [both.1] at empty
        simp [Context.truncate, empty]
    · exact empty

end KeepsContexts

end World

theorem Change.keepsContexts {may : String → Prop} {opened : InstanceId → Prop}
    {first second : World} (change : Change may opened first second) :
    first.KeepsContexts second := by
  cases change with
  | context limit =>
      refine ⟨by simp, fun id old => Heap.get_push_of_lt _ _ old, fun id beyond => ?_⟩
      have kept := Heap.get_push first.contexts (.fresh limit) id
      unfold World.context
      rw [kept]
      split
      · rfl
      · exact congrArg Context.frames (World.context_beyond beyond)
  | touch reference => exact .of_same (by rw [World.touchRef_eq])
  | allocate id =>
      refine .of_same ?_
      simp only [World.allocate]
      rw [World.lay_eq]
  | table | setTable | host | setHost | metaTable | placeholder | callable | install | declare
  | field | write | annotate | bindFallback | bindLevel | adopt | openView | attach | mark | save
  | record => exact .of_same rfl

/-- Every run leaves the contexts as they were. -/
theorem Evolves.keepsContexts {may : String → Prop} {opened : InstanceId → Prop}
    {first second : World} (evolves : Evolves may opened first second) :
    first.KeepsContexts second :=
  evolves.lift (motive := World.KeepsContexts) .refl (fun one two => one.trans two)
    Change.keepsContexts (fun pushed inside => .framed pushed inside) fun _ _ _ inside =>
      ⟨inside.grown, inside.old, inside.new⟩

/-! ## The account is right -/

/-- The frames of a state are those of the entry and of what is in progress. -/
structure World.Accounted (entry : World) (running : InProgress) (world : World) : Prop where
  grown : entry.contexts.size ≤ world.contexts.size
  known : ∀ held ∈ running, held.1.index < world.contexts.size
  frames : ∀ id, id.index < world.contexts.size →
    (world.context id).frames = running.on id ++ (entry.context id).frames
  fits : ∀ id, (entry.context id).fits = true → (world.context id).fits = true

namespace World.Accounted

variable {entry world after : World} {running : InProgress}

theorem start (world : World) : Accounted world [] world where
  grown := Nat.le_refl _
  known _ member := (List.not_mem_nil member).elim
  frames _ _ := rfl
  fits _ fits := fits

theorem accountsFor (accounted : Accounted entry running world) :
    world.accountsFor entry running = true := by
  refine List.all_eq_true.mpr fun id member => ?_
  have inside := (Heap.mem_handles _ id).mp member
  rw [Bool.and_eq_true, decide_eq_true_eq]
  refine ⟨accounted.frames id inside, ?_⟩
  cases fits : (entry.context id).fits with
  | false => rfl
  | true => rw [accounted.fits id fits]; rfl

theorem evolves (accounted : Accounted entry running world) (keeps : world.KeepsContexts after) :
    Accounted entry running after where
  grown := Nat.le_trans accounted.grown keeps.grown
  known held member := Nat.lt_of_lt_of_le (accounted.known held member) keeps.grown
  frames id inside := by
    by_cases old : id.index < world.contexts.size
    · rw [keeps.old id old]
      exact accounted.frames id old
    · have beyond := Nat.le_of_not_lt old
      rw [keeps.new id beyond, context_beyond (Nat.le_trans accounted.grown beyond),
        InProgress.on_eq_nil fun held member same => old (by
          rw [← same]
          exact accounted.known held member)]
      rfl
  fits id fits := by
    by_cases old : id.index < world.contexts.size
    · rw [keeps.old id old]
      exact accounted.fits id fits
    · simp [Context.fits, Context.depth, keeps.new id (Nat.le_of_not_lt old)]

theorem enter (accounted : Accounted entry running world) {context : ContextId} {frame : Frame}
    {deeper : Context} (pushed : (world.context context).push? frame = .ok deeper) :
    Accounted entry (world.entering context frame running)
      (world.withContext context fun _ => deeper) := by
  obtain ⟨frames, fits⟩ := Context.fits_of_push? pushed
  have size := size_contexts_withContext world context fun _ => deeper
  unfold entering
  refine ⟨size.symm ▸ accounted.grown, ?_, fun id inside => ?_, fun id fitted => ?_⟩
  · rw [size]
    split
    · next inside => exact List.forall_mem_cons.mpr ⟨inside, accounted.known⟩
    · exact accounted.known
  · rw [size] at inside
    have before := accounted.frames id inside
    rw [context_withContext]
    by_cases same : id = context
    · subst same
      rw [if_pos ⟨rfl, inside⟩, if_pos inside, InProgress.on_cons, if_pos rfl, frames, before]
      rfl
    · rw [if_neg fun both => same both.1, before]
      split
      · rw [InProgress.on_cons, if_neg same]
      · rfl
  · rw [context_withContext]
    split
    · exact fits
    · exact accounted.fits id fitted

end World.Accounted

/-! ## Steps in a given framing -/

section

variable {may : String → Prop} {opened : InstanceId → Prop}

/-- What runs in a given framing agrees with what runs with plain frames. -/
def Framing.Follows (framing : Framing) (regime : Regime may opened) (perform : Perform) : Prop :=
  ∀ (α : Type) (context : ContextId) (frame : Frame) (part : Perform → Exec α),
    (∀ {inner : Regime may opened} {one two : Perform}, one.Tracks inner two →
      Tracks inner (part one) (part two)) →
    Tracks regime (perform.framing.around context frame part)
      (framing.around context frame part)

variable {regime : Regime may opened} {perform other : Perform} {framing : Framing}
variable (follows : framing.Follows regime perform)
include follows

theorem callFunctionBy_tracks (id : CallableId) (args : List Value) (context : ContextId) :
    Tracks regime (callFunction perform id args context)
      (callFunctionBy framing id args context) := by
  refine .after requireAssembly_leads fun _ world permits opens => ?_
  refine follows _ context _ (callBody (world.callables.get id) args context) (fun nested => ?_)
    world permits opens
  unfold callBody
  cases held : (world.callables.get id).function with
  | none => exact .pure _
  | some function =>
      have permitted := permits.callables id function held
      exact .bind (runBody_tracks nested _ permitted args context) fun result =>
        .own (checkReturn_leads _ result)

variable (nested : perform.Tracks regime other)
include nested

theorem callConstructorBy_tracks (id : InstanceId) (args : List Value) (context : ContextId) :
    Tracks regime (callConstructor perform id args context)
      (callConstructorBy framing other id args context) := by
  refine .bind (resolveConstructor_tracks nested id) fun constructor => ?_
  refine .of_get fun seen => .of_get fun named => ?_
  refine .bind (follows _ context _ _ fun within =>
    preConstruct_tracks within id context args _) fun args => ?_
  refine .bind (nested.call constructor args context) fun _ => ?_
  exact postConstruct_tracks nested id context args _

theorem finishInstanceBy_tracks (id : InstanceId) (options : CreateOptions) (args : List Value)
    (className : String) (context : ContextId) :
    Tracks regime (finishInstance perform id options args className context)
      (finishInstanceBy framing other id options args className context) := by
  have called : Tracks regime
      (Exec.wrapFault (.construction className) (callConstructor perform id args context))
      (Exec.wrapFault (.construction className)
        (callConstructorBy framing other id args context)) :=
    .wrapFault (callConstructorBy_tracks follows nested id args context)
  have marked : Leads may opened _ := markInstance_leads id options
  unfold finishInstance finishInstanceBy
  by_cases wanted : options.has .callConstructor = true
  · rw [if_pos wanted, if_pos wanted]
    exact .bind called fun _ => .own marked
  · rw [if_neg wanted, if_neg wanted]
    exact .own marked

theorem constructInstanceBy_tracks {id : InstanceId} (isOpen : opened id)
    (options : CreateOptions) (args : List Value) :
    Tracks regime (constructInstance perform id options args)
      (constructInstanceBy framing other id options args) := by
  intro world
  cases initialized : (world.object id).initialized with
  | true =>
      exact .of_apply (.refl world) (constructInstance_of_initialized initialized)
        (constructInstanceBy_of_initialized initialized)
  | false =>
      refine .congr (.refl world) (constructInstance_of_new initialized)
        (constructInstanceBy_of_new initialized) ?_
      refine Tracks.after (constructionContext_leads options) (fun context => ?_) world
      refine .bind (constructLevels_tracks nested isOpen options context _) fun _ => ?_
      exact finishInstanceBy_tracks follows nested id options args _ context

theorem stepBy_tracks {request : Request}
    (isOpen : ∀ id options args, request = .construct id options args → opened id) :
    Tracks regime (step perform request) (stepBy framing other request) := by
  cases request with
  | call callable args context => exact callFunctionBy_tracks follows callable args context
  | read scope name => exact readScope_tracks nested.looksUp name scope
  | assign scope name value => exact assignScope_tracks nested.looksUp name value scope
  | construct id options args =>
      exact constructInstanceBy_tracks follows nested (isOpen id options args rfl) options args

end

/-! ## The alarm never sounds -/

/-- The regime of the states whose frames are accounted for. -/
def Regime.accounted (entry : World) (running : InProgress) :
    Regime (fun _ => True) (fun _ => True) where
  holds := World.Accounted entry running
  fresh _ _ := True
  lax := False
  evolves accounted evolves := accounted.evolves evolves.keepsContexts
  allocate _ _ := trivial
  bindLevel _ _ _ := trivial
  adopt _ _ := trivial

section

variable {alarm : (α : Type) → Exec α} {entry : World}

/-- A run is not changed by the surveys around it if the account is right before it. -/
theorem survey_tracks {α : Type} {running : InProgress} {run other : Exec α}
    (tracks : Tracks (Regime.accounted entry running) run other) :
    Tracks (Regime.accounted entry running) run (survey alarm entry running other) := by
  intro world permits opens
  obtain ⟨evolves, agrees⟩ := tracks world permits opens
  refine ⟨evolves, fun accounted => ?_⟩
  obtain same | ⟨lax, _⟩ := agrees accounted
  · left
    have later := accounted.evolves evolves.keepsContexts
    unfold survey
    rw [if_pos accounted.accountsFor, same]
    exact if_pos later.accountsFor
  · exact lax.elim

theorem surveyedFraming_follows {perform : Perform} {nested : InProgress → Perform}
    (tracks : ∀ running, perform.Tracks (Regime.accounted entry running) (nested running))
    (running : InProgress) :
    (surveyedFraming alarm entry nested running).Follows (Regime.accounted entry running)
      perform := by
  intro α context frame part parts world
  have within := parts (tracks (world.entering context frame running))
  refine TracksAt.withFrame context frame ?_ (fun accounted pushed => ?_) (survey_tracks within)
  · exact fun lax => lax
  · exact World.Accounted.enter accounted pushed

theorem surveyedUpTo_tracks (budget : Nat) (running : InProgress) :
    (performUpTo budget).Tracks (Regime.accounted entry running)
      (surveyedUpTo alarm entry budget running) := by
  induction budget generalizing running with
  | zero => exact ⟨performUpTo_leads 0, fun _ _ _ _ _ _ => .inl rfl⟩
  | succ budget ih =>
      refine ⟨performUpTo_leads _, fun request world permits opens _ => ?_⟩
      have follows : (surveyedFraming alarm entry (surveyedUpTo alarm entry budget) running).Follows
          (Regime.accounted entry running) (performUpTo budget) :=
        surveyedFraming_follows ih running
      have steps := @stepBy_tracks _ _ _ _ _ _ follows (ih running) request fun _ _ _ _ => trivial
      exact (survey_tracks steps world permits opens).2

end

/-- At every moment of every operation the frames on each context are those it had at the entry
and one for each call and phase in progress on it, and it has not left its limit: the alarm does
not sound, whatever it would do.  Once the operation ends, in whichever way, each context is as it
was. -/
theorem frames_accounted (alarm : (α : Type) → Exec α) (budget : Nat) (operation : Operation)
    (world : World) :
    operation.run (surveyedUpTo alarm world budget []) world =
        operation.run (performUpTo budget) world ∧
      ∀ id, id.index < world.contexts.size →
        (operation.run (performUpTo budget) world).2.context id = world.context id := by
  have nested : (performUpTo budget).Tracks (Regime.accounted world []) _ :=
    @surveyedUpTo_tracks alarm world budget []
  obtain ⟨evolves, agrees⟩ := operation.run_tracks nested (fun _ _ => trivial) world
    (World.permits_all world) fun _ _ => trivial
  refine ⟨?_, evolves.keepsContexts.old⟩
  obtain same | ⟨lax, _⟩ := agrees (.start world)
  · exact same
  · exact lax.elim

end ScriptObjects

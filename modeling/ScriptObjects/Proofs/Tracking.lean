import ScriptObjects.Proofs.Growth

/-!
# Comparing two ways to perform requests

Every activity is described in terms of a way to perform the requests nested in it.
The same activity over two such ways is compared once and for all: where the two agree
on the nested requests, the activity agrees with itself, and what it does evolves the
state.

The states on which they are compared form a regime.  A regime is kept by whatever a
run does, and it says of which instances the construction may be asked for.  Most
regimes are kept by pushing a frame as well; what a run does with one more frame may be
compared in another regime.  Agreement may be strict, or excuse a run that used up its budget.  The
regime without states is the special case in which only the evolution remains.
-/

namespace ScriptObjects

set_option autoImplicit false

/-- The states on which two ways to perform requests are compared. -/
structure Regime (may : String → Prop) (opened : InstanceId → Prop) where
  holds : World → Prop
  /-- The instances that may be constructed next. -/
  fresh : World → InstanceId → Prop
  /-- Whether a run that used up its budget is excused. -/
  lax : Prop
  evolves : ∀ {first second : World}, holds first → Evolves may opened first second → holds second
  allocate : ∀ (world : World) (id : ClassId),
    fresh ((world.resolveBases (world.ancestors id)).allocate id) world.instances.next
  bindLevel : ∀ {world : World} {id : InstanceId} {place : Nat} {level : Level} (host : HostId),
    world.level? id place = some level → fresh world id →
      fresh (world.bindReference level.reference host) id
  adopt : ∀ {world : World} {id : InstanceId} (host : HostId), fresh world id →
    fresh (world.adoptHost id host) id

/-- The regime is kept by pushing a frame. -/
def Regime.Pushes {may : String → Prop} {opened : InstanceId → Prop} (regime : Regime may opened) :
    Prop :=
  ∀ {world : World} {context : ContextId} {frame : Frame} {deeper : Context},
    regime.holds world → (world.context context).push? frame = .ok deeper →
      regime.holds (world.withContext context fun _ => deeper)

/-- The regime is kept by pushing a frame on a certain context. -/
def Regime.PushesOn {may : String → Prop} {opened : InstanceId → Prop} (regime : Regime may opened)
    (context : ContextId) : Prop :=
  ∀ {world : World} {frame : Frame} {deeper : Context},
    regime.holds world → (world.context context).push? frame = .ok deeper →
      regime.holds (world.withContext context fun _ => deeper)

/-- The regime without states. -/
def Regime.idle (may : String → Prop) (opened : InstanceId → Prop) : Regime may opened where
  holds _ := False
  fresh _ _ := True
  lax := False
  evolves none _ := none
  allocate _ _ := trivial
  bindLevel _ _ _ := trivial
  adopt _ _ := trivial

theorem Regime.idle_pushes {may : String → Prop} {opened : InstanceId → Prop} :
    (Regime.idle may opened).Pushes := fun none _ => none

namespace Exec

variable {may : String → Prop} {opened : InstanceId → Prop} (regime : Regime may opened)
variable {α β : Type}

/-- Another run agrees with a run from a state on, which is among those that are compared. -/
def AgreesAt (run other : Exec α) (world : World) : Prop :=
  regime.holds world → other world = run world ∨ regime.lax ∧ (run world).1 = .exhausted

/-- A run evolves one state, and another run agrees with it there. -/
def TracksAt (run other : Exec α) (world : World) : Prop :=
  world.Permits may → world.Opens opened →
    Evolves may opened world (run world).2 ∧ AgreesAt regime run other world

/-- A run evolves every state, and another run agrees with it. -/
def Tracks (run other : Exec α) : Prop := ∀ world, TracksAt regime run other world

variable {regime}

theorem TracksAt.leads {run other : Exec α} {world : World}
    (tracks : TracksAt regime run other world) : LeadsAt may opened run world :=
  fun permits opens => (tracks permits opens).1

theorem TracksAt.own {run : Exec α} {world : World} (leads : LeadsAt may opened run world) :
    TracksAt regime run run world :=
  fun permits opens => ⟨leads permits opens, fun _ => .inl rfl⟩

theorem TracksAt.of_apply {run other : Exec α} {world after : World} {outcome : Outcome α}
    (evolves : Evolves may opened world after) (one : run world = (outcome, after))
    (two : other world = (outcome, after)) : TracksAt regime run other world := by
  intro _ _
  unfold AgreesAt
  rw [one, two]
  exact ⟨evolves, fun _ => .inl rfl⟩

/-- Runs that go on as others do from a later state are compared there. -/
theorem TracksAt.congr {run other first second : Exec α} {world after : World}
    (evolves : Evolves may opened world after) (one : run world = first after)
    (two : other world = second after)
    (tracks : TracksAt regime first second after) : TracksAt regime run other world := by
  intro permits opens
  obtain ⟨further, agrees⟩ := tracks (evolves.permits permits) (opens.later evolves.continues)
  unfold AgreesAt at agrees ⊢
  rw [one, two]
  exact ⟨evolves.trans further, fun holds => agrees (regime.evolves holds evolves)⟩

theorem TracksAt.bind {run other : Exec α} {next later : α → Exec β} {world : World}
    (first : TracksAt regime run other world)
    (second : ∀ result after, run world = (.done result, after) →
      Evolves may opened world after → TracksAt regime (next result) (later result) after) :
    TracksAt regime (run >>= next) (other >>= later) world := by
  intro permits opens
  obtain ⟨evolves, agrees⟩ := first permits opens
  rcases ends : run world with ⟨outcome, after⟩
  rw [ends] at evolves
  unfold AgreesAt at agrees ⊢
  rw [ends] at agrees
  rw [bind_apply, ends]
  cases outcome with
  | done result =>
      obtain ⟨further, alike⟩ := second result after ends evolves (evolves.permits permits)
        (opens.later evolves.continues)
      refine ⟨evolves.trans further, fun holds => ?_⟩
      obtain same | ⟨_, none⟩ := agrees holds
      · rw [bind_of_done _ same]
        exact alike (regime.evolves holds evolves)
      · cases none
  | failed fault =>
      refine ⟨evolves, fun holds => ?_⟩
      obtain same | ⟨_, none⟩ := agrees holds
      · exact .inl (bind_of_failed _ same)
      · cases none
  | exhausted =>
      refine ⟨evolves, fun holds => ?_⟩
      obtain same | ⟨lax, _⟩ := agrees holds
      · exact .inl (bind_of_exhausted _ same)
      · exact .inr ⟨lax, rfl⟩

theorem TracksAt.recover {run other : Exec α} {handler rescue : Fault → Exec α} {world : World}
    (first : TracksAt regime run other world)
    (second : ∀ fault after, run world = (.failed fault, after) →
      Evolves may opened world after → TracksAt regime (handler fault) (rescue fault) after) :
    TracksAt regime (run.recover handler) (other.recover rescue) world := by
  intro permits opens
  obtain ⟨evolves, agrees⟩ := first permits opens
  rcases ends : run world with ⟨outcome, after⟩
  rw [ends] at evolves
  unfold AgreesAt at agrees ⊢
  rw [ends] at agrees
  unfold Exec.recover
  rw [ends]
  cases outcome with
  | done result =>
      refine ⟨evolves, fun holds => ?_⟩
      obtain same | ⟨_, none⟩ := agrees holds
      · rw [same]
        exact .inl rfl
      · cases none
  | failed fault =>
      obtain ⟨further, alike⟩ := second fault after ends evolves (evolves.permits permits)
        (opens.later evolves.continues)
      refine ⟨evolves.trans further, fun holds => ?_⟩
      obtain same | ⟨_, none⟩ := agrees holds
      · rw [same]
        exact alike (regime.evolves holds evolves)
      · cases none
  | exhausted =>
      refine ⟨evolves, fun holds => ?_⟩
      obtain same | ⟨lax, _⟩ := agrees holds
      · rw [same]
        exact .inl rfl
      · exact .inr ⟨lax, rfl⟩

theorem AgreesAt.recover {run other : Exec α} {world : World}
    (agrees : AgreesAt regime run other world) (handler : Fault → Exec α) :
    AgreesAt regime (run.recover handler) (other.recover handler) world := by
  intro holds
  unfold Exec.recover
  obtain same | ⟨lax, ends⟩ := agrees holds
  · rw [same]
    exact .inl rfl
  · rcases ended : run world with ⟨outcome, after⟩
    rw [ended] at ends
    cases ends
    exact .inr ⟨lax, rfl⟩

/-- Runs with one more frame are compared at the state with that frame. -/
theorem TracksAt.withFrame {inner : Regime may opened} {run other : Exec α} {world : World}
    (context : ContextId) (frame : Frame) (excuses : inner.lax → regime.lax)
    (enter : ∀ {deeper : Context}, regime.holds world →
      (world.context context).push? frame = .ok deeper →
        inner.holds (world.withContext context fun _ => deeper))
    (first : Tracks inner run other) :
    TracksAt regime (Exec.withFrame context frame run) (Exec.withFrame context frame other)
      world := by
  intro permits opens
  refine ⟨Leads.withFrame context frame (fun world => (first world).leads) world permits opens,
    fun holds => ?_⟩
  cases pushed : (world.context context).push? frame with
  | error limit => exact .inl (by rw [withFrame_of_full _ pushed, withFrame_of_full _ pushed])
  | ok deeper =>
      rw [withFrame_of_pushed run rfl pushed, withFrame_of_pushed other rfl pushed]
      have inside := (first (world.withContext context fun _ => deeper)
        ⟨permits.classes, permits.functions, permits.callables⟩ opens).2 (enter holds pushed)
      obtain same | ⟨lax, ends⟩ := inside
      · exact .inl (by rw [same])
      · exact .inr ⟨excuses lax, ends⟩

namespace Tracks

/-- What does not nest requests agrees with itself. -/
theorem own {run : Exec α} (leads : Leads may opened run) : Tracks regime run run :=
  fun world => .own (leads world)

theorem leads {run other : Exec α} (tracks : Tracks regime run other) : Leads may opened run :=
  fun world => (tracks world).leads

theorem pure (result : α) : Tracks regime (pure result : Exec α) (pure result) :=
  own (.pure result)

theorem throw (fault : Fault) : Tracks regime (throw fault : Exec α) (throw fault) :=
  own (.throw fault)

theorem bind {run other : Exec α} {next later : α → Exec β} (first : Tracks regime run other)
    (second : ∀ result, Tracks regime (next result) (later result)) :
    Tracks regime (run >>= next) (other >>= later) :=
  fun world => (first world).bind fun result after _ _ => second result after

/-- A part that does not nest requests comes before the others. -/
theorem after {run : Exec α} {next later : α → Exec β} (first : Leads may opened run)
    (second : ∀ result, Tracks regime (next result) (later result)) :
    Tracks regime (run >>= next) (run >>= later) :=
  (own first).bind second

theorem of_get {next later : World → Exec β} (second : ∀ seen, Tracks regime (next seen) (later seen)) :
    Tracks regime ((get : Exec World) >>= next) ((get : Exec World) >>= later) :=
  fun world => second world world

theorem recover {run other : Exec α} {handler rescue : Fault → Exec α}
    (first : Tracks regime run other)
    (second : ∀ fault, Tracks regime (handler fault) (rescue fault)) :
    Tracks regime (run.recover handler) (other.recover rescue) :=
  fun world => (first world).recover fun fault after _ _ => second fault after

theorem attempt {run other : Exec α} (first : Tracks regime run other) :
    Tracks regime (Exec.attempt run) (Exec.attempt other) := by
  intro world permits opens
  refine ⟨Leads.attempt first.leads world permits opens, fun holds => ?_⟩
  unfold Exec.attempt
  obtain same | ⟨lax, ends⟩ := (first world permits opens).2 holds
  · rw [same]
    exact .inl rfl
  · rcases ended : run world with ⟨outcome, after⟩
    rw [ended] at ends
    cases ends
    exact .inr ⟨lax, rfl⟩

theorem wrapFault {wrap : Fault → Fault} {run other : Exec α} (first : Tracks regime run other) :
    Tracks regime (Exec.wrapFault wrap run) (Exec.wrapFault wrap other) := by
  intro world permits opens
  refine ⟨Leads.wrapFault first.leads world permits opens, fun holds => ?_⟩
  unfold Exec.wrapFault
  obtain same | ⟨lax, ends⟩ := (first world permits opens).2 holds
  · rw [same]
    exact .inl rfl
  · rcases ended : run world with ⟨outcome, after⟩
    rw [ended] at ends
    cases ends
    exact .inr ⟨lax, rfl⟩

/-- Runs with one more frame are compared in the regime of the states with that frame. -/
theorem withFrame {inner : Regime may opened} {run other : Exec α} (context : ContextId)
    (frame : Frame) (excuses : inner.lax → regime.lax)
    (enter : ∀ {world : World} {deeper : Context}, regime.holds world →
      (world.context context).push? frame = .ok deeper →
        inner.holds (world.withContext context fun _ => deeper))
    (first : Tracks inner run other) :
    Tracks regime (Exec.withFrame context frame run) (Exec.withFrame context frame other) :=
  fun _ => .withFrame context frame excuses enter first

end Tracks

end Exec

/-! ## Nested requests -/

/-- The requests nested in a run evolve the state; an instance that is constructed must be
open. -/
def Perform.Leads (perform : Perform) : Prop :=
  ∀ (may : String → Prop) (opened : InstanceId → Prop) (request : Request),
    (∀ id options args, request = .construct id options args → opened id) →
    Exec.Leads may opened (perform request)

/-- Another way to perform requests agrees on the nested requests of a run. -/
structure Perform.Tracks {may : String → Prop} {opened : InstanceId → Prop}
    (regime : Regime may opened) (perform other : Perform) : Prop where
  leads : perform.Leads
  agrees : ∀ request world, world.Permits may → world.Opens opened →
    (∀ id options args, request = .construct id options args → regime.fresh world id) →
    Exec.AgreesAt regime (perform request) (other request) world

namespace Perform.Tracks

variable {may : String → Prop} {opened : InstanceId → Prop} {regime : Regime may opened}
variable {perform other : Perform} (nested : perform.Tracks regime other)
include nested

theorem call (callable : CallableId) (args : List Value) (context : ContextId) :
    Exec.Tracks regime (perform (.call callable args context))
      (other (.call callable args context)) :=
  fun world permits opens =>
    ⟨nested.leads may opened (.call callable args context) (fun _ _ _ same => nomatch same) world
        permits opens,
      nested.agrees (.call callable args context) world permits opens fun _ _ _ same => nomatch same⟩

theorem read (scope : Scope) (name : String) :
    Exec.Tracks regime (perform (.read scope name)) (other (.read scope name)) :=
  fun world permits opens =>
    ⟨nested.leads may opened (.read scope name) (fun _ _ _ same => nomatch same) world permits opens,
      nested.agrees (.read scope name) world permits opens fun _ _ _ same => nomatch same⟩

theorem assign (scope : Scope) (name : String) (value : Value) :
    Exec.Tracks regime (perform (.assign scope name value)) (other (.assign scope name value)) :=
  fun world permits opens =>
    ⟨nested.leads may opened (.assign scope name value) (fun _ _ _ same => nomatch same) world
        permits opens,
      nested.agrees (.assign scope name value) world permits opens fun _ _ _ same => nomatch same⟩

theorem construct {id : InstanceId} {world : World} (isOpen : opened id)
    (fresh : regime.fresh world id) (options : CreateOptions) (args : List Value) :
    Exec.TracksAt regime (perform (.construct id options args))
      (other (.construct id options args)) world := by
  intro permits opens
  refine ⟨nested.leads may opened _ (fun other _ _ same => ?_) world permits opens,
    nested.agrees _ world permits opens fun other _ _ same => ?_⟩
  · cases same
    exact isOpen
  · cases same
    exact fresh

end Perform.Tracks

/-- What evolves the state tracks itself where nothing is compared. -/
theorem Perform.Leads.tracks {perform : Perform} (leads : perform.Leads) (may : String → Prop)
    (opened : InstanceId → Prop) : perform.Tracks (Regime.idle may opened) perform where
  leads := leads
  agrees _ _ _ _ _ none := none.elim

end ScriptObjects

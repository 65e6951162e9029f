import ScriptObjects.Proofs.Inquiries
import ScriptObjects.Proofs.Writes

/-!
# Custody

Some facts about a state last because of what runs do not do: a variable keeps its content while
nobody writes it, a level keeps its host object while no host constructor is called for it.  Such a
fact is in custody if it survives each of the small changes that runs are made of, with the exception
of some writes and of the host constructors of some levels.  It then survives every run that
keeps away from the exceptions.

A custody relates an earlier state to a later one, and says of each small change that it leads to a
related state.  The runs that a single activity is made of are gone through here; the activities
follow in the order of the model.
-/

namespace ScriptObjects

set_option autoImplicit false

open Exec World

/-! ## Custodies -/

/-- A class that is found for a host type describes it. -/
def World.Paired (world : World) : Prop :=
  ∀ host id, world.classForHost? host = some id → (world.cls id).described = some host

/-- A relation from an earlier to a later state that the changes of a run respect, apart from some
of the writes and of the calls of host constructors. -/
structure Custody where
  keeps : World → World → Prop
  /-- The names in stores that may be written. -/
  mayWrite : StoreId → String → Prop
  /-- The levels for which host constructors may be called. -/
  mayBind : Receiver → Prop
  refl : ∀ world, keeps world world
  trans : ∀ {first second third}, keeps first second → keeps second third → keeps first third
  aside : ∀ {first second}, Aside first second → keeps first second
  insert : ∀ world id label added, keeps world (world.withStore id (·.insert label added))
  annotate : ∀ world id label annotations, keeps world
    (world.withStore id (·.modify label fun slot => { slot with annotations := annotations }))
  write : ∀ world {id label}, mayWrite id label → ∀ value,
    keeps world (world.withStore id (·.modify label (·.write value)))
  /-- A slot is taken away again that was put there on the way. -/
  withdraw : ∀ {first second id label}, (first.store id).declares label = false →
    keeps first second → keeps first (second.withStore id (·.erase label))
  allocate : ∀ world id, keeps world (world.allocate id)
  object : ∀ world id {change : Instance → Instance},
    (∀ object, (change object).levels = object.levels ∧ (change object).host = object.host) →
    keeps world (world.withObject id change)
  /-- An unbound reference is bound to the host object it falls back to. -/
  fallback : ∀ {world : World} {reference host},
    (world.references.get reference).bound = none →
    world.fallback? (world.references.get reference) = some host →
    keeps world (world.bindReference reference host)
  /-- A new instance is given the host object that it wraps, and its class was found for the type of
  that. -/
  wrap : ∀ {world : World} {id place level} {host : HostId}, world.level? id place = some level →
    (world.references.get level.reference).bound = none → (world.object id).host = none →
    host.index < world.hosts.size →
    (world.Paired →
      (world.references.get level.reference).described.all (· = (world.hosts.get host).type) = true) →
    keeps world (world.bindHost ⟨id, place⟩ host)
  /-- A host constructor has made a host object for a level. -/
  construct : ∀ {world : World} {receiver} {host : HostId}, mayBind receiver →
    host.index < world.hosts.size → keeps world (world.bindHost receiver host)

/-! ## Runs that keep what is in custody -/

namespace Exec

/-- A run keeps what is in custody, from whatever state. -/
def Keeping (custody : Custody) {α : Type} (run : Exec α) : Prop :=
  ∀ world, custody.keeps world (run world).2

namespace Keeping

variable {custody : Custody} {α β : Type}

theorem still {run : Exec α} (still : Still run) : Keeping custody run :=
  fun world => custody.aside (still world)

theorem pure (result : α) : Keeping custody (pure result : Exec α) := still (.pure result)

theorem throw (fault : Fault) : Keeping custody (throw fault : Exec α) := still (.throw fault)

theorem ask (question : World → α) : Keeping custody (Exec.ask question) :=
  still (.ask question)

theorem change {update : World → World} (same : ∀ world, custody.keeps world (update world)) :
    Keeping custody (Exec.change update) :=
  same

theorem of_apply {run : Exec α} {world after : World} {outcome : Outcome α}
    (ends : run world = (outcome, after)) (same : custody.keeps world after) :
    custody.keeps world (run world).2 := by
  rw [ends]
  exact same

theorem bind_at {run : Exec α} {next : α → Exec β} {world : World}
    (first : custody.keeps world (run world).2)
    (second : ∀ result after, run world = (.done result, after) →
      custody.keeps after (next result after).2) :
    custody.keeps world ((run >>= next) world).2 := by
  rw [bind_apply]
  rcases ends : run world with ⟨outcome, after⟩
  rw [ends] at first
  cases outcome with
  | done result => exact custody.trans first (second result after ends)
  | failed fault => exact first
  | exhausted => exact first

theorem bind {run : Exec α} {next : α → Exec β} (first : Keeping custody run)
    (second : ∀ result, Keeping custody (next result)) :
    Keeping custody (run >>= next) :=
  fun world => bind_at (first world) fun result after _ => second result after

theorem of_get {next : World → Exec β} (second : ∀ seen, Keeping custody (next seen)) :
    Keeping custody ((get : Exec World) >>= next) :=
  fun world => second world world

theorem recover {run : Exec α} {handler : Fault → Exec α} (first : Keeping custody run)
    (second : ∀ fault, Keeping custody (handler fault)) :
    Keeping custody (run.recover handler) := by
  intro world
  have one := first world
  unfold Exec.recover
  rcases ends : run world with ⟨outcome, after⟩
  rw [ends] at one
  cases outcome with
  | done result => exact one
  | failed fault => exact custody.trans one (second fault after)
  | exhausted => exact one

/-- What does no more than turn the outcome into another one changes nothing. -/
theorem of_state {run : Exec α} {other : Exec β} (same : ∀ world, (other world).2 = (run world).2)
    (first : Keeping custody run) : Keeping custody other := by
  intro world
  rw [same]
  exact first world

theorem attempt {run : Exec α} (first : Keeping custody run) :
    Keeping custody (Exec.attempt run) := by
  refine of_state (fun world => ?_) first
  unfold Exec.attempt
  rcases run world with ⟨outcome, after⟩
  cases outcome <;> rfl

theorem wrapFault {wrap : Fault → Fault} {run : Exec α} (first : Keeping custody run) :
    Keeping custody (Exec.wrapFault wrap run) := by
  refine of_state (fun world => ?_) first
  unfold Exec.wrapFault
  rcases run world with ⟨outcome, after⟩
  cases outcome <;> rfl

theorem withFrame {run : Exec α} (context : ContextId) (frame : Frame)
    (first : Keeping custody run) :
    Keeping custody (Exec.withFrame context frame run) := by
  intro world
  cases pushed : (world.context context).push? frame with
  | error limit => exact of_apply (withFrame_of_full run pushed) (custody.refl world)
  | ok deeper =>
      have inside := first (world.withContext context fun _ => deeper)
      exact of_apply (withFrame_of_pushed run rfl pushed)
        (custody.trans (custody.aside {}) (custody.trans inside (custody.aside {})))

theorem orElseMissing (label : String) {run next : Exec α} (first : Keeping custody run)
    (second : Keeping custody next) :
    Keeping custody (ScriptObjects.orElseMissing label run next) := by
  refine recover first fun fault => ?_
  split
  · exact second
  · exact throw fault

end Keeping

end Exec

section

variable {custody : Custody}

/-! ## Instances, scopes and declarations -/

theorem newInstance_keeping (id : ClassId) (options : CreateOptions) :
    Keeping custody (newInstance id options) := by
  intro world
  cases creatable : options.has .enforceCreation || (world.cls id).mode.creatable with
  | true =>
      exact Keeping.of_apply (newInstance_apply creatable)
        (custody.trans (custody.aside (world.resolveBases_still _)) (custody.allocate _ id))
  | false =>
      exact Keeping.of_apply (newInstance_of_forbidden creatable) (custody.refl world)

theorem openScope?_keeping (id : InstanceId) (view : Viewpoint) :
    Keeping custody (openScope? id view) := by
  intro world
  cases sits : world.level? id view.level with
  | none => exact Keeping.of_apply (openScope?_of_none sits) (custody.refl world)
  | some level =>
      by_cases mode : view.mode = .declarations
      · exact Keeping.of_apply (openScope?_declarations sits mode) (custody.refl world)
      · refine Keeping.of_apply (openScope?_composite sits mode) ?_
        split
        · exact custody.object world id fun _ => ⟨rfl, rfl⟩
        · exact custody.refl world

theorem memberScope_keeping (id : InstanceId) (access : Access) :
    Keeping custody (memberScope id access) :=
  .bind (openScope?_keeping id _) fun _ => .pure _

theorem scopeIn_keeping (invocation : Invocation) (mode : ScopeMode) :
    Keeping custody (invocation.scopeIn mode) := by
  unfold Invocation.scopeIn
  split
  · exact .pure _
  · exact .bind (openScope?_keeping _ _) fun _ => .pure _

theorem insertSlot_keeping (id : StoreId) (label : String) (slot : Slot) :
    Keeping custody (insertSlot id label slot) := by
  intro world
  cases taken : (world.store id).declares label with
  | true => exact Keeping.of_apply (insertSlot_of_declared slot taken) (custody.refl world)
  | false => exact Keeping.of_apply (insertSlot_of_free slot taken) (custody.insert world id label slot)

theorem declare_keeping (scope : Scope) (label : String) (slot : Slot) :
    Keeping custody (declare scope label slot) := by
  rw [declare_eq]
  cases scope.declaresIn? with
  | none => exact .throw _
  | some id => exact insertSlot_keeping id label slot

theorem annotateSlot_keeping (id : StoreId) (label : String) (annotations : List InstanceId) :
    Keeping custody (annotateSlot id label annotations) := by
  intro world
  cases declared : (world.store id).declares label with
  | true =>
      exact Keeping.of_apply (annotateSlot_of_declared annotations declared)
        (custody.annotate world id label _)
  | false =>
      have refused : annotateSlot id label annotations world =
          (.failed (.lookup (.notDeclared label)), world) := by
        simp only [annotateSlot, get_bind_apply, declared]
        rfl
      exact Keeping.of_apply refused (custody.refl world)

/-! ## Host references -/

theorem resolveReference_keeping (reference : ReferenceId) :
    Keeping custody (resolveReference reference) := by
  intro world
  cases bound : (world.references.get reference).bound with
  | some host => exact Keeping.of_apply (resolveReference_of_bound bound) (custody.refl world)
  | none =>
      cases falls : world.fallback? (world.references.get reference) with
      | some host =>
          exact Keeping.of_apply (resolveReference_of_fallback bound falls)
            (custody.fallback bound falls)
      | none => exact Keeping.of_apply (resolveReference_of_nowhere bound falls) (custody.refl world)

theorem levelHost_keeping (receiver : Receiver) : Keeping custody (levelHost receiver) :=
  .bind (.still (levelReference_still receiver)) resolveReference_keeping

end

/-! ## Wrapping -/

namespace World

/-- The state in which a host object is bound to a new instance of a class. -/
def wrapped (world : World) (id : ClassId) (host : HostId) : World :=
  let followed := world.resolveBases (world.ancestors id)
  (followed.allocate id).bindHost ⟨world.instances.next, 0⟩ host

variable {world : World} {id : ClassId} {host : HostId}

/-- Following the bases of the class comes before everything else, and changes nothing of this. -/
theorem wrapped_eq (world : World) (id : ClassId) (host : HostId) :
    ∃ followed, Aside world followed ∧ world.instances.next = followed.instances.next ∧
      world.wrapped id host =
        (followed.allocate id).bindHost ⟨followed.instances.next, 0⟩ host := by
  have follows : Aside world (world.resolveBases (world.ancestors id)) := world.resolveBases_still _
  have next : world.instances.next = (world.resolveBases (world.ancestors id)).instances.next := by
    rw [follows.instances]
  refine ⟨_, follows, next, ?_⟩
  rw [← next]
  rfl

/-- What is left to do then is to construct the instance. -/
theorem wrapHost_of_paired (perform : Perform)
    (paired : world.classForHost? (world.hosts.get host).type = some id) :
    wrapHost perform host world =
      (do
        perform (.construct world.instances.next .wrapper [])
        return .object world.instances.next : Exec Value) (world.wrapped id host) := by
  unfold wrapHost
  simp only [get_bind_apply, paired]
  rw [bind_of_done _ (newInstance_apply rfl), bind_of_done _ (bindHost_apply ..)]
  rfl

end World

/-- A host object that exists is wrapped in an instance that has none, and whose class describes its
type. -/
theorem Custody.wrapped (custody : Custody) {world : World} {id : ClassId} {host : HostId}
    (inside : host.index < world.hosts.size)
    (paired : world.classForHost? (world.hosts.get host).type = some id) :
    custody.keeps world (world.wrapped id host) := by
  obtain ⟨followed, follows, _, same⟩ := world.wrapped_eq id host
  rw [same]
  obtain ⟨level, sits, own⟩ := allocate_firstLevel followed id
  have references := allocate_references followed id
  obtain ⟨_, _, fresh⟩ := references.fresh 0 level sits
  refine custody.trans (custody.aside follows) (custody.trans (custody.allocate followed id) ?_)
  refine custody.wrap sits (by rw [fresh]; rfl) ?_ ?_ ?_
  · rw [references.host]
    exact congrArg Instance.host (object_beyond (Nat.le_refl followed.instances.size))
  · rw [hosts_allocate]
    exact Nat.lt_of_lt_of_le inside follows.hosts
  · intro pairs
    have found : (followed.allocate id).classForHost? (world.hosts.get host).type = some id := by
      rw [← paired]
      unfold World.classForHost?
      rw [registry_allocate, follows.registry]
    have described := pairs _ id found
    rw [fresh, hosts_allocate, follows.types host inside]
    show (followed.cls level.cls).described.all _ = true
    rw [own, ← cls_allocate followed id, described]
    simp

end ScriptObjects

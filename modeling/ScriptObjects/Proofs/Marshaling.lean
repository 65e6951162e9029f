import ScriptObjects.Proofs.Constructions
import ScriptObjects.Proofs.Holdings
import ScriptObjects.Proofs.InstanceLevels
import ScriptObjects.Proofs.Lookups

/-!
# Values come back from the host

A value goes to the host as a host object of a type chosen by the declared type and the
value, and comes back by the type of the host object alone.  The two tables meet at the
object in between: what is put into it for a value is what is taken out of it directly,
in the form in which the declared type stores the value.

The host takes a value exactly if the type accepts it.  To see that, the hierarchy may be
walked, and the walk leaves references to classes resolved; coming back walks the same way
again and finds nothing left to resolve.
-/

namespace ScriptObjects

set_option autoImplicit false

open World Exec

/-! ## Following the same bases again -/

/-- Changes of different cells may come in either order. -/
theorem Heap.modify_comm {kind : HandleKind} {α : Type} (heap : Heap kind α)
    {one other : Handle kind} (apart : one.index ≠ other.index) (first second : α → α) :
    (heap.modify one first).modify other second = (heap.modify other second).modify one first := by
  unfold Heap.modify
  congr 1
  apply Array.ext_getElem?
  intro position
  simp only [Array.getElem?_modify]
  by_cases here : one.index = position
  · subst here
    simp [Ne.symm apart]
  · simp [here]

namespace World

theorem resolveRef_again (world : World) (reference : ClassRefId) (target : ClassId) :
    (world.resolveRef reference target).resolveRef reference target =
      world.resolveRef reference target :=
  congrArg (fun refs => { world with classRefs := refs }) (world.classRefs.modify_modify ..)

theorem resolveRef_comm (world : World) {one other : ClassRefId} (apart : one.index ≠ other.index)
    (first second : ClassId) :
    (world.resolveRef one first).resolveRef other second =
      (world.resolveRef other second).resolveRef one first :=
  congrArg (fun refs => { world with classRefs := refs }) (world.classRefs.modify_comm apart _ _)

theorem touchRef_again (world : World) (reference : ClassRefId) :
    (world.touchRef reference).touchRef reference = world.touchRef reference := by
  obtain ⟨_, same⟩ | ⟨target, stands, same⟩ := world.touchRef_cases reference
  · rw [same, same]
  · have again := (world.target?_touchRef reference reference).trans stands
    rw [touchRef, again, same]
    exact resolveRef_again world reference target

theorem touchRef_comm (world : World) (one other : ClassRefId) :
    (world.touchRef one).touchRef other = (world.touchRef other).touchRef one := by
  by_cases apart : one.index = other.index
  · have same : one = other := by
      cases one
      cases other
      exact congrArg Handle.mk apart
    rw [same]
  · have first := world.target?_touchRef one other
    have second := world.target?_touchRef other one
    cases here : world.target? one with
    | none => simp only [touchRef, here] at second ⊢; simp only [second]
    | some target =>
        cases there : world.target? other with
        | none => simp only [touchRef, here, there] at first ⊢; simp only [first]
        | some last =>
            simp only [touchRef, here, there] at first second ⊢
            simp only [first, second]
            exact resolveRef_comm world apart target last

/-- The state after the base of a class was followed. -/
def touchBase (world : World) (id : ClassId) : World :=
  match (world.cls id).base with
  | some reference => world.touchRef reference
  | none => world

theorem touchBase_touchRef {world : World} {id : ClassId} (settled : world.touchBase id = world)
    (reference : ClassRefId) :
    (world.touchRef reference).touchBase id = world.touchRef reference := by
  unfold touchBase at settled ⊢
  rw [cls_touchRef]
  cases base : (world.cls id).base with
  | none => rfl
  | some own =>
      rw [base] at settled
      dsimp only at settled ⊢
      rw [touchRef_comm, settled]

theorem touchBase_again (world : World) (id : ClassId) :
    (world.touchBase id).touchBase id = world.touchBase id := by
  unfold touchBase
  cases base : (world.cls id).base with
  | none => simp only [base]
  | some reference =>
      dsimp only
      rw [cls_touchRef, base]
      exact touchRef_again world reference

/-- After some bases were followed, following one of them changes nothing. -/
theorem touchBase_resolveBases (world : World) (visited : List ClassId) :
    ∀ id ∈ visited, (world.resolveBases visited).touchBase id = world.resolveBases visited := by
  induction visited generalizing world with
  | nil => exact fun _ member => (List.not_mem_nil member).elim
  | cons head rest ih =>
      have first : world.resolveBases (head :: rest) = (world.touchBase head).resolveBases rest :=
        rfl
      rw [first]
      intro id member
      obtain rfl | later := List.mem_cons.mp member
      · exact resolveBases_induction (motive := fun after => after.touchBase id = after)
          (world.touchBase_again id)
          (fun _ reference settled => touchBase_touchRef settled reference) rest
      · exact ih _ id later

theorem resolveBases_of_settled {world : World} {visited : List ClassId}
    (settled : ∀ id ∈ visited, world.touchBase id = world) :
    world.resolveBases visited = world := by
  induction visited with
  | nil => rfl
  | cons head rest ih =>
      have first : world.resolveBases (head :: rest) = (world.touchBase head).resolveBases rest :=
        rfl
      rw [first, settled head List.mem_cons_self]
      exact ih fun id member => settled id (List.mem_cons_of_mem head member)

/-- Following the same bases again changes nothing. -/
theorem resolveBases_again (world : World) (visited : List ClassId) :
    (world.resolveBases visited).resolveBases visited = world.resolveBases visited :=
  resolveBases_of_settled (world.touchBase_resolveBases visited)

/-! ## A new host object -/

/-- The state with one more host object. -/
def withNewHost (world : World) (object : HostObject) : World :=
  { world with hosts := world.hosts.push object }

theorem touchRef_withNewHost (world : World) (object : HostObject) (reference : ClassRefId) :
    (world.withNewHost object).touchRef reference =
      (world.touchRef reference).withNewHost object := by
  have same : (world.withNewHost object).target? reference = world.target? reference := rfl
  unfold touchRef
  rw [same]
  cases world.target? reference <;> rfl

theorem resolveBases_withNewHost (world : World) (object : HostObject) (visited : List ClassId) :
    (world.withNewHost object).resolveBases visited =
      (world.resolveBases visited).withNewHost object := by
  induction visited generalizing world with
  | nil => rfl
  | cons id rest ih =>
      rw [resolveBases_cons, resolveBases_cons]
      have same : (world.withNewHost object).cls id = world.cls id := rfl
      rw [same]
      cases (world.cls id).base with
      | none => exact ih world
      | some reference =>
          dsimp only
          rw [touchRef_withNewHost]
          exact ih _

theorem SameHierarchy.visitedByAccepts {first second : World} (same : SameHierarchy first second)
    (instances : second.instances = first.instances) (type : ValueType) (value : Value) :
    second.visitedByAccepts type value = first.visitedByAccepts type value := by
  have objects : second.object = first.object := by
    funext id
    unfold World.object
    rw [instances]
  unfold World.visitedByAccepts World.classOf World.visitedByExtend
  simp only [objects, same.name, same.properAncestors]

end World

/-! ## The object in between -/

namespace ValueType

/-- Whether a value goes to the host in a host object of its own: it is no host object already, and
not handed over as the host object that an instance carries. -/
def boxes : ValueType → Value → Bool
  | _, .host _ => false
  | .host _, .object _ => false
  | _, _ => true

/-- The host object that is made for a value. -/
def box : ValueType → Value → HostObject
  | _, .null => .unit
  | _, .bool b => .boolean b
  | .float, .int i => .float64 (Number.ofWord i)
  | _, .int i => .int64 i
  | _, .float f => .float64 f
  | _, .text s => .text s
  | _, other => .dynamic other

variable {type : ValueType} {value : Value}

/-- What is taken out of the object is what the type stores. -/
theorem directValue?_box (boxes : type.boxes value = true) :
    (type.box value).directValue? = some (type.widen value) := by
  cases value with
  | host => cases boxes
  | null | bool | int | float | text | table | function | object => cases type <;> rfl

theorem widen_widen : type.widen (type.widen value) = type.widen value := by
  cases type <;> cases value <;> rfl

end ValueType

theorem hostForm_of_boxes {type : ValueType} {value : Value} (boxes : type.boxes value = true)
    (world : World) :
    hostForm type value world =
      (.done (some world.hosts.next), world.withNewHost (type.box value)) := by
  cases value with
  | host => cases boxes
  | object =>
      cases type with
      | host => cases boxes
      | any | null | bool | int | float | text | table | function | object => rfl
  | null | bool | int | float | text | table | function => cases type <;> rfl

namespace World

variable {world : World} {type : ValueType} {value : Value}

theorem accepts_widened : world.accepts type (type.widen value) = world.accepts type value := by
  cases type <;> cases value <;> rfl

theorem visitedByAccepts_widen :
    world.visitedByAccepts type (type.widen value) = world.visitedByAccepts type value := by
  cases type <;> cases value <;> rfl

theorem SameHierarchy.withNewHost (world : World) (object : HostObject) :
    SameHierarchy world (world.withNewHost object) := .of_same rfl rfl rfl rfl

/-- No host object is looked at to accept a value that has one made for it. -/
theorem accepts_withNewHost (boxes : type.boxes value = true) (object : HostObject) :
    (world.withNewHost object).accepts type value = world.accepts type value := by
  cases value with
  | host => cases boxes
  | object =>
      cases type with
      | host => cases boxes
      | object name =>
          exact congrArg (_ || ·) ((SameHierarchy.withNewHost world object).doesExtend _ name)
      | any | null | bool | int | float | text | table | function => rfl
  | null | bool | int | float | text | table | function => cases type <;> rfl

/-- The state after a type was asked whether it accepts a value. -/
def askAccepts (world : World) (type : ValueType) (value : Value) : World :=
  world.resolveBases (world.visitedByAccepts type value)

theorem accepts_askAccepts (other : ValueType) (given : Value) :
    (world.askAccepts type value).accepts other given = world.accepts other given :=
  accepts_resolveBases world _ other given

/-- Asking again changes nothing more. -/
theorem askAccepts_again : (world.askAccepts type value).askAccepts type value =
    world.askAccepts type value := by
  have same : SameHierarchy world (world.askAccepts type value) := .resolveBases world _
  have instances : (world.askAccepts type value).instances = world.instances := by
    unfold askAccepts
    rw [resolveBases_eq]
  have visited := same.visitedByAccepts instances type value
  exact (congrArg _ visited).trans (resolveBases_again world _)

theorem askAccepts_withNewHost (object : HostObject) :
    (world.withNewHost object).askAccepts type value =
      (world.askAccepts type value).withNewHost object := by
  unfold askAccepts
  rw [(SameHierarchy.withNewHost world object).visitedByAccepts rfl, resolveBases_withNewHost]

theorem askAccepts_widen :
    world.askAccepts type (type.widen value) = world.askAccepts type value := by
  unfold askAccepts
  rw [visitedByAccepts_widen]

/-- Only references to classes differ, and the host object that is there now. -/
theorem withNewHost_askAccepts (object : HostObject) :
    (world.askAccepts type value).withNewHost object =
      { world with
        classRefs := ((world.askAccepts type value).withNewHost object).classRefs
        hosts := world.hosts.push object } := by
  unfold askAccepts
  rw [resolveBases_eq]
  rfl

theorem target?_askAccepts (reference : ClassRefId) :
    (world.askAccepts type value).target? reference = world.target? reference :=
  resolveBases_induction
    (motive := fun after => after.target? reference = world.target? reference) rfl
    (fun between other same => (between.target?_touchRef other reference).trans same) _

theorem marshaling_askAccepts : (world.askAccepts type value).marshaling = world.marshaling := by
  unfold askAccepts
  rw [resolveBases_eq]

end World

/-! ## Both ways -/

section

variable {world : World} {type : ValueType} {value : Value}

/-- A value that the rules do not refuse goes to the host if its type accepts it. -/
theorem toHost_of_lax (lax : ¬(world.marshaling = .selective ∧ value = .text refusedText)) :
    toHost value type world =
      if world.accepts type value then
        formHost type value (.unmarshalable (world.typeName value) type.name)
          (world.askAccepts type value)
      else
        (.failed (.unmarshalable (world.typeName value) type.name),
          world.askAccepts type value) := by
  have asked : Exec.accepts type value world =
      (.done (world.accepts type value), world.askAccepts type value) := rfl
  have converted : toHost value type world =
      convertHost type value (.unmarshalable (world.typeName value) type.name) world := by
    unfold toHost
    rw [get_bind_apply, if_neg lax]
    rfl
  rw [converted]
  unfold convertHost
  rw [bind_of_done _ asked]
  cases world.accepts type value with
  | true => rfl
  | false => rfl

/-- The standard rules refuse nothing. -/
theorem toHost_apply (standard : world.marshaling = .standard) :
    toHost value type world =
      if world.accepts type value then
        formHost type value (.unmarshalable (world.typeName value) type.name)
          (world.askAccepts type value)
      else
        (.failed (.unmarshalable (world.typeName value) type.name),
          world.askAccepts type value) := by
  refine toHost_of_lax ?_
  rw [standard]
  exact fun both => nomatch both.1

theorem formHost_of_boxes (boxes : type.boxes value = true) (unsupported : Fault) :
    formHost type value unsupported world =
      (.done world.hosts.next, world.withNewHost (type.box value)) := by
  unfold formHost
  rw [bind_of_done _ (hostForm_of_boxes boxes world)]
  rfl

theorem formHost_of_host (id : HostId) (unsupported : Fault) :
    formHost type (.host id) unsupported world = (.done id, world) := by
  cases type <;> rfl

theorem formHost_of_carried {wanted : HostType} {id : InstanceId} {host : HostId}
    (carries : (world.object id).host = some host) (unsupported : Fault) :
    formHost (.host wanted) (.object id) unsupported world = (.done host, world) := by
  have form : hostForm (.host wanted) (.object id) world = (.done (some host), world) := by
    rw [← carries]
    rfl
  unfold formHost
  rw [bind_of_done _ form]
  rfl

/-- An accepted value has a host object to go as. -/
theorem formHost_done (accepted : world.accepts type value = true) (unsupported : Fault) :
    ∃ host after, formHost type value unsupported (world.askAccepts type value) =
      (.done host, after) := by
  rcases boxed : type.boxes value with _ | _
  · cases value with
    | host id => exact ⟨id, _, formHost_of_host id unsupported⟩
    | object id =>
        cases type with
        | host wanted =>
            rw [accepts_hosted, Option.any_eq_true] at accepted
            obtain ⟨host, carries, _⟩ := accepted
            exact ⟨host, _, formHost_of_carried carries unsupported⟩
        | any | null | bool | int | float | text | table | function | object => cases boxed
    | null | bool | int | float | text | table | function => cases type <;> cases boxed
  · exact ⟨_, _, formHost_of_boxes boxed unsupported⟩

theorem fromHost_apply (standard : world.marshaling = .standard) (perform : Perform)
    (host : HostId) :
    fromHost perform type host world =
      takeBack perform type host (world.hosts.get host) world := by
  have strict : world.marshaling ≠ .selective := by rw [standard]; nofun
  have object : hostObject host world = (.done (world.hosts.get host), world) := rfl
  unfold fromHost
  rw [bind_of_done _ object, get_bind_apply, if_neg strict]
  rfl

/-- What comes back is stored in the form that its type keeps. -/
theorem coerceBack_of_accepts (accepted : world.accepts type value = true) :
    coerceBack type value world = (.done (type.widen value), world.askAccepts type value) := by
  unfold coerceBack
  rw [bind_of_done _ (coerce?_apply type value world), if_pos accepted]
  rfl

theorem takeBack_of_direct (perform : Perform) (host : HostId) {object : HostObject}
    (direct : object.directValue? = some value) :
    takeBack perform type host object world = coerceBack type value world := by
  unfold takeBack
  rw [direct]
  rfl

/-- The object that was made for a value gives the value back, and asking the type once more changes
nothing. -/
theorem fromHost_of_boxed (standard : world.marshaling = .standard)
    (boxes : type.boxes value = true) (accepted : world.accepts type value = true)
    (settled : world.askAccepts type value = world) (perform : Perform) :
    fromHost perform type world.hosts.next (world.withNewHost (type.box value)) =
      (.done (type.widen value), world.withNewHost (type.box value)) := by
  have made : (world.withNewHost (type.box value)).hosts.get world.hosts.next = type.box value :=
    world.hosts.get_push_next _
  have still : (world.withNewHost (type.box value)).accepts type (type.widen value) = true := by
    rw [accepts_widened, accepts_withNewHost boxes]
    exact accepted
  have rules : (world.withNewHost (type.box value)).marshaling = .standard := standard
  have direct := type.directValue?_box boxes
  rw [fromHost_apply rules, made, takeBack_of_direct perform _ direct,
    coerceBack_of_accepts still, ValueType.widen_widen, askAccepts_widen, askAccepts_withNewHost,
    settled]

/-- A host object that no class describes comes back as itself. -/
theorem takeBack_of_opaque (perform : Perform) (host : HostId)
    (opaque_ : (world.hosts.get host).directValue? = none)
    (unpaired : world.classForHost? (world.hosts.get host).type = none) :
    takeBack perform type host (world.hosts.get host) world =
      coerceBack type (.host host) world := by
  have wrapped : wrapHost perform host world = (.done (.host host), world) := by
    unfold wrapHost
    rw [get_bind_apply, unpaired]
    rfl
  unfold takeBack
  rw [opaque_]
  exact bind_of_done _ wrapped

end

/-- What the exchange of one value with the host comes to. -/
structure Exchanges (world : World) (perform : Perform) (type : ValueType) (value : Value) :
    Prop where
  /-- The host takes exactly what the type accepts, and refuses the rest by its type. -/
  taken : world.accepts type value = true ↔
    ∃ host after, toHost value type world = (.done host, after)
  refused : world.accepts type value = false → (toHost value type world).1 =
    .failed (.unmarshalable (world.typeName value) type.name)
  /-- What has a host object made for it comes back as the type stores it, and coming back changes
  nothing.  Going there makes that one object, and may leave references to classes resolved to what
  they stand for. -/
  returned : world.accepts type value = true → type.boxes value = true →
    ∃ host after, toHost value type world = (.done host, after) ∧
      fromHost perform type host after = (.done (type.widen value), after) ∧
      after = { world with
        classRefs := after.classRefs, hosts := world.hosts.push (type.box value) } ∧
      ∀ reference, after.target? reference = world.target? reference
  /-- A host object that is not converted, and that no class describes, is the same there and
  back. -/
  kept : ∀ host, value = .host host → world.accepts type value = true →
    (world.hosts.get host).directValue? = none →
    world.classForHost? (world.hosts.get host).type = none →
    toHost value type world = (.done host, world) ∧
      fromHost perform type host world = (.done (.host host), world)

/-- With the standard rules, the host takes a value exactly if the type accepts it, and what goes to
the host comes back as the type stores it. -/
theorem values_come_back {world : World} (standard : world.marshaling = .standard)
    (perform : Perform) (type : ValueType) (value : Value) :
    Exchanges world perform type value := by
  have goes := @toHost_apply world type value standard
  constructor
  case taken =>
    constructor
    · intro accepted
      rw [goes, if_pos accepted]
      exact formHost_done accepted _
    · rintro ⟨host, after, done⟩
      by_contra rejected
      rw [goes, if_neg rejected] at done
      cases done
  case refused =>
    intro rejected
    rw [goes, rejected]
    rfl
  case returned =>
    intro accepted boxes
    rw [if_pos accepted, formHost_of_boxes boxes] at goes
    refine ⟨_, _, goes, ?_, withNewHost_askAccepts _, target?_askAccepts⟩
    exact fromHost_of_boxed (marshaling_askAccepts.trans standard) boxes
      ((accepts_askAccepts type value).trans accepted) askAccepts_again perform
  case kept =>
    rintro host rfl accepted opaque_ unpaired
    have asked : world.askAccepts type (.host host) = world := by
      cases type <;> rfl
    have stored : type.widen (.host host) = .host host := by
      cases type <;> rfl
    rw [if_pos accepted, asked, formHost_of_host] at goes
    refine ⟨goes, ?_⟩
    rw [fromHost_apply standard, takeBack_of_opaque perform host opaque_ unpaired,
      coerceBack_of_accepts accepted, asked, stored]

/-- An instance crosses as a value of its base, which was registered after it was allocated. -/
theorem values_come_back_early : ∃ host after,
    toHost (.object ⟨0⟩) (.object "A") laidOutEarly = (.done host, after) ∧
      fromHost (performUpTo 0) (.object "A") host after = (.done (.object ⟨0⟩), after) := by
  have standard : laidOutEarly.marshaling = .standard := by decide +kernel
  have accepted : laidOutEarly.accepts (.object "A") (.object ⟨0⟩) = true := by decide +kernel
  obtain ⟨host, after, goes, back, _⟩ :=
    (values_come_back standard (performUpTo 0) (.object "A") (.object ⟨0⟩)).returned accepted rfl
  exact ⟨host, after, goes, back⟩

end ScriptObjects

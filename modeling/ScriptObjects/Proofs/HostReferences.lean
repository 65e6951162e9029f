import ScriptObjects.Proofs.Attachments

/-!
# Host references

Every level of an instance has a host reference of its own.  It is unbound when the instance is laid
out.  A host constructor binds it; otherwise it falls back to the host object of the instance when
it is resolved, and stays bound to it.  Here is what these steps do to the state.
-/

namespace ScriptObjects

set_option autoImplicit false

open Exec

/-! ## Resolving -/

/-- The host object that a reference falls back to while it is unbound: that of its instance, if the
instance is alive and the object is of the described type. -/
def World.fallback? (world : World) (reference : HostReference) : Option HostId :=
  (reference.owner.bind fun owner =>
    if (world.object owner).alive then (world.object owner).host else none).filter
      fun host => reference.described.all (· = (world.hosts.get host).type)

theorem held_of_fallback? {world : World} {reference : HostReference} {host : HostId}
    (falls : world.fallback? reference = some host) :
    ∃ owner, reference.owner = some owner ∧ (world.object owner).host = some host ∧
      reference.described.all (· = (world.hosts.get host).type) = true := by
  obtain ⟨found, fits⟩ := Option.filter_eq_some_iff.mp falls
  obtain ⟨owner, owned, held⟩ := Option.bind_eq_some_iff.mp found
  split at held
  · exact ⟨owner, owned, held, fits⟩
  · cases held

section

variable {reference : ReferenceId} {world : World}

theorem resolveReference_of_bound {host : HostId}
    (bound : (world.references.get reference).bound = some host) :
    resolveReference reference world = (.done host, world) := by
  unfold resolveReference
  simp only [get_bind_apply, bound, pure_apply]

theorem resolveReference_of_fallback {host : HostId}
    (unbound : (world.references.get reference).bound = none)
    (falls : world.fallback? (world.references.get reference) = some host) :
    resolveReference reference world = (.done host, world.bindReference reference host) := by
  obtain ⟨found, fits⟩ := Option.filter_eq_some_iff.mp falls
  unfold resolveReference
  simp only [get_bind_apply, unbound, found, if_pos fits]
  rfl

theorem resolveReference_of_nowhere
    (unbound : (world.references.get reference).bound = none)
    (nowhere : world.fallback? (world.references.get reference) = none) :
    resolveReference reference world =
      (.failed (.unresolvedReference (world.references.get reference).className), world) := by
  unfold resolveReference
  cases found : (world.references.get reference).owner.bind fun owner =>
      if (world.object owner).alive then (world.object owner).host else none with
  | some host =>
      have misfits := Option.filter_eq_none_iff.mp nowhere host found
      simp only [get_bind_apply, unbound, found, if_neg misfits, throw_apply]
  | none => simp only [get_bind_apply, unbound, found, throw_apply]

end

/-! ## Binding -/

/-- The state in which a level of an instance has a host object, and the instance one as well. -/
def World.bindHost (world : World) (receiver : Receiver) (host : HostId) : World :=
  match world.level? receiver.owner receiver.level with
  | some level => (world.bindReference level.reference host).adoptHost receiver.owner host
  | none => world.adoptHost receiver.owner host

theorem bindHost_apply (id : InstanceId) (place : Nat) (host : HostId) (world : World) :
    ScriptObjects.bindHost id place host world = (.done (), world.bindHost ⟨id, place⟩ host) := by
  unfold ScriptObjects.bindHost World.bindHost
  cases sits : world.level? id place with
  | none => simp only [get_bind_apply, sits]; rfl
  | some level => simp only [get_bind_apply, sits, change_bind_apply]; rfl

/-- What a host constructor makes exists. -/
theorem HostConstructor.inside_of_invoke {constructor : HostConstructor} {args : List HostId}
    {host : HostId} {world after : World}
    (made : constructor.invoke args world = (.done host, after)) : host.index < after.hosts.size := by
  have fresh : ∀ object, newHost object world = (.done host, after) →
      host.index < after.hosts.size := by
    intro object pushed
    cases pushed
    exact Nat.lt_of_lt_of_eq (Nat.lt_succ_self _) (Heap.size_push ..).symm
  obtain ⟨_, between, counted, ran⟩ := bind_done made
  have same : between = world := by
    unfold checkArity at counted
    by_cases right : constructor.params.length = args.length
    · rw [if_pos right] at counted
      cases counted
      rfl
    · rw [if_neg right] at counted
      cases counted
  subst same
  unfold ConstructorRoutine.run hostObjects at ran
  rw [ask_bind_apply] at ran
  cases routine : constructor.routine with
  | vector | counter | byte =>
      rw [routine] at ran
      exact fresh _ ran
  | fail =>
      rw [routine] at ran
      cases ran

/-- A call goes on with what its function value is bound to. -/
theorem receiver_of_requireReceiver {callable : Callable} {receiver : Receiver}
    {world after : World} (required : requireReceiver callable world = (.done receiver, after)) :
    callable.receiver = some receiver := by
  obtain ⟨found, between, live, answered⟩ := bind_done required
  have same : found = callable.receiver := by
    unfold liveReceiver at live
    cases bound : callable.receiver with
    | none =>
        simp only [bound] at live
        cases live
        rfl
    | some other =>
        simp only [bound, get_bind_apply] at live
        split at live
        · cases live
          rfl
        · cases live
  rw [← same]
  cases found with
  | none => cases answered
  | some other =>
      cases answered
      rfl

/-! ## The references of a new instance -/

namespace World

/-- The reference of a level of a class, before anything is bound to it. -/
def freshReference (world : World) (owner : InstanceId) (id : ClassId) : HostReference :=
  ⟨(world.cls id).name, (world.cls id).described, some owner, none⟩

/-- What laying out levels does to references: the levels have one each, one after the other. -/
structure LaysReferences (owner : InstanceId) (before : World) (levels : List Level)
    (after : World) : Prop where
  size : after.references.size = before.references.size + levels.length
  fresh : ∀ (offset : Nat) level, levels[offset]? = some level →
    level.reference.index = before.references.size + offset ∧
      after.references.get level.reference = before.freshReference owner level.cls
  old : ∀ reference : ReferenceId, reference.index < before.references.size →
    after.references.get reference = before.references.get reference

theorem lay_laysReferences (owner : InstanceId) (chain : List ClassId) (world : World)
    (place : Nat) :
    LaysReferences owner world (world.lay owner place chain).1 (world.lay owner place chain).2 := by
  induction chain generalizing world place with
  | nil => exact ⟨rfl, fun _ _ found => (nomatch found), fun _ _ => rfl⟩
  | cons id rest ih =>
      have later := ih (world.addLevel owner place id) (place + 1)
      have size : (world.addLevel owner place id).references.size = world.references.size + 1 :=
        Heap.size_push ..
      simp only [lay]
      refine ⟨by rw [later.size, size, List.length_cons]; omega, ?_, fun reference inside => ?_⟩
      · intro offset level found
        cases offset with
        | zero =>
            cases found
            refine ⟨rfl, ?_⟩
            rw [later.old _ (by rw [size]; exact Nat.lt_succ_self _)]
            exact Heap.get_push_next _ _
        | succ offset =>
            obtain ⟨index, there⟩ := later.fresh offset level found
            exact ⟨by rw [index, size]; omega, there⟩
      · rw [later.old reference (by rw [size]; exact Nat.lt_succ_of_lt inside)]
        exact Heap.get_push_of_lt _ _ inside

/-- What an allocation does to instances and references. -/
structure AllocatesReferences (id : ClassId) (before after : World) : Prop where
  level? : ∀ other : InstanceId, other ≠ before.instances.next → ∀ place,
    after.level? other place = before.level? other place
  host : ∀ other, (after.object other).host = (before.object other).host
  size : before.references.size ≤ after.references.size
  fresh : ∀ place level, after.level? before.instances.next place = some level →
    level.reference.index = before.references.size + place ∧
      level.reference.index < after.references.size ∧
      after.references.get level.reference = before.freshReference before.instances.next level.cls
  old : ∀ reference : ReferenceId, reference.index < before.references.size →
    after.references.get reference = before.references.get reference

theorem object_beyond {world : World} {id : InstanceId} (beyond : world.instances.size ≤ id.index) :
    world.object id = default := by
  unfold World.object Heap.get
  rw [Heap.get?_eq_none _ beyond]
  rfl

theorem allocate_references (world : World) (id : ClassId) :
    AllocatesReferences id world (world.allocate id) := by
  have lays := lay_laysReferences world.instances.next (world.ancestors id) world 0
  have size : (world.allocate id).references.size = _ := lays.size
  have kept : (world.lay world.instances.next 0 (world.ancestors id)).2.instances =
      world.instances := by rw [lay_eq]
  have instances : (world.allocate id).instances = world.instances.push
      (freshInstance id (world.lay world.instances.next 0 (world.ancestors id)).1) :=
    congrArg (Heap.push · _) kept
  generalize (world.lay world.instances.next 0 (world.ancestors id)).1 = levels at *
  have same : ∀ other : InstanceId, (world.allocate id).object other =
      if other = world.instances.next then freshInstance id levels else world.object other := by
    intro other
    show (world.allocate id).instances.get other = _
    rw [instances, Heap.get_push]
    rfl
  have sits : ∀ place, (world.allocate id).level? world.instances.next place = levels[place]? := by
    intro place
    unfold World.level?
    rw [same, if_pos rfl]
    rfl
  refine ⟨fun other older place => ?_, fun other => ?_, by rw [size]; omega,
    fun place level found => ?_, lays.old⟩
  · unfold World.level?
    rw [same, if_neg older]
  · rw [same]
    split
    · next newest =>
        exact (congrArg Instance.host (object_beyond (Nat.le_of_eq (by rw [newest]; rfl)))).symm
    · rfl
  · rw [sits] at found
    obtain ⟨index, there⟩ := lays.fresh place level found
    refine ⟨index, ?_, there⟩
    have inside := (List.getElem?_eq_some_iff.mp found).1
    rw [index, size]
    omega

theorem hosts_allocate (world : World) (id : ClassId) :
    (world.allocate id).hosts = world.hosts := by
  show (world.lay world.instances.next 0 (world.ancestors id)).2.hosts = _
  rw [lay_eq]

theorem cls_allocate (world : World) (id other : ClassId) :
    (world.allocate id).cls other = world.cls other := by
  show (world.lay world.instances.next 0 (world.ancestors id)).2.classes.get other = _
  rw [lay_eq]
  rfl

theorem registry_allocate (world : World) (id : ClassId) :
    (world.allocate id).registry = world.registry := by
  show (world.lay world.instances.next 0 (world.ancestors id)).2.registry = _
  rw [lay_eq]

theorem level?_next (world : World) (place : Nat) : world.level? world.instances.next place = none :=
  congrArg (fun object : Instance => object.levels[place]?)
    (object_beyond (Nat.le_refl world.instances.size))

namespace AllocatesReferences

variable {id : ClassId} {before after : World} (allocates : AllocatesReferences id before after)
include allocates

theorem level?_old {other : InstanceId} {place : Nat} {level : Level}
    (sits : before.level? other place = some level) : after.level? other place = some level := by
  have older : other ≠ before.instances.next := by
    rintro rfl
    rw [level?_next] at sits
    cases sits
  exact (allocates.level? other older place).trans sits

/-- A level of the later state is an old one, or one of the new instance. -/
theorem level?_cases {other : InstanceId} {place : Nat} {level : Level}
    (sits : after.level? other place = some level) :
    before.level? other place = some level ∨ other = before.instances.next := by
  by_cases newest : other = before.instances.next
  · exact .inr newest
  · exact .inl (allocates.level? other newest place ▸ sits)

end AllocatesReferences

/-- A new instance begins with a level for its class. -/
theorem allocate_firstLevel (world : World) (id : ClassId) :
    ∃ level, (world.allocate id).level? world.instances.next 0 = some level ∧ level.cls = id := by
  obtain ⟨levels, object, classes⟩ := (allocate_allocates world id).object
  obtain ⟨rest, chain⟩ := head_ancestors world id
  rw [← chain, List.singleton_append] at classes
  obtain ⟨level, more, rfl, same, _⟩ := List.map_eq_cons_iff.mp classes
  refine ⟨level, ?_, same⟩
  unfold World.level?
  rw [object]
  rfl

end World

end ScriptObjects

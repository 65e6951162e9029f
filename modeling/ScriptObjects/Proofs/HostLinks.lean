import ScriptObjects.Proofs.Keeping

/-!
# What levels are bound to

Three places hold host objects: an instance holds one, every level has a reference that may be bound
to one, and a reference that is not bound falls back to that of the instance and is then bound to it.
They are written when a host object is wrapped, when a host constructor is called, and when a
reference is resolved.

The references of levels are linked to them for good: no two levels share one, and it is described as
the class of its level is.  An instance keeps the host object that it has, and a level that is bound
stays bound.  What a level is bound to changes only where a host constructor is called for that very
level; a level that was not bound can otherwise only come to be bound to the host object of its
instance, and only if that is of the type that the class of the level describes.
-/

namespace ScriptObjects

set_option autoImplicit false

open Exec

namespace World

/-! ## Links -/

/-- The host object that a level of an instance is bound to. -/
def bound? (world : World) (receiver : Receiver) : Option HostId :=
  (world.level? receiver.owner receiver.level).bind fun level =>
    (world.references.get level.reference).bound

/-- The levels of all instances are linked to references of their own. -/
structure WellLinked (world : World) : Prop where
  inside : ∀ {id place level}, world.level? id place = some level →
    level.reference.index < world.references.size
  owner : ∀ {id place level}, world.level? id place = some level →
    (world.references.get level.reference).owner = some id
  className : ∀ {id place level}, world.level? id place = some level →
    (world.references.get level.reference).className = (world.cls level.cls).name
  described : ∀ {id place level}, world.level? id place = some level →
    (world.references.get level.reference).described = (world.cls level.cls).described
  apart : ∀ {id place level other spot peer}, world.level? id place = some level →
    world.level? other spot = some peer → level.reference = peer.reference →
    id = other ∧ place = spot
  /-- The host object of an instance exists. -/
  host : ∀ {id host}, (world.object id).host = some host → host.index < world.hosts.size
  /-- So does what a level is bound to. -/
  bound : ∀ {receiver host}, world.bound? receiver = some host → host.index < world.hosts.size
  paired : world.Paired

/-- Levels, their references and the host objects that were there are still there. -/
structure KeepsLinks (before after : World) : Prop where
  alive : after.alive = true → before.alive = true
  level? : ∀ {id place level}, before.level? id place = some level →
    after.level? id place = some level
  host : ∀ {id host}, (before.object id).host = some host → (after.object id).host = some host
  bound : ∀ {receiver}, (before.bound? receiver).isSome → (after.bound? receiver).isSome
  described : ∀ {id place level}, before.level? id place = some level →
    (after.references.get level.reference).described =
      (before.references.get level.reference).described
  hosts : before.hosts.size ≤ after.hosts.size
  types : ∀ {id : HostId}, id.index < before.hosts.size →
    (after.hosts.get id).type = (before.hosts.get id).type

/-- The host object of the instance explains what a level is bound to. -/
structure Explains (world : World) (receiver : Receiver) (host : HostId) : Prop where
  held : (world.object receiver.owner).host = some host
  described : ∀ level, world.level? receiver.owner receiver.level = some level →
    (world.references.get level.reference).described.all (· = (world.hosts.get host).type) = true

/-- What a level is bound to in the second state, it was bound to in the first; or it was not bound
in the first, and the host object of its instance explains it; or it is of a permitted type. -/
inductive Rebound (before : World) (receiver : Receiver) (permitted : HostType → Prop)
    (after : World) : Prop
  | same (same : after.bound? receiver = before.bound? receiver)
  | explained (host : HostId) (unbound : before.bound? receiver = none)
      (bound : after.bound? receiver = some host) (explains : after.Explains receiver host)
  | made (host : HostId) (bound : after.bound? receiver = some host)
      (kind : permitted (after.hosts.get host).type)

/-- From a linked state on, the links are kept, and what one level is bound to changes only as
permitted. -/
structure Relinks (before : World) (receiver : Receiver) (permitted : HostType → Prop)
    (after : World) : Prop where
  linked : after.WellLinked
  keeps : before.KeepsLinks after
  rebound : before.Rebound receiver permitted after

variable {first second third : World} {receiver : Receiver} {permitted : HostType → Prop}

theorem bound?_eq {id : InstanceId} {place : Nat} {level : Level} {world : World}
    (sits : world.level? id place = some level) :
    world.bound? ⟨id, place⟩ = (world.references.get level.reference).bound := by
  unfold bound?
  rw [sits]
  rfl

theorem level?_of_bound? {host : HostId} {world : World} (bound : world.bound? receiver = some host) :
    ∃ level, world.level? receiver.owner receiver.level = some level ∧
      (world.references.get level.reference).bound = some host :=
  Option.bind_eq_some_iff.mp bound

theorem KeepsLinks.refl (world : World) : KeepsLinks world world where
  alive alive := alive
  level? sits := sits
  host held := held
  bound isBound := isBound
  described _ := rfl
  hosts := Nat.le_refl _
  types _ := rfl

theorem KeepsLinks.trans (one : KeepsLinks first second) (two : KeepsLinks second third) :
    KeepsLinks first third where
  alive alive := one.alive (two.alive alive)
  level? sits := two.level? (one.level? sits)
  host held := two.host (one.host held)
  bound isBound := two.bound (one.bound isBound)
  described sits := (two.described (one.level? sits)).trans (one.described sits)
  hosts := Nat.le_trans one.hosts two.hosts
  types inside := (two.types (Nat.lt_of_lt_of_le inside one.hosts)).trans (one.types inside)

theorem Explains.later {host : HostId} (linked : first.WellLinked) (keeps : KeepsLinks first second)
    (sits : ∃ level, first.level? receiver.owner receiver.level = some level)
    (explains : first.Explains receiver host) : second.Explains receiver host where
  held := keeps.host explains.held
  described level there := by
    obtain ⟨level', sits⟩ := sits
    obtain rfl : level' = level := Option.some.inj ((keeps.level? sits).symm.trans there)
    rw [keeps.described sits, keeps.types (linked.host explains.held)]
    exact explains.described _ sits

theorem Rebound.trans (linked : second.WellLinked) (keeps : KeepsLinks second third)
    (one : first.Rebound receiver permitted second)
    (two : second.Rebound receiver permitted third) : first.Rebound receiver permitted third := by
  cases two with
  | same again =>
      cases one with
      | same same => exact .same (again.trans same)
      | explained host unbound bound explains =>
          obtain ⟨level, sits, _⟩ := level?_of_bound? bound
          exact .explained host unbound (again.trans bound)
            (explains.later linked keeps ⟨level, sits⟩)
      | made host bound kind =>
          refine .made host (again.trans bound) ?_
          rw [keeps.types (linked.bound bound)]
          exact kind
  | explained host unbound bound explains =>
      cases one with
      | same same => exact .explained host (same.symm.trans unbound) bound explains
      | explained _ _ other => rw [other] at unbound; cases unbound
      | made _ other => rw [other] at unbound; cases unbound
  | made host bound kind => exact .made host bound kind

/-- A level that was not bound is bound to what its instance holds, or as permitted. -/
theorem Rebound.of_unbound (rebound : first.Rebound receiver permitted second)
    (unbound : first.bound? receiver = none) {host : HostId}
    (bound : second.bound? receiver = some host) :
    second.Explains receiver host ∨ permitted (second.hosts.get host).type := by
  cases rebound with
  | same same =>
      rw [bound, unbound] at same
      cases same
  | explained other _ also explains =>
      obtain rfl : host = other := Option.some.inj (bound.symm.trans also)
      exact .inl explains
  | made other also kind =>
      obtain rfl : host = other := Option.some.inj (bound.symm.trans also)
      exact .inr kind

/-- What is bound stays bound to the same if nothing is permitted. -/
theorem Rebound.of_bound (rebound : first.Rebound receiver (fun _ => False) second) {host : HostId}
    (bound : first.bound? receiver = some host) : second.bound? receiver = some host := by
  cases rebound with
  | same same => exact same.trans bound
  | explained _ unbound =>
      rw [bound] at unbound
      cases unbound
  | made _ _ kind => exact kind.elim

namespace Relinks

theorem refl {world : World} (linked : world.WellLinked) : world.Relinks receiver permitted world :=
  ⟨linked, .refl world, .same rfl⟩

theorem trans (one : first.Relinks receiver permitted second)
    (two : second.Relinks receiver permitted third) : first.Relinks receiver permitted third :=
  ⟨two.linked, one.keeps.trans two.keeps, one.rebound.trans one.linked two.keeps two.rebound⟩

end Relinks

/-! ## Changes beside the links -/

/-- Instances and references are as they were, and the classes of the levels kept what their levels
are known by. -/
structure SameLevels (before after : World) : Prop where
  instances : after.instances = before.instances := by rfl
  references : after.references = before.references := by rfl
  alive : after.alive = true → before.alive = true := by exact fun alive => alive
  hosts : before.hosts.size ≤ after.hosts.size := by exact Nat.le_refl _
  types : ∀ id : HostId, id.index < before.hosts.size →
    (after.hosts.get id).type = (before.hosts.get id).type := by exact fun _ _ => rfl
  labels : ∀ {id place level}, before.level? id place = some level →
    (after.cls level.cls).name = (before.cls level.cls).name ∧
      (after.cls level.cls).described = (before.cls level.cls).described := by
    exact fun _ => ⟨rfl, rfl⟩
  paired : before.Paired → after.Paired := by exact fun paired => paired

theorem SameLinks.sameLevels (same : SameLinks first second) : SameLevels first second where
  instances := same.instances
  references := same.references
  alive alive := same.alive.symm.trans alive
  hosts := same.hosts
  types := same.types
  labels _ := ⟨same.names _, same.described _⟩
  paired paired host id found := by
    rw [same.described]
    refine paired host id ?_
    rw [← found]
    unfold World.classForHost?
    rw [same.registry]

namespace SameLevels

variable (same : SameLevels first second)
include same

theorem level? (id : InstanceId) (place : Nat) : second.level? id place = first.level? id place := by
  unfold World.level? World.object
  rw [same.instances]

theorem bound? (receiver : Receiver) : second.bound? receiver = first.bound? receiver := by
  unfold World.bound?
  rw [same.level?, same.references]

theorem host (id : InstanceId) : (second.object id).host = (first.object id).host := by
  unfold World.object
  rw [same.instances]

theorem wellLinked (linked : first.WellLinked) : second.WellLinked where
  inside sits := by
    rw [same.references]
    exact linked.inside (same.level? .. ▸ sits)
  owner sits := by
    rw [same.references]
    exact linked.owner (same.level? .. ▸ sits)
  className sits := by
    rw [same.level?] at sits
    rw [same.references, (same.labels sits).1]
    exact linked.className sits
  described sits := by
    rw [same.level?] at sits
    rw [same.references, (same.labels sits).2]
    exact linked.described sits
  apart sits there := linked.apart (same.level? .. ▸ sits) (same.level? .. ▸ there)
  host held := Nat.lt_of_lt_of_le (linked.host (same.host _ ▸ held)) same.hosts
  bound bound := Nat.lt_of_lt_of_le (linked.bound (same.bound? _ ▸ bound)) same.hosts
  paired := same.paired linked.paired

theorem keepsLinks : KeepsLinks first second where
  alive := same.alive
  level? sits := (same.level? ..).trans sits
  host held := (same.host _).trans held
  bound isBound := (same.bound? _).symm ▸ isBound
  described _ := by rw [same.references]
  hosts := same.hosts
  types inside := same.types _ inside

end SameLevels

theorem Relinks.of_same (linked : first.WellLinked) (same : SameLevels first second) :
    first.Relinks receiver permitted second :=
  ⟨same.wellLinked linked, same.keepsLinks, .same (same.bound? receiver)⟩

section

variable {world : World}

/-- A change of an instance that keeps its levels, and its host object if it has one. -/
theorem Relinks.of_object (linked : world.WellLinked) (id : InstanceId)
    {change : Instance → Instance} (levels : ∀ object, (change object).levels = object.levels)
    (keeps : ∀ object host, Instance.host object = some host → (change object).host = some host)
    (exist : ∀ object host, (change object).host = some host →
      object.host = some host ∨ host.index < world.hosts.size) :
    world.Relinks receiver permitted (world.withObject id change) := by
  have sits : ∀ other place, (world.withObject id change).level? other place =
      world.level? other place := fun other place =>
    congrArg (·[place]?) (world.instances.get_modify_of id other change Instance.levels levels)
  have bound : ∀ receiver, (world.withObject id change).bound? receiver =
      world.bound? receiver := fun receiver => by
    unfold World.bound?
    rw [sits]
    rfl
  refine ⟨?_, ?_, .same (bound receiver)⟩
  · exact {
      inside := fun there => linked.inside (sits .. ▸ there)
      owner := fun there => linked.owner (sits .. ▸ there)
      className := fun there => linked.className (sits .. ▸ there)
      described := fun there => linked.described (sits .. ▸ there)
      apart := fun there peer => linked.apart (sits .. ▸ there) (sits .. ▸ peer)
      host := fun {other host} held => by
        rw [object_withObject] at held
        split at held
        · obtain old | inside := exist _ host held
          · exact linked.host old
          · exact inside
        · exact linked.host held
      bound := fun isBound => linked.bound (bound _ ▸ isBound)
      paired := linked.paired }
  · exact { KeepsLinks.refl world with
      level? := fun there => (sits ..).trans there
      host := fun {other host} held => by
        rw [object_withObject]
        split
        · next here => exact keeps _ host (here.1 ▸ held)
        · exact held
      bound := fun isBound => (bound _).symm ▸ isBound }

/-! ## New instances -/

/-- Nothing is bound to the levels of a new instance. -/
theorem WellLinked.bound?_allocate (linked : world.WellLinked) (id : ClassId)
    (receiver : Receiver) : (world.allocate id).bound? receiver = world.bound? receiver := by
  have allocates := allocate_references world id
  cases old : world.level? receiver.owner receiver.level with
  | some level =>
      rw [show world.bound? receiver = _ from bound?_eq old,
        show (world.allocate id).bound? receiver = _ from bound?_eq (allocates.level?_old old),
        allocates.old _ (linked.inside old)]
  | none =>
      have unbound : world.bound? receiver = none := by
        unfold World.bound?
        rw [old]
        rfl
      cases sits : (world.allocate id).level? receiver.owner receiver.level with
      | none =>
          unfold World.bound?
          rw [sits, old]
          rfl
      | some level =>
          obtain before | newest := allocates.level?_cases sits
          · rw [old] at before
            cases before
          · have fresh := sits
            rw [newest] at fresh
            rw [unbound, show (world.allocate id).bound? receiver = _ from bound?_eq sits,
              (allocates.fresh _ _ fresh).2.2]
            rfl

theorem WellLinked.allocate (linked : world.WellLinked) (id : ClassId) :
    (world.allocate id).WellLinked := by
  have allocates := allocate_references world id
  have old : ∀ {other place level}, world.level? other place = some level →
      (world.allocate id).references.get level.reference =
        world.references.get level.reference :=
    fun sits => allocates.old _ (linked.inside sits)
  refine ⟨fun sits => ?_, fun sits => ?_, fun sits => ?_, fun sits => ?_,
    fun sits there same => ?_, fun held => ?_, fun isBound => ?_, fun host cls found => ?_⟩
  · obtain before | rfl := allocates.level?_cases sits
    · exact Nat.lt_of_lt_of_le (linked.inside before) allocates.size
    · exact (allocates.fresh _ _ sits).2.1
  · obtain before | rfl := allocates.level?_cases sits
    · rw [old before]
      exact linked.owner before
    · rw [(allocates.fresh _ _ sits).2.2]
      rfl
  · rw [cls_allocate]
    obtain before | rfl := allocates.level?_cases sits
    · rw [old before]
      exact linked.className before
    · rw [(allocates.fresh _ _ sits).2.2]
      rfl
  · rw [cls_allocate]
    obtain before | rfl := allocates.level?_cases sits
    · rw [old before]
      exact linked.described before
    · rw [(allocates.fresh _ _ sits).2.2]
      rfl
  · obtain before | rfl := allocates.level?_cases sits
    · obtain also | rfl := allocates.level?_cases there
      · exact linked.apart before also same
      · have fresh := (allocates.fresh _ _ there).1
        have inside := linked.inside before
        rw [same, fresh] at inside
        omega
    · have fresh := (allocates.fresh _ _ sits).1
      obtain also | rfl := allocates.level?_cases there
      · have inside := linked.inside also
        rw [← same, fresh] at inside
        omega
      · have peer := (allocates.fresh _ _ there).1
        rw [← same, fresh] at peer
        exact ⟨rfl, Nat.add_left_cancel peer⟩
  · rw [hosts_allocate]
    exact linked.host (allocates.host _ ▸ held)
  · rw [hosts_allocate]
    exact linked.bound (linked.bound?_allocate id _ ▸ isBound)
  · rw [cls_allocate]
    refine linked.paired host cls ?_
    rw [← found]
    unfold World.classForHost?
    rw [registry_allocate]

theorem Relinks.of_allocate (linked : world.WellLinked) (id : ClassId) :
    world.Relinks receiver permitted (world.allocate id) := by
  have allocates := allocate_references world id
  refine ⟨linked.allocate id, ?_, .same (linked.bound?_allocate id receiver)⟩
  exact {
    alive := fun alive => (Continues.allocate world id).alive.symm.trans alive
    level? := allocates.level?_old
    host := fun held => (allocates.host _).trans held
    bound := fun isBound => (linked.bound?_allocate id _).symm ▸ isBound
    described := fun sits => by rw [allocates.old _ (linked.inside sits)]
    hosts := Nat.le_of_eq (by rw [hosts_allocate])
    types := fun _ => by rw [hosts_allocate] }

/-! ## Binding -/

theorem references_bindReference (reference other : ReferenceId) (host : HostId) :
    (world.bindReference reference host).references.get other =
      if other = reference ∧ reference.index < world.references.size then
        { world.references.get reference with bound := some host }
      else world.references.get other :=
  world.references.get_modify reference other _

/-- Binding the reference of a level binds that level. -/
theorem bound?_bindReference_same (linked : world.WellLinked) {receiver : Receiver} {level : Level}
    (sits : world.level? receiver.owner receiver.level = some level) (host : HostId) :
    (world.bindReference level.reference host).bound? receiver = some host := by
  rw [show (world.bindReference level.reference host).bound? receiver = _ from bound?_eq sits,
    references_bindReference, if_pos ⟨rfl, linked.inside sits⟩]

/-- It binds no other level. -/
theorem bound?_bindReference_other {receiver : Receiver} {reference : ReferenceId}
    (other : ∀ level, world.level? receiver.owner receiver.level = some level →
      level.reference ≠ reference) (host : HostId) :
    (world.bindReference reference host).bound? receiver = world.bound? receiver := by
  cases sits : world.level? receiver.owner receiver.level with
  | none =>
      unfold World.bound?
      rw [sits]
      exact congrArg (Option.bind · _) sits
  | some level =>
      rw [show (world.bindReference reference host).bound? receiver = _ from bound?_eq sits,
        references_bindReference, if_neg fun both => other level sits both.1]
      exact (bound?_eq sits).symm

theorem WellLinked.bindReference (linked : world.WellLinked) (reference : ReferenceId)
    {host : HostId} (inside : host.index < world.hosts.size) :
    (world.bindReference reference host).WellLinked ∧
      world.KeepsLinks (world.bindReference reference host) := by
  have view : ∀ {β : Type} (view : HostReference → β),
      (∀ reference, view { reference with bound := some host } = view reference) → ∀ other,
      view ((world.bindReference reference host).references.get other) =
        view (world.references.get other) :=
    fun view same other => world.references.get_modify_of reference other _ view same
  refine ⟨⟨fun sits => ?_, fun sits => ?_, fun sits => ?_, fun sits => ?_, linked.apart, linked.host,
    fun isBound => ?_, linked.paired⟩,
    { KeepsLinks.refl world with bound := fun isBound => ?_, described := ?_ }⟩
  · exact Nat.lt_of_lt_of_eq (linked.inside sits) (Heap.size_modify ..).symm
  · rw [view HostReference.owner fun _ => rfl]
    exact linked.owner sits
  · rw [view HostReference.className fun _ => rfl]
    exact linked.className sits
  · rw [view HostReference.described fun _ => rfl]
    exact linked.described sits
  · obtain ⟨level, sits, isBound⟩ := level?_of_bound? isBound
    rw [references_bindReference] at isBound
    split at isBound
    · cases isBound
      exact inside
    · exact linked.bound (Option.bind_eq_some_iff.mpr ⟨level, sits, isBound⟩)
  · obtain ⟨old, isBound⟩ := Option.isSome_iff_exists.mp isBound
    obtain ⟨level, sits, isBound⟩ := level?_of_bound? isBound
    rw [show (world.bindReference reference host).bound? _ = _ from bound?_eq sits,
      references_bindReference]
    split
    · rfl
    · exact isBound ▸ rfl
  · exact fun _ => view HostReference.described (fun _ => rfl) _

/-- A new reference is that of no level. -/
theorem Relinks.of_pushReference (linked : world.WellLinked) (reference : HostReference) :
    world.Relinks receiver permitted
      { world with references := world.references.push reference } := by
  have old : ∀ {id place level}, world.level? id place = some level →
      (world.references.push reference).get level.reference =
        world.references.get level.reference :=
    fun sits => Heap.get_push_of_lt _ _ (linked.inside sits)
  have bound : ∀ receiver, World.bound? { world with
      references := world.references.push reference } receiver = world.bound? receiver := by
    intro receiver
    cases sits : world.level? receiver.owner receiver.level with
    | none =>
        unfold bound?
        rw [sits]
        exact congrArg (Option.bind · _) sits
    | some level =>
        rw [show world.bound? receiver = _ from bound?_eq sits, ← old sits]
        exact show World.bound? { world with references := world.references.push reference }
          receiver = _ from bound?_eq sits
  refine ⟨?_, ?_, .same (bound receiver)⟩
  · exact {
      inside := fun sits => Nat.lt_of_lt_of_le (linked.inside sits) (by simp)
      owner := fun sits => (congrArg HostReference.owner (old sits)).trans (linked.owner sits)
      className := fun sits =>
        (congrArg HostReference.className (old sits)).trans (linked.className sits)
      described := fun sits =>
        (congrArg HostReference.described (old sits)).trans (linked.described sits)
      apart := linked.apart
      host := linked.host
      bound := fun isBound => linked.bound (bound _ ▸ isBound)
      paired := linked.paired }
  · exact { KeepsLinks.refl world with
      bound := fun isBound => (bound _).symm ▸ isBound
      described := fun sits => congrArg HostReference.described (old sits) }

/-- An instance is given a host object, unless it has one. -/
theorem Relinks.of_adoptHost (linked : world.WellLinked) (id : InstanceId) {host : HostId}
    (inside : host.index < world.hosts.size) :
    world.Relinks receiver permitted (world.adoptHost id host) := by
  refine .of_object linked id (fun _ => rfl) (fun object held same => ?_)
    fun object held same => ?_
  · rw [same]
    rfl
  · cases already : object.host with
    | none =>
        rw [already] at same
        cases same
        exact .inr inside
    | some other =>
        rw [already] at same
        exact .inl same

/-- What a reference falls back to exists. -/
theorem WellLinked.inside_of_fallback? (linked : world.WellLinked) {reference : HostReference}
    {host : HostId} (falls : world.fallback? reference = some host) :
    host.index < world.hosts.size := by
  obtain ⟨owner, _, held, _⟩ := held_of_fallback? falls
  exact linked.host held

/-- An unbound reference is bound to what it falls back to. -/
theorem Relinks.of_fallback (linked : world.WellLinked) {reference : ReferenceId} {host : HostId}
    (unbound : (world.references.get reference).bound = none)
    (falls : world.fallback? (world.references.get reference) = some host) :
    world.Relinks receiver permitted (world.bindReference reference host) := by
  obtain ⟨after, keeps⟩ := linked.bindReference reference (linked.inside_of_fallback? falls)
  refine ⟨after, keeps, ?_⟩
  by_cases here : ∃ level, world.level? receiver.owner receiver.level = some level ∧
      level.reference = reference
  · obtain ⟨level, sits, rfl⟩ := here
    obtain ⟨owner, owned, held, described⟩ := held_of_fallback? falls
    obtain rfl : receiver.owner = owner := Option.some.inj ((linked.owner sits).symm.trans owned)
    refine .explained host ((bound?_eq sits).trans unbound)
      (bound?_bindReference_same linked sits host) ⟨held, fun other there => ?_⟩
    obtain rfl : level = other := Option.some.inj (sits.symm.trans there)
    rw [keeps.described sits]
    exact described
  · exact .same (bound?_bindReference_other (fun level sits same => here ⟨level, sits, same⟩) host)

/-- Whatever level is given a host object, the links are kept. -/
theorem WellLinked.bindHost (linked : world.WellLinked) (target : Receiver) {host : HostId}
    (inside : host.index < world.hosts.size) :
    (world.bindHost target host).WellLinked ∧ world.KeepsLinks (world.bindHost target host) := by
  have adopts : ∀ {between : World}, between.WellLinked → between.hosts.size = world.hosts.size →
      between.Relinks target (fun _ => True) (between.adoptHost target.owner host) :=
    fun after size => .of_adoptHost after target.owner (size ▸ inside)
  unfold World.bindHost
  split
  · next level sits =>
      obtain ⟨after, keeps⟩ := linked.bindReference level.reference inside
      exact ⟨(adopts after rfl).linked, keeps.trans (adopts after rfl).keeps⟩
  · exact ⟨(adopts linked rfl).linked, (adopts linked rfl).keeps⟩

theorem bound?_adoptHost (id : InstanceId) (host : HostId) (receiver : Receiver) :
    (world.adoptHost id host).bound? receiver = world.bound? receiver := by
  unfold World.bound?
  have levels : (world.adoptHost id host).level? receiver.owner receiver.level =
      world.level? receiver.owner receiver.level :=
    congrArg (·[receiver.level]?)
      (world.instances.get_modify_of id receiver.owner _ Instance.levels fun _ => rfl)
  rw [levels]
  rfl

/-- A level that is given a host object is bound to it. -/
theorem bound?_bindHost_same (linked : world.WellLinked) {id : InstanceId} {place : Nat}
    {level : Level} (sits : world.level? id place = some level) (host : HostId) :
    (world.bindHost ⟨id, place⟩ host).bound? ⟨id, place⟩ = some host := by
  unfold World.bindHost
  rw [sits]
  exact (bound?_adoptHost ..).trans (bound?_bindReference_same linked sits host)

/-- No other level is. -/
theorem bound?_bindHost_other (linked : world.WellLinked) {target : Receiver}
    (other : target ≠ receiver) (host : HostId) :
    (world.bindHost target host).bound? receiver = world.bound? receiver := by
  unfold World.bindHost
  split
  · next level sits =>
      refine (bound?_adoptHost ..).trans (bound?_bindReference_other (fun peer there same => ?_) host)
      obtain ⟨owner, place⟩ := linked.apart sits there same.symm
      apply other
      obtain ⟨_, _⟩ := target
      obtain ⟨_, _⟩ := receiver
      simp_all
  · exact bound?_adoptHost ..

/-- Where there is no such level, nothing is bound. -/
theorem bound?_bindHost_nowhere (nowhere : world.level? receiver.owner receiver.level = none)
    (host : HostId) : (world.bindHost receiver host).bound? receiver = world.bound? receiver := by
  unfold World.bindHost
  rw [nowhere]
  exact bound?_adoptHost ..

/-- A new instance is given the host object that it wraps. -/
theorem Relinks.of_wrap (linked : world.WellLinked) {target : Receiver} {level : Level}
    {host : HostId} (sits : world.level? target.owner target.level = some level)
    (unbound : (world.references.get level.reference).bound = none)
    (hostless : (world.object target.owner).host = none) (inside : host.index < world.hosts.size)
    (described : (world.references.get level.reference).described.all
      (· = (world.hosts.get host).type) = true) :
    world.Relinks receiver permitted (world.bindHost target host) := by
  obtain ⟨after, keeps⟩ := linked.bindHost target inside
  refine ⟨after, keeps, ?_⟩
  by_cases same : target = receiver
  · subst same
    refine .explained host ((bound?_eq sits).trans unbound)
      (bound?_bindHost_same linked sits host) ⟨?_, fun other there => ?_⟩
    · unfold World.bindHost
      rw [sits]
      show ((World.withObject _ target.owner _).object target.owner).host = some host
      rw [object_withObject, if_pos ⟨rfl, inside_of_level? sits⟩]
      exact congrArg (fun held : Option HostId => some (held.getD host)) hostless
    · obtain rfl : level = other := Option.some.inj ((keeps.level? sits).symm.trans there)
      rw [keeps.described sits, keeps.types inside]
      exact described
  · exact .same (bound?_bindHost_other linked same host)

/-- A host constructor of a level gives it a host object. -/
theorem Relinks.of_construct (linked : world.WellLinked) {target : Receiver} {host : HostId}
    (inside : host.index < world.hosts.size)
    (may : target ≠ receiver ∨ ∀ type, permitted type) :
    world.Relinks receiver permitted (world.bindHost target host) := by
  obtain ⟨after, keeps⟩ := linked.bindHost target inside
  refine ⟨after, keeps, ?_⟩
  by_cases same : target = receiver
  · subst same
    have all := may.resolve_left fun other => other rfl
    cases sits : world.level? target.owner target.level with
    | none => exact .same (bound?_bindHost_nowhere sits host)
    | some level => exact .made host (bound?_bindHost_same linked sits host) (all _)
  · exact .same (bound?_bindHost_other linked same host)

end

end World

/-! ## What a level is bound to is in custody -/

/-- What a level is bound to, with an exception for the host constructors of the level, unless
whatever they make is permitted. -/
def Custody.level (receiver : Receiver) (permitted : HostType → Prop) : Custody where
  keeps before after := before.WellLinked → before.Relinks receiver permitted after
  mayWrite _ _ := True
  mayBind target := target ≠ receiver ∨ ∀ type, permitted type
  refl _ linked := .refl linked
  trans one two linked := (one linked).trans (two (one linked).linked)
  aside same linked := .of_same linked same.toSameLinks.sameLevels
  insert _ _ _ _ linked := .of_same linked {}
  annotate _ _ _ _ linked := .of_same linked {}
  write _ _ _ _ _ linked := .of_same linked {}
  withdraw _ inside linked := (inside linked).trans (.of_same (inside linked).linked {})
  allocate _ id linked := .of_allocate linked id
  object _ id _ same linked := .of_object linked id (fun object => (same object).1)
    (fun object _ held => ((same object).2.trans held)) fun object _ held =>
      .inl ((same object).2.symm.trans held)
  fallback unbound falls linked := .of_fallback linked unbound falls
  wrap sits unbound hostless inside described linked :=
    .of_wrap linked sits unbound hostless inside (described linked.paired)
  construct may inside linked := .of_construct linked inside may

end ScriptObjects

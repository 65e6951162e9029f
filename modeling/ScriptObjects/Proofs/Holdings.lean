import ScriptObjects.Proofs.Collisions

/-!
# What a state holds

Values are kept in tables, in function values, in host objects, under session names and in
the slots of stores; instances and host objects are also named by references, by stores and
by the annotations of instances and of slots.  A state is in order when everything that it
names anywhere exists, and every stored value is one that the type of its slot accepts.

Whether a type accepts a value depends on the classes and the host objects of the moment.
A later state accepts what an earlier one accepted, because chains only grow, an instance
keeps its class and its host object, and a host object keeps its type.  This is false of an
instance that does not exist yet, which is why the two halves of the invariant go together.
-/

namespace ScriptObjects

set_option autoImplicit false

/-! ## Growth -/

/-- As far as types are concerned, all of the first state is still there in the second. -/
structure World.KeepsTypes (before after : World) : Prop where
  instances : before.instances.size ≤ after.instances.size := by exact Nat.le_refl _
  hosts : before.hosts.size ≤ after.hosts.size := by exact Nat.le_refl _
  classes : before.classes.size ≤ after.classes.size := by exact Nat.le_refl _
  refs : before.classRefs.size ≤ after.classRefs.size := by exact Nat.le_refl _
  cls : ∀ id : InstanceId, id.index < before.instances.size →
    (after.object id).cls = (before.object id).cls := by intros; rfl
  host : ∀ (id : InstanceId) (host : HostId), id.index < before.instances.size →
    (before.object id).host = some host → (after.object id).host = some host := by
      intro _ _ _ same; exact same
  types : ∀ id : HostId, id.index < before.hosts.size →
    (after.hosts.get id).type = (before.hosts.get id).type := by intros; rfl
  names : ∀ id : ClassId, id.index < before.classes.size →
    (after.cls id).name = (before.cls id).name := by intros; rfl
  chains : ∀ (id : ClassId) (name : String), id.index < before.classes.size →
    before.doesExtend id name = true → after.doesExtend id name = true := by
      intro id name _ met
      refine Eq.trans (World.SameHierarchy.doesExtend ?_ id name) met
      exact ⟨rfl, rfl, fun _ => rfl, fun _ => rfl⟩

/-- The types are kept, and so are all slots. -/
structure World.Grows (before after : World) : Prop extends before.KeepsTypes after where
  slots : before.KeepsSlots after := by exact fun _ _ slot found => ⟨slot, found, .refl slot⟩

namespace World.KeepsTypes

variable {first second third : World}

theorem trans (one : KeepsTypes first second) (two : KeepsTypes second third) :
    KeepsTypes first third where
  instances := Nat.le_trans one.instances two.instances
  hosts := Nat.le_trans one.hosts two.hosts
  classes := Nat.le_trans one.classes two.classes
  refs := Nat.le_trans one.refs two.refs
  cls id inside := (two.cls id (Nat.lt_of_lt_of_le inside one.instances)).trans (one.cls id inside)
  host id host inside same :=
    two.host id host (Nat.lt_of_lt_of_le inside one.instances) (one.host id host inside same)
  types id inside := (two.types id (Nat.lt_of_lt_of_le inside one.hosts)).trans (one.types id inside)
  names id inside :=
    (two.names id (Nat.lt_of_lt_of_le inside one.classes)).trans (one.names id inside)
  chains id name inside met :=
    two.chains id name (Nat.lt_of_lt_of_le inside one.classes) (one.chains id name inside met)

end World.KeepsTypes

namespace World.Grows

variable {first second third : World}

theorem refl (world : World) : Grows world world := {}

theorem trans (one : Grows first second) (two : Grows second third) : Grows first third where
  toKeepsTypes := one.toKeepsTypes.trans two.toKeepsTypes
  slots := one.slots.trans two.slots

theorem extends_of_same {id : ClassId} {name : String} (met : first.doesExtend id name = true)
    (same : World.SameHierarchy first second) : second.doesExtend id name = true :=
  (same.doesExtend id name).trans met

/-- What is declared of classes may be learned, as long as it stays the same. -/
theorem of_hierarchy (same : World.SameHierarchy first second)
    (refs : first.classRefs.size ≤ second.classRefs.size)
    (instances : second.instances = first.instances) (hosts : second.hosts = first.hosts)
    (stores : second.stores = first.stores) : Grows first second where
  instances := Nat.le_of_eq (congrArg Heap.size instances).symm
  hosts := Nat.le_of_eq (congrArg Heap.size hosts).symm
  classes := Nat.le_of_eq same.size.symm
  refs := refs
  cls id _ := congrArg (fun heap => (Heap.get heap id).cls) instances
  host id _ _ held := (congrArg (fun heap => (Heap.get heap id).host) instances).trans held
  types id _ := congrArg (fun heap => (Heap.get heap id).type) hosts
  names id _ := same.name id
  chains _ _ _ met := extends_of_same met same
  slots := .of_same fun id _ => congrArg (fun heap => Heap.get heap id) stores

theorem of_same (registry : second.registry = first.registry)
    (classes : second.classes = first.classes)
    (classRefs : second.classRefs = first.classRefs) (alive : second.alive = first.alive)
    (instances : second.instances = first.instances) (hosts : second.hosts = first.hosts)
    (stores : second.stores = first.stores) : Grows first second :=
  of_hierarchy (.of_same registry classes classRefs alive)
    (Nat.le_of_eq (congrArg Heap.size classRefs).symm) instances hosts stores

theorem withHosts (world : World) (hosts : Heap .host HostObject)
    (size : world.hosts.size ≤ hosts.size)
    (types : ∀ id : HostId, id.index < world.hosts.size →
      (hosts.get id).type = (world.hosts.get id).type) :
    Grows world { world with hosts := hosts } :=
  { refl world with
    hosts := size
    types
    chains := fun _ _ _ met => extends_of_same met (.of_same rfl rfl rfl rfl) }

theorem withObject (world : World) (id : InstanceId) (change : Instance → Instance)
    (cls : ∀ object, (change object).cls = object.cls)
    (host : ∀ object held, Instance.host object = some held → (change object).host = some held) :
    Grows world (world.withObject id change) :=
  { refl world with
    instances := Nat.le_of_eq (Heap.size_modify ..).symm
    chains := fun _ _ _ met => extends_of_same met (.of_same rfl rfl rfl rfl)
    cls := fun _ _ => Heap.get_modify_of _ _ _ _ Instance.cls cls
    host := fun other held _ same => by
      rw [World.object_withObject]
      split
      · next here => exact host _ _ (here.1 ▸ same)
      · exact same }

theorem allocate (world : World) (id : ClassId) : Grows world (world.allocate id) := by
  have allocates := World.allocate_allocates world id
  have continues := World.Continues.allocate world id
  have rest := World.lay_eq world.instances.next (world.ancestors id) world 0
  have hosts : (world.allocate id).hosts = world.hosts := by
    show (world.lay world.instances.next 0 (world.ancestors id)).2.hosts = _
    rw [rest]
  have old : ∀ other : InstanceId, other.index < world.instances.size →
      (world.allocate id).object other = world.object other := by
    intro other inside
    show ((world.lay world.instances.next 0 (world.ancestors id)).2.instances.push _).get other = _
    rw [rest]
    exact Heap.get_push_of_lt _ _ inside
  exact {
    instances := continues.instances
    hosts := Nat.le_of_eq (congrArg Heap.size hosts).symm
    classes := Nat.le_of_eq continues.hierarchy.size.symm
    refs := continues.refs
    cls := fun other inside => congrArg Instance.cls (old other inside)
    host := fun other _ inside same => (congrArg Instance.host (old other inside)).trans same
    types := fun other _ => congrArg (fun heap => (Heap.get heap other).type) hosts
    names := fun other _ => continues.hierarchy.name other
    chains := fun other name _ met => (continues.hierarchy.doesExtend other name).trans met
    slots := .of_same allocates.old }

/-- A class of which more is known extends at least what it extended. -/
theorem of_extends (grows : first.Extends second)
    (refs : first.classRefs.size ≤ second.classRefs.size) (instances : second.instances = first.instances)
    (hosts : second.hosts = first.hosts) (stores : second.stores = first.stores) :
    first.Grows second where
  instances := Nat.le_of_eq (congrArg Heap.size instances).symm
  hosts := Nat.le_of_eq (congrArg Heap.size hosts).symm
  classes := grows.size
  refs := refs
  cls id _ := congrArg (fun heap => (Heap.get heap id).cls) instances
  host id _ _ same := (congrArg (fun heap => (Heap.get heap id).host) instances).trans same
  types id _ := congrArg (fun heap => (Heap.get heap id).type) hosts
  names id inside := congrArg ClassDef.name (grows.cls id inside)
  chains id name inside met := by
    unfold World.doesExtend World.properAncestors at met ⊢
    rw [grows.cls id inside]
    obtain ⟨member, there, named⟩ := List.any_eq_true.mp met
    have longer := grows.walk (Nat.succ_le_succ grows.size) [(first.cls id).hash]
      (fun base next => grows.inside id base next) (grows.base id)
    have registered : member.index < first.classes.size :=
      World.walk_inside grows.inside (fun base next => grows.inside id base next) member there
    refine List.any_eq_true.mpr ⟨member, longer.subset there, ?_⟩
    rw [grows.cls member registered]
    exact named
  slots := .of_same fun id _ => congrArg (fun heap => Heap.get heap id) stores

end World.Grows

/-! ## Data that names things -/

/-- Data that may name classes, references to them, instances and host objects, with what it means
for all that it names to exist. -/
class Naming (α : Type) where
  exist : World → α → Prop
  later : ∀ {before after : World} {data : α}, before.KeepsTypes after → exist before data →
    exist after data

/-- Data that names nothing. -/
@[reducible] def Naming.nothing {α : Type} : Naming α := ⟨fun _ _ => True, fun _ _ => trivial⟩

namespace World

/-- Everything that some data names exists. -/
def Has {α : Type} [Naming α] (world : World) (data : α) : Prop := Naming.exist world data

theorem KeepsTypes.has {α : Type} [Naming α] {before after : World}
    (keeps : before.KeepsTypes after) {data : α} (has : before.Has data) : after.Has data :=
  Naming.later keeps has

theorem Grows.has {α : Type} [Naming α] {before after : World} (grows : before.Grows after)
    {data : α} (has : before.Has data) : after.Has data :=
  grows.toKeepsTypes.has has

end World

section

variable {α β : Type}

instance : Naming Unit := .nothing
instance : Naming Bool := .nothing
instance : Naming Nat := .nothing
instance : Naming Int64 := .nothing
instance : Naming String := .nothing
instance : Naming Ordering := .nothing
instance : Naming Snapshot := .nothing
instance : Naming Scope := .nothing
instance : Naming TableKey := .nothing
instance : Naming TableId := .nothing
instance : Naming CallableId := .nothing
instance : Naming ReferenceId := .nothing
instance : Naming StoreId := .nothing
instance : Naming ContextId := .nothing
instance : Naming MetaLink := .nothing
instance : Naming MetaTable := .nothing
instance : Naming Function := .nothing
instance : Naming Field := .nothing

instance : Naming ClassId where
  exist world id := id.index < world.classes.size
  later keeps inside := Nat.lt_of_lt_of_le inside keeps.classes

instance : Naming ClassRefId where
  exist world id := id.index < world.classRefs.size
  later keeps inside := Nat.lt_of_lt_of_le inside keeps.refs

instance : Naming InstanceId where
  exist world id := id.index < world.instances.size
  later keeps inside := Nat.lt_of_lt_of_le inside keeps.instances

instance : Naming HostId where
  exist world id := id.index < world.hosts.size
  later keeps inside := Nat.lt_of_lt_of_le inside keeps.hosts

instance [Naming α] : Naming (Option α) where
  exist world data := ∀ part ∈ data, world.Has part
  later keeps has part member := keeps.has (has part member)

instance [Naming α] : Naming (List α) where
  exist world data := ∀ part ∈ data, world.Has part
  later keeps has part member := keeps.has (has part member)

instance [Naming α] [Naming β] : Naming (α × β) where
  exist world data := world.Has data.1 ∧ world.Has data.2
  later keeps has := ⟨keeps.has has.1, keeps.has has.2⟩

instance [Naming α] : Naming (Except Fault α) where
  exist world data := ∀ result, data = .ok result → world.Has result
  later keeps has result same := keeps.has (has result same)

/-- What a value names exists. -/
def World.HasValue (world : World) : Value → Prop
  | .object id => world.Has id
  | .host id => world.Has id
  | .null | .bool _ | .int _ | .float _ | .text _ | .table _ | .function _ => True

instance : Naming Value where
  exist := World.HasValue
  later {before after data} keeps has := by
    cases data with
    | object id => exact keeps.has (show before.Has id from has)
    | host id => exact keeps.has (show before.Has id from has)
    | null | bool | int | float | text | table | function => trivial

instance : Naming Table where
  exist world table := ∀ entry ∈ table.entries, world.Has entry.2
  later keeps has entry member := keeps.has (has entry member)

/-- The value in a host object that holds one exists. -/
def World.HasPayload (world : World) : HostObject → Prop
  | .dynamic value => world.Has value
  | _ => True

instance : Naming HostObject where
  exist := World.HasPayload
  later {before after data} keeps has := by
    cases data with
    | dynamic value => exact keeps.has (show before.Has value from has)
    | vector | counter | int64 | int32 | byte | boolean | float64 | text | staticText | unit =>
        trivial

instance : Naming Receiver where
  exist world receiver := world.Has receiver.owner
  later keeps has := keeps.has has

instance : Naming Callable where
  exist world callable := world.Has callable.receiver
  later keeps has := keeps.has has

instance : Naming HostReference where
  exist world reference := world.Has reference.bound
  later keeps has := keeps.has has

instance : Naming ClassRef where
  exist world reference := world.Has reference.target
  later keeps has := keeps.has has

instance : Naming ClassDef where
  exist world cls := world.Has cls.base
  later keeps has := keeps.has has

instance : Naming Registry where
  exist world registry :=
    (∀ name, world.Has (registry.names.lookup name)) ∧ world.Has registry.order ∧
      ∀ host, world.Has (registry.hosts.lookup host)
  later keeps has :=
    ⟨fun name => keeps.has (has.1 name), keeps.has has.2.1, fun host => keeps.has (has.2.2 host)⟩

instance : Naming Level where
  exist world level := world.Has level.cls
  later keeps has := keeps.has has

instance : Naming Instance where
  exist world object :=
    world.Has object.cls ∧ world.Has object.host ∧ world.Has object.annotations ∧
      world.Has object.levels
  later keeps has :=
    ⟨keeps.has has.1, keeps.has has.2.1, keeps.has has.2.2.1, keeps.has has.2.2.2⟩

instance : Naming Invocation where
  exist world call := world.Has call.receiver ∧ world.Has call.args
  later keeps has := ⟨keeps.has has.1, keeps.has has.2⟩

/-- The instance at which a store is at home exists. -/
def World.HasHome (world : World) : StoreHome → Prop
  | .level owner .. => world.Has owner
  | .free _ | .root _ => True

instance : Naming StoreHome where
  exist := World.HasHome
  later {before after data} keeps has := by
    cases data with
    | level owner => exact keeps.has (show before.Has owner from has)
    | free | root => trivial

/-- What the session saved exists. -/
def World.HasSaved (world : World) : Binding → Prop
  | .value value => world.Has value
  | .scope _ | .context _ | .classRef _ | .reference _ => True

instance : Naming Binding where
  exist := World.HasSaved
  later {before after data} keeps has := by
    cases data with
    | value value => exact keeps.has (show before.Has value from has)
    | scope | context | classRef | reference => trivial

end

namespace World

variable {world : World}

theorem has_nil {α : Type} [Naming α] : world.Has ([] : List α) :=
  fun _ member => (List.not_mem_nil member).elim

theorem has_cons {α : Type} [Naming α] {part : α} {rest : List α} (head : world.Has part)
    (tail : world.Has rest) : world.Has (part :: rest) :=
  List.forall_mem_cons.mpr ⟨head, tail⟩

theorem has_append {α : Type} [Naming α] {first second : List α} (one : world.Has first)
    (two : world.Has second) : world.Has (first ++ second) :=
  List.forall_mem_append.mpr ⟨one, two⟩

theorem has_none {α : Type} [Naming α] : world.Has (none : Option α) := by
  intro _ member
  cases member

theorem has_some {α : Type} [Naming α] {part : α} (has : world.Has part) :
    world.Has (some part) := by
  intro _ member
  cases member
  exact has

/-! ## Tables -/

theorem has_put {key : TableKey} {value : Value} (has : world.Has value)
    (entries : List (TableKey × Value)) (all : ∀ entry ∈ entries, world.Has entry.2) :
    ∀ entry ∈ Table.put key value entries, world.Has entry.2 := by
  induction entries with
  | nil =>
      intro entry member
      rw [List.mem_singleton.mp member]
      exact has
  | cons head rest ih =>
      obtain ⟨first, others⟩ := List.forall_mem_cons.mp all
      unfold Table.put
      split
      · exact List.forall_mem_cons.mpr ⟨has, others⟩
      · exact List.forall_mem_cons.mpr ⟨first, ih others⟩

theorem has_set {table : Table} {key : TableKey} {value : Value} (filled : world.Has table)
    (has : world.Has value) : world.Has (table.set key value) := by
  unfold Table.set
  split
  · exact fun entry member => filled entry (List.mem_of_mem_filter member)
  · exact has_put has table.entries filled

theorem has_get {table : Table} (filled : world.Has table) (key : TableKey) :
    world.Has (table.get key) := by
  unfold Table.get Table.find?
  cases found : table.entries.lookup key with
  | none => exact trivial
  | some value =>
      obtain ⟨before, after, same, _⟩ := List.lookup_eq_some_iff.mp found
      exact filled (key, value) (by rw [same]; simp)

theorem has_sequence {table : Table} (filled : world.Has table) : world.Has table.sequence := by
  intro value member
  obtain ⟨position, _, rfl⟩ := List.mem_map.mp member
  exact has_get filled _

theorem has_ofList {values : List Value} (has : world.Has values) :
    world.Has (Table.ofList values) := by
  suffices ∀ position, ∀ entry ∈ Table.itemsFrom position values, world.Has entry.2 from this 1
  induction values with
  | nil => exact fun _ _ member => (List.not_mem_nil member).elim
  | cons value rest ih =>
      obtain ⟨head, tail⟩ := List.forall_mem_cons.mp has
      exact fun position => List.forall_mem_cons.mpr ⟨head, ih tail (position + 1)⟩

/-! ## Accepted values -/

theorem accepts_object (world : World) (name : String) (id : InstanceId) :
    world.accepts (.object name) (.object id) =
      ((world.cls (world.object id).cls).name = name ||
        world.doesExtend (world.object id).cls name) := rfl

theorem accepts_host (world : World) (type : HostType) (id : HostId) :
    world.accepts (.host type) (.host id) = decide ((world.hosts.get id).type = type) := rfl

/-- A host type accepts an instance for its host object. -/
theorem accepts_hosted (world : World) (type : HostType) (id : InstanceId) :
    world.accepts (.host type) (.object id) =
      (world.object id).host.any fun host => (world.hosts.get host).type = type := by
  cases has : (world.object id).host with
  | none => simp [accepts, has]
  | some host => simp [accepts, has]

/-- All that an instance names exists. -/
def Placed (world : World) : Prop := ∀ id : InstanceId, world.Has id → world.Has (world.object id)

/-- A later state accepts what was accepted. -/
theorem KeepsTypes.accepts {before after : World} (keeps : before.KeepsTypes after)
    (placed : before.Placed)
    {type : ValueType} {value : Value} (known : before.Has value)
    (accepted : before.accepts type value = true) : after.accepts type value = true := by
  cases value with
  | object id =>
      have inside : before.Has id := known
      obtain ⟨registered, hosted, _⟩ := placed id inside
      cases type with
      | object name =>
          rw [accepts_object, Bool.or_eq_true] at accepted ⊢
          rw [keeps.cls id inside, keeps.names _ registered]
          exact accepted.imp_right fun met => keeps.chains _ name registered met
      | host type =>
          rw [accepts_hosted, Option.any_eq_true] at accepted ⊢
          obtain ⟨host, has, same⟩ := accepted
          refine ⟨host, keeps.host id host inside has, ?_⟩
          rw [keeps.types host (hosted host has)]
          exact same
      | any | null | bool | int | float | text | table | function => exact accepted
  | host id =>
      cases type with
      | host type =>
          rw [accepts_host] at accepted ⊢
          rw [keeps.types id known]
          exact accepted
      | any | null | bool | int | float | text | table | function | object => exact accepted
  | null | bool | int | float | text | table | function => cases type <;> exact accepted

/-- What a slot keeps is known, and its type accepts it in the form in which it is kept. -/
structure Fits (world : World) (slot : Slot) : Prop where
  annotations : world.Has slot.annotations
  known : ∀ value, slot.content = .script (some value) → world.Has value
  accepted : ∀ value, slot.content = .script (some value) → world.accepts slot.type value = true
  widened : ∀ word, slot.content = .script (some (.int word)) → slot.type ≠ .float

theorem Fits.later {before after : World} {slot : Slot} (fits : before.Fits slot)
    (placed : before.Placed) (keeps : before.KeepsTypes after) : after.Fits slot where
  annotations := keeps.has fits.annotations
  known value kept := keeps.has (fits.known value kept)
  accepted value kept := keeps.accepts placed (fits.known value kept) (fits.accepted value kept)
  widened := fits.widened

/-! ## Order -/

/-- Everything that a state holds exists from the point of view of another. -/
structure Holds (view world : World) : Prop where
  classes : ∀ id, view.Has (world.classes.get id)
  registry : view.Has world.registry
  tables : ∀ id, view.Has (world.tables.get id)
  callables : ∀ id, view.Has (world.callables.get id)
  hosts : ∀ id, view.Has (world.hosts.get id)
  references : ∀ id, view.Has (world.references.get id)
  classRefs : ∀ id, view.Has (world.classRefs.get id)
  bindings : ∀ entry ∈ world.bindings, view.Has entry.2
  homes : ∀ id, view.Has (world.store id).home
  slots : ∀ id, ∀ entry ∈ (world.store id).slots, view.Fits entry.2

theorem Holds.later {before after world : World} (holds : Holds before world)
    (placed : before.Placed) (keeps : before.KeepsTypes after) : Holds after world where
  classes id := keeps.has (holds.classes id)
  registry := keeps.has holds.registry
  tables id := keeps.has (holds.tables id)
  callables id := keeps.has (holds.callables id)
  hosts id := keeps.has (holds.hosts id)
  references id := keeps.has (holds.references id)
  classRefs id := keeps.has (holds.classRefs id)
  bindings entry member := keeps.has (holds.bindings entry member)
  homes id := keeps.has (holds.homes id)
  slots id entry member := (holds.slots id entry member).later placed keeps

/-- All that a state names exists, and all that it stores is accepted. -/
structure InOrder (world : World) : Prop where
  placed : world.Placed
  holds : Holds world world

theorem InOrder.findClass? {world : World} (order : world.InOrder) (name : String) :
    world.Has (world.findClass? name) := order.holds.registry.1 name

theorem InOrder.classForHost? {world : World} (order : world.InOrder) (host : HostType) :
    world.Has (world.classForHost? host) := order.holds.registry.2.2 host

/-- What every cell of a heap has, and a new cell too, every cell has after the allocation. -/
theorem has_push {view : World} {kind : HandleKind} {α : Type} [Inhabited α] [Naming α]
    {heap : Heap kind α} (all : ∀ id, view.Has (heap.get id)) {cell : α} (has : view.Has cell) :
    ∀ id, view.Has ((heap.push cell).get id) := by
  intro id
  rw [Heap.get_push]
  split
  · exact has
  · exact all id

theorem has_modify {view : World} {kind : HandleKind} {α : Type} [Inhabited α] [Naming α]
    {heap : Heap kind α} (all : ∀ id, view.Has (heap.get id)) {handle : Handle kind}
    {change : α → α} (has : view.Has (change (heap.get handle))) :
    ∀ id, view.Has ((heap.modify handle change).get id) := by
  intro id
  rw [Heap.get_modify]
  split
  · exact has
  · exact all id

/-! ## Steps from order to order -/

/-- From order, the first state grows to the second, which is in order again. -/
def Advances (before after : World) : Prop :=
  before.InOrder → before.Grows after ∧ after.InOrder

namespace Advances

theorem refl (world : World) : Advances world world := fun order => ⟨.refl world, order⟩

theorem trans {first second third : World} (one : Advances first second)
    (two : Advances second third) : Advances first third := by
  intro order
  obtain ⟨grows, between⟩ := one order
  obtain ⟨further, last⟩ := two between
  exact ⟨grows.trans further, last⟩

/-- It suffices that the second state holds only what existed in the first. -/
theorem of_holds {before after : World} (grows : before.Grows after)
    (step : before.InOrder → after.Placed ∧ Holds before after) : Advances before after := by
  intro order
  obtain ⟨placed, holds⟩ := step order
  exact ⟨grows, placed, holds.later order.placed grows.toKeepsTypes⟩

theorem pushTable {table : Table} (has : world.Has table) :
    Advances world { world with tables := world.tables.push table } :=
  .of_holds (.of_same rfl rfl rfl rfl rfl rfl rfl) fun order =>
    ⟨order.placed, { order.holds with tables := has_push order.holds.tables has }⟩

theorem withTable (id : TableId) {update : Table → Table}
    (has : ∀ table, world.Has table → world.Has (update table)) :
    Advances world (world.withTable id update) :=
  .of_holds (.of_same rfl rfl rfl rfl rfl rfl rfl) fun order =>
    ⟨order.placed,
      { order.holds with
        tables := has_modify order.holds.tables (has _ (order.holds.tables id)) }⟩

theorem pushHost {object : HostObject} (has : world.Has object) :
    Advances world { world with hosts := world.hosts.push object } := by
  have grows : world.Grows { world with hosts := world.hosts.push object } :=
    .withHosts world _ (by simp) fun id inside =>
      congrArg HostObject.type (Heap.get_push_of_lt _ _ inside)
  exact .of_holds grows fun order =>
    ⟨fun id inside => grows.has (order.placed id inside),
      { order.holds with hosts := has_push order.holds.hosts has }⟩

theorem withHost {id : HostId} {object : HostObject} (has : world.Has object)
    (same : object.type = (world.hosts.get id).type) :
    Advances world (world.withHost id object) := by
  have grows : world.Grows (world.withHost id object) := by
    refine .withHosts world _ (Nat.le_of_eq (Heap.size_modify ..).symm) fun other _ => ?_
    rw [Heap.get_modify]
    split
    · next here => rw [same, here.1]
    · rfl
  exact .of_holds grows fun order =>
    ⟨fun id inside => grows.has (order.placed id inside),
      { order.holds with hosts := has_modify order.holds.hosts has }⟩

theorem pushCallable {callable : Callable} (has : world.Has callable) :
    Advances world { world with callables := world.callables.push callable } :=
  .of_holds (.of_same rfl rfl rfl rfl rfl rfl rfl) fun order =>
    ⟨order.placed, { order.holds with callables := has_push order.holds.callables has }⟩

theorem pushReference {reference : HostReference} (has : world.Has reference) :
    Advances world { world with references := world.references.push reference } :=
  .of_holds (.of_same rfl rfl rfl rfl rfl rfl rfl) fun order =>
    ⟨order.placed, { order.holds with references := has_push order.holds.references has }⟩

theorem bindReference {host : HostId} (id : ReferenceId) (has : world.Has host) :
    Advances world (world.bindReference id host) :=
  .of_holds (.of_same rfl rfl rfl rfl rfl rfl rfl) fun order =>
    ⟨order.placed,
      { order.holds with
        references := has_modify order.holds.references (has_some has) }⟩

theorem withContext (id : ContextId) (update : Context → Context) :
    Advances world (world.withContext id update) :=
  .of_holds (.of_same rfl rfl rfl rfl rfl rfl rfl) fun order => ⟨order.placed, { order.holds with }⟩

theorem pushContext (context : Context) :
    Advances world { world with contexts := world.contexts.push context } :=
  .of_holds (.of_same rfl rfl rfl rfl rfl rfl rfl) fun order => ⟨order.placed, { order.holds with }⟩

theorem setLog (log : List Snapshot) : Advances world { world with log := log } :=
  .of_holds (.of_same rfl rfl rfl rfl rfl rfl rfl) fun order => ⟨order.placed, { order.holds with }⟩

theorem bind {binding : Binding} (name : String) (has : world.Has binding) :
    Advances world (world.bind name binding) :=
  .of_holds (.of_same rfl rfl rfl rfl rfl rfl rfl) fun order =>
    ⟨order.placed, { order.holds with
      bindings := List.forall_mem_cons.mpr
        ⟨has, fun entry member => order.holds.bindings entry (List.mem_of_mem_filter member)⟩ }⟩

/-! ### The hierarchy -/

theorem has_target? {reference : ClassRefId} {target : ClassId} (order : world.InOrder)
    (stands : world.target? reference = some target) : world.Has target := by
  unfold target? at stands
  split at stands
  · dsimp only at stands
    split at stands
    · next known =>
        cases stands
        exact order.holds.classRefs reference _ known
    · exact order.findClass? _ target stands
  · cases stands

theorem has_base? {id base : ClassId} (order : world.InOrder) (next : world.base? id = some base) :
    world.Has base := by
  obtain ⟨reference, _, stands⟩ := Option.bind_eq_some_iff.mp next
  exact has_target? order stands

theorem touchRef (reference : ClassRefId) : Advances world (world.touchRef reference) := by
  have grows : world.Grows (world.touchRef reference) := by
    refine .of_hierarchy (.touchRef world reference)
      (Nat.le_of_eq (world.size_classRefs_touchRef reference).symm) ?_ ?_ ?_ <;> rw [touchRef_eq]
  refine .of_holds grows fun order => ?_
  rw [touchRef_eq]
  refine ⟨order.placed, { order.holds with classRefs := fun other => ?_ }⟩
  intro target known
  obtain same | ⟨_, stands⟩ := world.target_touchRef reference other
  · rw [same] at known
    exact order.holds.classRefs other target known
  · rw [stands] at known
    exact has_target? order known

theorem resolveBases (world : World) (visited : List ClassId) :
    Advances world (world.resolveBases visited) :=
  resolveBases_induction (motive := Advances world) (.refl world)
    (fun _ reference advances => advances.trans (.touchRef reference)) visited

theorem withMetaTable (world : World) (id : ClassId) (table : Option MetaTable) :
    Advances world (world.withClass id fun cls => { cls with metaTable := table }) := by
  have kept := Continues.withClass world id table
  have grows := Grows.of_hierarchy kept.hierarchy (Nat.le_refl _) rfl rfl rfl
  refine .of_holds grows fun order =>
    ⟨fun other inside => grows.has (order.placed other inside),
      { order.holds with classes := has_modify order.holds.classes ?_ }⟩
  exact order.holds.classes id

theorem keepMetaTable (world : World) (id : ClassId) : Advances world (world.keepMetaTable id) := by
  unfold World.keepMetaTable
  cases (world.cls id).metaTable with
  | some table => exact .refl world
  | none =>
      exact Advances.trans (resolveBases world (world.visitedByMetaTable id))
        (withMetaTable _ id _)

/-! ### Instances -/

theorem withObject (id : InstanceId) {change : Instance → Instance}
    (cls : ∀ object, (change object).cls = object.cls)
    (host : ∀ object held, Instance.host object = some held → (change object).host = some held)
    (has : ∀ object, world.Has object → world.Has (change object)) :
    Advances world (world.withObject id change) := by
  have grows := Grows.withObject world id change cls host
  have size : (world.withObject id change).instances.size = world.instances.size :=
    Heap.size_modify ..
  refine .of_holds grows fun order => ⟨fun other inside => grows.has ?_, { order.holds with }⟩
  have old : world.Has other := Nat.lt_of_lt_of_eq inside size
  rw [object_withObject]
  split
  · next here => exact has _ (here.1 ▸ order.placed other old)
  · exact order.placed other old

theorem adoptHost {host : HostId} (id : InstanceId) (has : world.Has host) :
    Advances world (world.adoptHost id host) := by
  refine .withObject id (fun _ => rfl) (fun object held same => by simp [same]) ?_
  intro object ⟨cls, hosted, attached⟩
  refine ⟨cls, has_some ?_, attached⟩
  cases already : object.host with
  | none => exact has
  | some other => exact hosted other already

theorem has_references_lay {view : World} (owner : InstanceId) (chain : List ClassId)
    (world : World) (place : Nat) (all : ∀ id, view.Has (world.references.get id)) :
    ∀ id, view.Has ((world.lay owner place chain).2.references.get id) := by
  induction chain generalizing world place with
  | nil => exact all
  | cons id rest ih => exact ih (world.addLevel owner place id) _ (has_push all has_none)

/-- A store of the state after an allocation is an old one, or empty and at home on the new
instance. -/
theorem store_allocate (world : World) (id : ClassId) (store : StoreId) :
    (world.allocate id).store store = world.store store ∨
      ∃ place cls tier,
        (world.allocate id).store store = .empty (.level world.instances.next place cls tier) := by
  have allocates := allocate_allocates world id
  by_cases old : store.index < world.stores.size
  · exact .inl (allocates.old store old)
  · by_cases inside : store.index < (world.allocate id).stores.size
    · obtain ⟨place, level, tier, sits, rfl⟩ :=
        allocates.homes store (Nat.le_of_not_lt old) inside
      exact .inr ⟨place, level.cls, tier, (allocates.stores place level sits tier).2⟩
    · left
      unfold World.store Heap.get
      rw [Heap.get?_eq_none _ (Nat.le_of_not_lt old), Heap.get?_eq_none _ (Nat.le_of_not_lt inside)]

theorem allocate {id : ClassId} (has : world.Has id) : Advances world (world.allocate id) := by
  intro order
  have grows := Grows.allocate world id
  have allocates := allocate_allocates world id
  have rest := lay_eq world.instances.next (world.ancestors id) world 0
  have fresh : (world.allocate id).Has world.instances.next := by
    show world.instances.size < _
    rw [allocates.size]
    exact Nat.lt_succ_self _
  have later := order.holds.later order.placed grows.toKeepsTypes
  refine ⟨grows, fun other inside => ?_, ?_⟩
  · by_cases old : other.index < world.instances.size
    · have same : (world.allocate id).object other = world.object other := by
        show ((world.lay world.instances.next 0 (world.ancestors id)).2.instances.push _).get other
          = _
        rw [rest]
        exact Heap.get_push_of_lt _ _ old
      rw [same]
      exact grows.has (order.placed other old)
    · have last : other = world.instances.next := by
        have bound : other.index < world.instances.size + 1 := allocates.size ▸ inside
        obtain ⟨index⟩ := other
        exact congrArg Handle.mk (Nat.eq_of_lt_succ_of_not_lt bound old)
      obtain ⟨levels, made, chain⟩ := allocates.object
      have known : ∀ level ∈ levels, (world.allocate id).Has level := by
        intro level member
        have registered := ancestors_inside (fun id base => has_base? order) has level.cls
          (chain ▸ List.mem_map_of_mem member)
        exact grows.has registered
      rw [last, made]
      exact ⟨grows.has has, has_none, has_nil, known⟩
  · have references := has_references_lay world.instances.next (world.ancestors id) world 0
      later.references
    have homes : ∀ store, (world.allocate id).Has ((world.allocate id).store store).home := by
      intro store
      obtain same | ⟨place, cls, tier, same⟩ := store_allocate world id store
      · rw [same]
        exact later.homes store
      · rw [same]
        exact fresh
    have slots : ∀ store, ∀ entry ∈ ((world.allocate id).store store).slots,
        (world.allocate id).Fits entry.2 := by
      intro store entry member
      obtain same | ⟨place, cls, tier, same⟩ := store_allocate world id store
      · rw [same] at member
        exact later.slots store entry member
      · rw [same] at member
        cases member
    generalize holder : world.allocate id = view at references homes slots later ⊢
    simp only [World.allocate] at holder
    rw [rest] at holder
    subst holder
    exact { later with references, homes, slots }

/-! ### Stores -/

/-- A store is replaced by one with the same home, which keeps the old slots. -/
theorem withStore (id : StoreId) {change : Store → Store}
    (home : ∀ store, (change store).home = store.home)
    (keeps : world.KeepsSlots (world.withStore id change))
    (fits : world.InOrder → ∀ entry ∈ (change (world.store id)).slots, world.Fits entry.2) :
    Advances world (world.withStore id change) := by
  refine .of_holds { slots := keeps } fun order =>
    ⟨order.placed, { order.holds with homes := fun other => ?_, slots := fun other => ?_ }⟩
  · rw [show ((world.withStore id change).store other).home = (world.store other).home from
      Heap.get_modify_of _ _ _ _ Store.home home]
    exact order.holds.homes other
  · rw [store_withStore]
    split
    · exact fits order
    · exact order.holds.slots other

theorem insert {slot : Slot} (id : StoreId) (name : String) (fits : world.Fits slot) :
    Advances world (world.withStore id (·.insert name slot)) := by
  refine .withStore id (fun _ => rfl) (.insert world id name slot) fun order entry member => ?_
  obtain old | new := List.mem_append.mp member
  · exact order.holds.slots id entry old
  · rw [List.mem_singleton.mp new]
    exact fits

/-- An entry of a store of which a slot was changed is an old one or the changed one. -/
theorem mem_modifySlot {name : String} {change : Slot → Slot} {slots : List (String × Slot)}
    {entry : String × Slot} (member : entry ∈ Store.modifySlot name change slots) :
    entry ∈ slots ∨ ∃ slot, slots.lookup name = some slot ∧ entry.2 = change slot := by
  induction slots with
  | nil => cases member
  | cons head rest ih =>
      obtain ⟨label, slot⟩ := head
      unfold Store.modifySlot at member
      split at member
      · next here =>
          subst here
          obtain rfl | old := List.mem_cons.mp member
          · exact .inr ⟨slot, List.lookup_cons_self, rfl⟩
          · exact .inl (List.mem_cons_of_mem _ old)
      · next differs =>
          obtain rfl | later := List.mem_cons.mp member
          · exact .inl List.mem_cons_self
          · obtain old | ⟨found, there, same⟩ := ih later
            · exact .inl (List.mem_cons_of_mem _ old)
            · exact .inr ⟨found, (Store.lookup_cons_ne slot rest (Ne.symm differs)).trans there,
                same⟩

theorem modify {change : Slot → Slot} (id : StoreId) (name : String)
    (keeps : ∀ slot, (world.store id).slot? name = some slot → slot.Persists (change slot))
    (fits : world.InOrder → ∀ slot, (world.store id).slot? name = some slot → world.Fits slot →
      world.Fits (change slot)) :
    Advances world (world.withStore id (·.modify name change)) := by
  refine .withStore id (fun _ => rfl) (.modify world id name change keeps)
    fun order entry member => ?_
  obtain old | ⟨slot, found, same⟩ := mem_modifySlot member
  · exact order.holds.slots id entry old
  · obtain ⟨before, after, split, _⟩ := List.lookup_eq_some_iff.mp found
    have there : (name, slot) ∈ (world.store id).slots := by rw [split]; simp
    rw [same]
    exact fits order slot found (order.holds.slots id (name, slot) there)

end Advances

end World

end ScriptObjects

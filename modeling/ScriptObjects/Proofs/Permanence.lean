import ScriptObjects.Proofs.Lookups

/-!
# What stays

Along a run nothing that exists disappears.  The settings, the life of the assembly
and every declaration stay as they are; a reference stands for the class it stood
for; an instance keeps its class and its levels, a store its home, a function value
its function.  New things only ever appear beyond the ones that exist.

Every slot stays as well, with its type and with the kind of its content, and a slot
that holds a function holds that function for good.
-/

namespace ScriptObjects

set_option autoImplicit false

/-! ## Declarations, handles and homes -/

/-- The second state continues the first: what has an identity in the first is the same in the
second. -/
structure World.Continues (before after : World) : Prop where
  config : after.config = before.config := by rfl
  marshaling : after.marshaling = before.marshaling := by rfl
  alive : after.alive = before.alive := by rfl
  functions : after.functions = before.functions := by rfl
  hierarchy : World.SameHierarchy before after := by exact ⟨rfl, rfl, fun _ => rfl, fun _ => rfl⟩
  refs : before.classRefs.size ≤ after.classRefs.size := by exact Nat.le_refl _
  names : ∀ reference, reference.index < before.classRefs.size →
    (after.classRefs.get reference).name = (before.classRefs.get reference).name := by
      intros; rfl
  targets : ∀ reference, reference.index < before.classRefs.size →
    after.target? reference = before.target? reference := by intros; rfl
  remembered : ∀ reference, (before.classRefs.get reference).target.isSome →
    after.classRefs.get reference = before.classRefs.get reference := by intros; rfl
  instances : before.instances.size ≤ after.instances.size := by exact Nat.le_refl _
  objects : ∀ id, id.index < before.instances.size → (after.object id).cls = (before.object id).cls ∧
    (after.object id).levels = (before.object id).levels := by intros; exact ⟨rfl, rfl⟩
  stores : before.stores.size ≤ after.stores.size := by exact Nat.le_refl _
  homes : ∀ id, id.index < before.stores.size →
    (after.store id).home = (before.store id).home := by intros; rfl
  callables : before.callables.size ≤ after.callables.size := by exact Nat.le_refl _
  values : ∀ callable, callable.index < before.callables.size →
    after.callables.get callable = before.callables.get callable := by intros; rfl

namespace World.Continues

variable {first second third : World}

theorem refl (world : World) : Continues world world := {}

/-- A reference that remembers its class is within the heap. -/
theorem inside_of_remembered {world : World} {reference : ClassRefId}
    (remembered : (world.classRefs.get reference).target.isSome) :
    reference.index < world.classRefs.size := by
  apply Nat.lt_of_not_le
  intro beyond
  unfold Heap.get at remembered
  rw [Heap.get?_eq_none _ beyond] at remembered
  cases remembered

theorem trans (one : Continues first second) (two : Continues second third) :
    Continues first third where
  config := two.config.trans one.config
  marshaling := two.marshaling.trans one.marshaling
  alive := two.alive.trans one.alive
  functions := two.functions.trans one.functions
  hierarchy := one.hierarchy.trans two.hierarchy
  refs := Nat.le_trans one.refs two.refs
  names reference old :=
    (two.names reference (Nat.lt_of_lt_of_le old one.refs)).trans (one.names reference old)
  targets reference old :=
    (two.targets reference (Nat.lt_of_lt_of_le old one.refs)).trans (one.targets reference old)
  remembered reference known := by
    have same := one.remembered reference known
    rw [two.remembered reference (same ▸ known), same]
  instances := Nat.le_trans one.instances two.instances
  objects id old := by
    obtain ⟨cls, levels⟩ := one.objects id old
    obtain ⟨again, more⟩ := two.objects id (Nat.lt_of_lt_of_le old one.instances)
    exact ⟨again.trans cls, more.trans levels⟩
  stores := Nat.le_trans one.stores two.stores
  homes id old :=
    (two.homes id (Nat.lt_of_lt_of_le old one.stores)).trans (one.homes id old)
  callables := Nat.le_trans one.callables two.callables
  values callable old :=
    (two.values callable (Nat.lt_of_lt_of_le old one.callables)).trans (one.values callable old)

theorem touch (world : World) (reference : ClassRefId) :
    Continues world (world.touchRef reference) := by
  rw [World.touchRef_eq]
  exact { refl world with
    hierarchy := by rw [← World.touchRef_eq]; exact .touchRef world reference
    refs := Nat.le_of_eq (world.size_classRefs_touchRef reference).symm
    names := fun other _ => world.name_touchRef reference other
    targets := fun other _ => by rw [← World.touchRef_eq]; exact world.target?_touchRef reference other
    remembered := fun other known => world.get_touchRef_of_remembered reference known }

theorem withStore (world : World) (id : StoreId) (change : Store → Store)
    (home : ∀ store, (change store).home = store.home) :
    Continues world (world.withStore id change) :=
  { refl world with
    hierarchy := .of_same rfl rfl rfl rfl
    stores := Nat.le_of_eq (Heap.size_modify ..).symm
    homes := fun _ _ => Heap.get_modify_of _ _ _ _ Store.home home }

theorem withContext (world : World) (id : ContextId) (change : Context → Context) :
    Continues world (world.withContext id change) :=
  { refl world with hierarchy := .of_same rfl rfl rfl rfl }

theorem withObject (world : World) (id : InstanceId) (change : Instance → Instance)
    (keeps : ∀ object, (change object).cls = object.cls ∧ (change object).levels = object.levels) :
    Continues world (world.withObject id change) :=
  { refl world with
    hierarchy := .of_same rfl rfl rfl rfl
    instances := Nat.le_of_eq (Heap.size_modify ..).symm
    objects := fun _ _ =>
      ⟨Heap.get_modify_of _ _ _ _ Instance.cls fun object => (keeps object).1,
        Heap.get_modify_of _ _ _ _ Instance.levels fun object => (keeps object).2⟩ }

/-- Keeping a table of meta-functions changes no declaration and no target. -/
theorem withClass (world : World) (id : ClassId) (table : Option MetaTable) :
    Continues world (world.withClass id fun cls => { cls with metaTable := table }) := by
  let after := world.withClass id fun cls => { cls with metaTable := table }
  have size : after.classes.size = world.classes.size := Heap.size_modify ..
  have declared : ∀ other, (after.cls other).declared = (world.cls other).declared :=
    fun other => Heap.get_modify_of _ _ _ _ ClassDef.declared fun _ => rfl
  have targets : ∀ reference, after.target? reference = world.target? reference :=
    fun reference => World.target?_congr rfl rfl rfl
  have bases : ∀ other, after.base? other = world.base? other := by
    intro other
    have base : (after.cls other).base = (world.cls other).base :=
      Heap.get_modify_of _ _ _ _ ClassDef.base fun _ => rfl
    unfold World.base?
    rw [base, funext targets]
  exact { refl world with
    hierarchy := ⟨rfl, size, declared, bases⟩
    targets := fun reference _ => targets reference }

end World.Continues

/-! ## New instances -/

namespace World

/-- Laying out levels adds references and stores and changes nothing else. -/
theorem lay_eq (owner : InstanceId) (chain : List ClassId) (world : World) (place : Nat) :
    (world.lay owner place chain).2 =
      { world with
        references := (world.lay owner place chain).2.references
        stores := (world.lay owner place chain).2.stores } := by
  induction chain generalizing world place with
  | nil => rfl
  | cons id rest ih =>
      simp only [lay]
      rw [ih]
      rfl

theorem size_stores_addLevel (world : World) (owner : InstanceId) (place : Nat) (id : ClassId) :
    (world.addLevel owner place id).stores.size = world.stores.size + 3 := by
  simp [addLevel]

theorem store_addLevel_of_lt (world : World) (owner : InstanceId) (place : Nat) (id : ClassId)
    {store : StoreId} (old : store.index < world.stores.size) :
    (world.addLevel owner place id).store store = world.store store := by
  simp only [addLevel, World.store]
  rw [Heap.get_push_of_lt, Heap.get_push_of_lt, Heap.get_push_of_lt _ _ old]
  · rw [Heap.size_push]
    omega
  · rw [Heap.size_push, Heap.size_push]
    omega

theorem size_stores_lay (owner : InstanceId) (chain : List ClassId) (world : World) (place : Nat) :
    world.stores.size ≤ (world.lay owner place chain).2.stores.size := by
  induction chain generalizing world place with
  | nil => exact Nat.le_refl _
  | cons id rest ih =>
      have later := ih (world.addLevel owner place id) (place + 1)
      rw [size_stores_addLevel] at later
      simp only [lay]
      omega

theorem store_lay_of_lt (owner : InstanceId) (chain : List ClassId) (world : World) (place : Nat)
    {store : StoreId} (old : store.index < world.stores.size) :
    (world.lay owner place chain).2.store store = world.store store := by
  induction chain generalizing world place with
  | nil => rfl
  | cons id rest ih =>
      have inside : store.index < (world.addLevel owner place id).stores.size := by
        rw [size_stores_addLevel]
        omega
      simp only [lay]
      rw [ih _ _ inside, store_addLevel_of_lt _ _ _ _ old]

theorem Continues.lay (owner : InstanceId) (chain : List ClassId) (world : World) (place : Nat) :
    Continues world (world.lay owner place chain).2 := by
  have stores := size_stores_lay owner chain world place
  have homes : ∀ id, id.index < world.stores.size →
      ((world.lay owner place chain).2.store id).home = (world.store id).home :=
    fun id old => congrArg Store.home (store_lay_of_lt owner chain world place old)
  rw [lay_eq] at homes ⊢
  exact { refl world with hierarchy := .of_same rfl rfl rfl rfl, stores, homes }

theorem Continues.pushInstance (world : World) (object : Instance) :
    Continues world { world with instances := world.instances.push object } :=
  { refl world with
    hierarchy := .of_same rfl rfl rfl rfl
    instances := by simp
    objects := fun _ old => by
      have same := Heap.get_push_of_lt world.instances object old
      exact ⟨congrArg Instance.cls same, congrArg Instance.levels same⟩ }

theorem Continues.allocate (world : World) (id : ClassId) :
    Continues world (world.allocate id) :=
  (Continues.lay world.instances.next (world.ancestors id) world 0).trans (.pushInstance _ _)

theorem Continues.pushCallable (world : World) (callable : Callable) :
    Continues world { world with callables := world.callables.push callable } :=
  { refl world with
    hierarchy := .of_same rfl rfl rfl rfl
    callables := by simp
    values := fun _ old => Heap.get_push_of_lt world.callables callable old }

end World

/-! ## Runs -/

theorem Change.continues {may : String → Prop} {opened : InstanceId → Prop} {first second : World}
    (change : Change may opened first second) : first.Continues second := by
  cases change with
  | touch reference => exact .touch first reference
  | metaTable id _ => exact .withClass first id _
  | placeholder className => exact .pushCallable first _
  | callable => exact .pushCallable first _
  | install store => exact .withStore first store _ fun _ => rfl
  | declare store => exact .withStore first store _ fun _ => rfl
  | field => exact .withStore first _ _ fun _ => rfl
  | write store => exact .withStore first store _ fun _ => rfl
  | annotate store => exact .withStore first store _ fun _ => rfl
  | adopt id => exact .withObject first id _ fun _ => ⟨rfl, rfl⟩
  | openView id => exact .withObject first id _ fun _ => ⟨rfl, rfl⟩
  | attach id => exact .withObject first id _ fun _ => ⟨rfl, rfl⟩
  | mark id => exact .withObject first id _ fun _ => ⟨rfl, rfl⟩
  | allocate id => exact .allocate first id
  | table | setTable | host | setHost | context | bindFallback | bindLevel | save | record =>
      exact { World.Continues.refl first with hierarchy := .of_same rfl rfl rfl rfl }

theorem Evolves.continues {may : String → Prop} {opened : InstanceId → Prop}
    {first second : World} (evolves : Evolves may opened first second) :
    first.Continues second := by
  refine evolves.lift (motive := World.Continues) .refl (fun one two => one.trans two)
    Change.continues ?_ ?_
  · intro second third context frame deeper _ inside
    have pushed := World.Continues.withContext second context fun _ => deeper
    exact (pushed.trans inside).trans (.withContext third context _)
  · intro second third store callable function _ _ _ _ inside
    have installed := World.Continues.withStore second store
      (·.insert function.name (.function callable)) fun _ => rfl
    exact (installed.trans inside).trans (.withStore third store _ fun _ => rfl)

/-! ## Slots -/

/-- The second slot is the first at a later time: its content may have been assigned, unless it
holds a function. -/
structure Slot.Persists (before after : Slot) : Prop where
  type : after.type = before.type
  immutable : after.immutable = before.immutable
  fixed : before.immutable = true → after.content = before.content
  hosted : ∀ accessor reference, before.content = .host accessor reference →
    after.content = .host accessor reference
  script : ∀ value, before.content = .script value → ∃ later, after.content = .script later

namespace Slot.Persists

theorem refl (slot : Slot) : slot.Persists slot :=
  ⟨rfl, rfl, fun _ => rfl, fun _ _ same => same, fun value same => ⟨value, same⟩⟩

theorem trans {first second third : Slot} (one : first.Persists second)
    (two : second.Persists third) : first.Persists third where
  type := two.type.trans one.type
  immutable := two.immutable.trans one.immutable
  fixed held := (two.fixed (one.immutable.trans held)).trans (one.fixed held)
  hosted accessor reference same := two.hosted _ _ (one.hosted accessor reference same)
  script value same := by
    obtain ⟨later, between⟩ := one.script value same
    exact two.script later between

theorem write {slot : Slot} (value : Value) (isMutable : slot.immutable = false) :
    slot.Persists (slot.write value) := by
  obtain ⟨type, content, annotations, immutable⟩ := slot
  simp only at isMutable
  subst isMutable
  cases content with
  | script old =>
      exact ⟨rfl, rfl, fun held => (Bool.false_ne_true held).elim, fun _ _ same => (nomatch same),
        fun _ _ => ⟨some value, rfl⟩⟩
  | host accessor reference => exact refl _

theorem annotate (slot : Slot) (annotations : List InstanceId) :
    slot.Persists { slot with annotations := annotations } :=
  ⟨rfl, rfl, fun _ => rfl, fun _ _ same => same, fun value same => ⟨value, same⟩⟩

end Slot.Persists

/-- Every slot of the first state is there in the second. -/
def World.KeepsSlots (before after : World) : Prop :=
  ∀ id name slot, (before.store id).slot? name = some slot →
    ∃ later, (after.store id).slot? name = some later ∧ slot.Persists later

namespace World.KeepsSlots

variable {first second third : World}

theorem refl (world : World) : KeepsSlots world world :=
  fun _ _ slot found => ⟨slot, found, .refl slot⟩

theorem trans (one : KeepsSlots first second) (two : KeepsSlots second third) :
    KeepsSlots first third := by
  intro id name slot found
  obtain ⟨between, there, persists⟩ := one id name slot found
  obtain ⟨later, still, again⟩ := two id name between there
  exact ⟨later, still, persists.trans again⟩

theorem of_same (same : ∀ id, id.index < first.stores.size → second.store id = first.store id) :
    KeepsSlots first second := by
  intro id name slot found
  have old : id.index < first.stores.size := by
    apply Nat.lt_of_not_le
    intro beyond
    unfold World.store Heap.get at found
    rw [Heap.get?_eq_none _ beyond] at found
    cases found
  exact ⟨slot, by rw [same id old, found], .refl slot⟩

theorem withStore (world : World) (id : StoreId) (change : Store → Store)
    (keeps : ∀ name slot, (world.store id).slot? name = some slot →
      ∃ later, (change (world.store id)).slot? name = some later ∧ slot.Persists later) :
    KeepsSlots world (world.withStore id change) := by
  intro other name slot found
  rw [store_withStore]
  split
  · next both =>
      rw [both.1] at found
      exact keeps name slot found
  · exact ⟨slot, found, .refl slot⟩

theorem insert (world : World) (id : StoreId) (name : String) (slot : Slot) :
    KeepsSlots world (world.withStore id (·.insert name slot)) := by
  refine withStore world id _ fun other old found => ⟨old, ?_, .refl old⟩
  rw [Store.slot?_insert, found, Option.some_or]

theorem modify (world : World) (id : StoreId) (name : String) (change : Slot → Slot)
    (keeps : ∀ slot, (world.store id).slot? name = some slot → slot.Persists (change slot)) :
    KeepsSlots world (world.withStore id (·.modify name change)) := by
  refine withStore world id _ fun other slot found => ?_
  rw [Store.slot?_modify]
  split
  · next same =>
      subst same
      exact ⟨change slot, by rw [found, Option.map_some], keeps slot found⟩
  · exact ⟨slot, found, .refl slot⟩

end World.KeepsSlots

theorem Change.keepsSlots {may : String → Prop} {opened : InstanceId → Prop}
    {first second : World} (change : Change may opened first second) :
    first.KeepsSlots second := by
  cases change with
  | install store => exact .insert first store _ _
  | declare store => exact .insert first store _ _
  | field => exact .insert first _ _ _
  | write store name slot value found isMutable =>
      refine .modify first store name _ fun current there => ?_
      rw [found] at there
      cases there
      exact .write _ isMutable
  | annotate store name annotations =>
      exact .modify first store name _ fun slot _ => .annotate slot annotations
  | allocate id =>
      exact .of_same fun store old =>
        World.store_lay_of_lt first.instances.next (first.ancestors id) first 0 old
  | touch reference => exact .of_same fun id _ => by rw [World.touchRef_eq]; rfl
  | metaTable | placeholder | callable | adopt | openView | attach | mark | table | setTable
  | host | setHost | context | bindFallback | bindLevel | save | record =>
      exact .of_same fun _ _ => rfl

/-- Withdrawing the slot that was put there just before keeps all others. -/
theorem World.KeepsSlots.withdraw {second third : World} {store : StoreId} {name : String}
    {slot : Slot} (free : (second.store store).declares name = false)
    (inside : KeepsSlots (second.withStore store (·.insert name slot)) third) :
    KeepsSlots second (third.withStore store (·.erase name)) := by
  intro id other old found
  obtain ⟨later, still, persists⟩ := ((KeepsSlots.insert second store name slot).trans inside)
    id other old found
  refine ⟨later, ?_, persists⟩
  rw [store_withStore]
  split
  · next both =>
      have differs : other ≠ name := by
        rintro rfl
        rw [both.1] at found
        simp [Store.declares, found] at free
      rw [Store.slot?_erase, if_neg differs, ← both.1, still]
  · exact still

theorem Evolves.keepsSlots {may : String → Prop} {opened : InstanceId → Prop}
    {first second : World} (evolves : Evolves may opened first second) :
    first.KeepsSlots second := by
  refine evolves.lift (motive := World.KeepsSlots) .refl (fun one two => one.trans two)
    Change.keepsSlots ?_ ?_
  · intro second third context frame deeper _ inside
    exact inside
  · intro second third store callable function receiver _ _ free inside
    exact .withdraw free inside

end ScriptObjects

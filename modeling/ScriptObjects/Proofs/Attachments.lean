import ScriptObjects.Proofs.Commands

/-!
# What is attached stays attached

Annotations are attached to a slot when it is made, and to an instance while it is
constructed.  Nothing else attaches or detaches them: a run leaves the annotations of every
slot and every instance that it finds as they are, except that a construction goes on to
attach annotations to its own instance.

What a run leaves behind in new slots is explained by the declarations.  A new slot that is
annotated, or backed by a host object, is that of a field of the class of its level, or that
of an annotated function.
-/

namespace ScriptObjects

set_option autoImplicit false

open Exec World

/-! ## What is left aside -/

/-- The tables of the registry, instances and host references are as they were.  Host objects kept their
types, and classes kept what they are known by. -/
structure World.SameLinks (before after : World) : Prop where
  registry : after.registry = before.registry := by rfl
  instances : after.instances = before.instances := by rfl
  references : after.references = before.references := by rfl
  alive : after.alive = before.alive := by rfl
  hosts : before.hosts.size ≤ after.hosts.size := by exact Nat.le_refl _
  types : ∀ id : HostId, id.index < before.hosts.size →
    (after.hosts.get id).type = (before.hosts.get id).type := by exact fun _ _ => rfl
  names : ∀ id, (after.cls id).name = (before.cls id).name := by exact fun _ => rfl
  described : ∀ id, (after.cls id).described = (before.cls id).described := by exact fun _ => rfl

/-- Stores are as they were, too. -/
structure World.Aside (before after : World) : Prop extends before.SameLinks after where
  stores : after.stores = before.stores := by rfl

namespace World.Aside

variable {first second third : World}

theorem refl (world : World) : Aside world world := {}

theorem trans (one : Aside first second) (two : Aside second third) : Aside first third where
  stores := two.stores.trans one.stores
  registry := two.registry.trans one.registry
  instances := two.instances.trans one.instances
  references := two.references.trans one.references
  alive := two.alive.trans one.alive
  hosts := Nat.le_trans one.hosts two.hosts
  types id inside := (two.types id (Nat.lt_of_lt_of_le inside one.hosts)).trans (one.types id inside)
  names id := (two.names id).trans (one.names id)
  described id := (two.described id).trans (one.described id)

theorem pushHost (world : World) (object : HostObject) :
    Aside world { world with hosts := world.hosts.push object } where
  hosts := by simp
  types id inside := congrArg HostObject.type (Heap.get_push_of_lt _ _ inside)

theorem withHost (world : World) {id : HostId} {object : HostObject}
    (same : object.type = (world.hosts.get id).type) : Aside world (world.withHost id object) where
  hosts := Nat.le_of_eq (Heap.size_modify ..).symm
  types other _ := by
    show ((world.hosts.modify id fun _ => object).get other).type = _
    rw [Heap.get_modify]
    split
    · next here => rw [same, here.1]
    · rfl

theorem withMetaTable (world : World) (id : ClassId) (table : Option MetaTable) :
    Aside world (world.withClass id fun cls => { cls with metaTable := table }) where
  names other := world.classes.get_modify_of id other _ ClassDef.name fun _ => rfl
  described other := world.classes.get_modify_of id other _ ClassDef.described fun _ => rfl

end World.Aside

/-! ## Slots -/

/-- The second slot is the first at a later time: the same annotations are attached, and it is
assigned if it was. -/
structure Slot.Stays (before after : Slot) : Prop where
  annotations : after.annotations = before.annotations
  assigned : ∀ value, before.content = .script (some value) →
    ∃ later, after.content = .script (some later)

namespace Slot.Stays

theorem refl (slot : Slot) : slot.Stays slot := ⟨rfl, fun value same => ⟨value, same⟩⟩

theorem trans {first second third : Slot} (one : first.Stays second) (two : second.Stays third) :
    first.Stays third where
  annotations := two.annotations.trans one.annotations
  assigned value same := by
    obtain ⟨later, between⟩ := one.assigned value same
    exact two.assigned later between

theorem write (slot : Slot) (value : Value) : slot.Stays (slot.write value) := by
  obtain ⟨type, content, annotations, immutable⟩ := slot
  cases content with
  | script old => exact ⟨rfl, fun _ _ => ⟨value, rfl⟩⟩
  | host accessor reference => exact refl _

end Slot.Stays

/-- Nothing is attached to the slot, and it keeps its value itself. -/
def Slot.Plain (slot : Slot) : Prop := slot.annotations = [] ∧ ∃ value, slot.content = .script value

theorem Slot.Plain.later {before after : Slot} (plain : before.Plain) (stays : before.Stays after)
    (persists : before.Persists after) : after.Plain := by
  obtain ⟨none, value, content⟩ := plain
  exact ⟨stays.annotations.trans none, persists.script value content⟩

namespace World

/-- A slot is that of a field of the class of its level. -/
def OfField (world : World) (store : StoreId) (name : String) : Prop :=
  ∃ owner place cls tier, (world.store store).home = .level owner place cls tier ∧
    ∃ field ∈ (world.cls cls).fields, field.name = name ∧ field.access = tier

/-- A field of the class of its level, or an annotated function, explains why a slot is not
plain.  What is attached to the slot was made when there were so many instances already. -/
structure Adorns (world : World) (since : Nat) (store : StoreId) (name : String) (slot : Slot) :
    Prop where
  made : ∀ attached ∈ slot.annotations,
    since ≤ attached.index ∧ attached.index < world.instances.size
  declared : world.OfField store name ∨
    (∃ function, world.Declares function ∧ function.name = name ∧ function.annotations ≠ []) ∧
      ∃ value, slot.content = .script value

theorem OfField.later {before after : World} {store : StoreId} {name : String}
    (declared : before.OfField store name) (continues : before.Continues after) :
    after.OfField store name := by
  obtain ⟨owner, place, cls, tier, home, field, declared, named, tiered⟩ := declared
  have inside : store.index < before.stores.size :=
    store_inside fun attached free => by rw [home] at free; cases free
  refine ⟨owner, place, cls, tier, (continues.homes store inside).trans home, field, ?_, named,
    tiered⟩
  rw [continues.hierarchy.ask ClassDef.fields fun _ => rfl]
  exact declared

theorem Adorns.later {before after : World} {since earlier : Nat} {store : StoreId} {name : String}
    {slot later : Slot} (adorns : before.Adorns since store name slot)
    (continues : before.Continues after) (stays : slot.Stays later) (persists : slot.Persists later)
    (fewer : earlier ≤ since) : after.Adorns earlier store name later where
  made attached member := by
    rw [stays.annotations] at member
    obtain ⟨new, inside⟩ := adorns.made attached member
    exact ⟨Nat.le_trans fewer new, Nat.lt_of_lt_of_le inside continues.instances⟩
  declared := by
    obtain declared | ⟨⟨function, declares, named, annotated⟩, value, script⟩ := adorns.declared
    · exact .inl (declared.later continues)
    · exact .inr ⟨⟨function, declares.later continues, named, annotated⟩,
        persists.script value script⟩

/-! ## What a run spares -/

/-- A run led from the first state to the second, and what was attached in the first is attached
in the second: to every slot, and to every instance that is not excepted.  Such an instance is not
marked as initialized either.  New slots that are not plain are explained. -/
structure Spares (except : InstanceId → Prop) (before after : World) : Prop where
  evolves : Evolves (fun _ => True) (fun _ => True) before after
  objects : ∀ id : InstanceId, id.index < before.instances.size → ¬ except id →
    (after.object id).annotations = (before.object id).annotations
  marks : ∀ id : InstanceId, id.index < before.instances.size → ¬ except id →
    (after.object id).initialized = (before.object id).initialized
  slots : ∀ store name slot, (before.store store).slot? name = some slot →
    ∃ later, (after.store store).slot? name = some later ∧ slot.Stays later
  fresh : ∀ store name slot, (after.store store).slot? name = some slot →
    (∃ old, (before.store store).slot? name = some old) ∨ slot.Plain ∨
      after.Adorns before.instances.size store name slot

namespace Spares

variable {except : InstanceId → Prop} {first second third : World}

/-- Neither stores nor instances changed. -/
theorem of_still (evolves : Evolves (fun _ => True) (fun _ => True) first second)
    (stores : second.stores = first.stores) (instances : second.instances = first.instances) :
    Spares except first second where
  evolves := evolves
  objects id _ _ := congrArg (fun heap => (Heap.get heap id).annotations) instances
  marks id _ _ := congrArg (fun heap => (Heap.get heap id).initialized) instances
  slots store name slot found := by
    refine ⟨slot, ?_, .refl slot⟩
    unfold World.store at found ⊢
    rw [stores]
    exact found
  fresh store name slot found := by
    left
    unfold World.store at found ⊢
    rw [stores] at found
    exact ⟨slot, found⟩

theorem refl (world : World) : Spares except world world := .of_still (.refl world) rfl rfl

/-- A slot that was there is there, with all that lasts of a slot. -/
theorem slot (spares : Spares except first second) {store : StoreId} {name : String} {slot : Slot}
    (found : (first.store store).slot? name = some slot) :
    ∃ later, (second.store store).slot? name = some later ∧ slot.Stays later ∧
      slot.Persists later := by
  obtain ⟨later, still, stays⟩ := spares.slots store name slot found
  obtain ⟨latest, again, persists⟩ := spares.evolves.keepsSlots store name slot found
  obtain rfl : latest = later := Option.some.inj (again.symm.trans still)
  exact ⟨latest, still, stays, persists⟩

theorem trans (one : Spares except first second) (two : Spares except second third) :
    Spares except first third where
  evolves := one.evolves.trans two.evolves
  objects id inside spared :=
    (two.objects id (Nat.lt_of_lt_of_le inside one.evolves.continues.instances) spared).trans
      (one.objects id inside spared)
  marks id inside spared :=
    (two.marks id (Nat.lt_of_lt_of_le inside one.evolves.continues.instances) spared).trans
      (one.marks id inside spared)
  slots store name slot found := by
    obtain ⟨between, there, stays⟩ := one.slots store name slot found
    obtain ⟨later, still, again⟩ := two.slots store name between there
    exact ⟨later, still, stays.trans again⟩
  fresh store name slot found := by
    obtain ⟨between, there⟩ | explained := two.fresh store name slot found
    · obtain ⟨later, still, stays, persists⟩ := two.slot there
      obtain rfl : later = slot := Option.some.inj (still.symm.trans found)
      obtain old | plain | adorns := one.fresh store name between there
      · exact .inl old
      · exact .inr (.inl (plain.later stays persists))
      · exact .inr (.inr (adorns.later two.evolves.continues stays persists (Nat.le_refl _)))
    · refine .inr (explained.imp_right fun adorns => ?_)
      exact adorns.later (.refl third) (.refl slot) (.refl slot) one.evolves.continues.instances

theorem weaken {fewer : InstanceId → Prop} (spares : Spares fewer first second)
    (among : ∀ id : InstanceId, id.index < first.instances.size → fewer id → except id) :
    Spares except first second where
  evolves := spares.evolves
  objects id inside spared := spares.objects id inside fun excepted =>
    spared (among id inside excepted)
  marks id inside spared := spares.marks id inside fun excepted =>
    spared (among id inside excepted)
  slots := spares.slots
  fresh := spares.fresh

theorem withObject {world : World} (id : InstanceId) {change : Instance → Instance}
    (evolves : Evolves (fun _ => True) (fun _ => True) world (world.withObject id change))
    (keeps : ¬ except id → ∀ object, (change object).annotations = object.annotations ∧
      (change object).initialized = object.initialized) :
    Spares except world (world.withObject id change) where
  evolves := evolves
  objects other _ spared := by
    rw [object_withObject]
    split
    · next here =>
        obtain ⟨rfl, _⟩ := here
        exact (keeps spared _).1
    · rfl
  marks other _ spared := by
    rw [object_withObject]
    split
    · next here =>
        obtain ⟨rfl, _⟩ := here
        exact (keeps spared _).2
    · rfl
  slots _ _ slot found := ⟨slot, found, .refl slot⟩
  fresh _ _ slot found := .inl ⟨slot, found⟩

theorem object_allocate (world : World) (id : ClassId) {other : InstanceId}
    (inside : other.index < world.instances.size) :
    (world.allocate id).object other = world.object other := by
  have rest := lay_eq world.instances.next (world.ancestors id) world 0
  show ((world.lay world.instances.next 0 (world.ancestors id)).2.instances.push _).get other = _
  rw [rest]
  exact Heap.get_push_of_lt _ _ inside

theorem allocate (world : World) (id : ClassId) : Spares except world (world.allocate id) where
  evolves := .single (.allocate id)
  objects other inside _ := congrArg Instance.annotations (object_allocate world id inside)
  marks other inside _ := congrArg Instance.initialized (object_allocate world id inside)
  slots store name slot found := by
    have same := (allocate_allocates world id).old store (inside_of_slot? found)
    exact ⟨slot, by rw [same]; exact found, .refl slot⟩
  fresh store name slot found := by
    left
    obtain same | ⟨place, cls, tier, same⟩ := Advances.store_allocate world id store
    · exact ⟨slot, by rw [← same]; exact found⟩
    · rw [same] at found
      cases found

/-- A slot is inserted that is plain, or explained. -/
theorem insert {world : World} {id : StoreId} {name : String} {slot : Slot}
    (evolves : Evolves (fun _ => True) (fun _ => True) world
      (world.withStore id (·.insert name slot)))
    (explained : slot.Plain ∨
      (world.withStore id (·.insert name slot)).Adorns world.instances.size id name slot) :
    Spares except world (world.withStore id (·.insert name slot)) where
  evolves := evolves
  objects _ _ _ := rfl
  marks _ _ _ := rfl
  slots store other old found := by
    obtain ⟨later, there, _⟩ := KeepsSlots.insert world id name slot store other old found
    refine ⟨old, ?_, .refl old⟩
    rw [store_withStore] at there ⊢
    split
    · next here =>
        rw [here.1] at found
        rw [Store.slot?_insert, found, Option.some_or]
    · exact found
  fresh store other found there := by
    rw [store_withStore] at there
    split at there
    · next here =>
        obtain ⟨rfl, _⟩ := here
        rw [Store.slot?_insert] at there
        obtain old | ⟨_, new⟩ := Option.or_eq_some_iff.mp there
        · exact .inl ⟨found, old⟩
        · right
          split at new
          · next same =>
              cases new
              subst same
              exact explained
          · cases new
    · exact .inl ⟨found, there⟩

theorem modify {world : World} {id : StoreId} {name : String} {change : Slot → Slot}
    (evolves : Evolves (fun _ => True) (fun _ => True) world
      (world.withStore id (·.modify name change)))
    (stays : ∀ slot : Slot, slot.Stays (change slot)) :
    Spares except world (world.withStore id (·.modify name change)) where
  evolves := evolves
  objects _ _ _ := rfl
  marks _ _ _ := rfl
  slots store other slot found := by
    rw [store_withStore]
    split
    · next here =>
        rw [here.1] at found
        rw [Store.slot?_modify]
        split
        · next same =>
            subst same
            exact ⟨change slot, by rw [found, Option.map_some], stays slot⟩
        · exact ⟨slot, found, .refl slot⟩
    · exact ⟨slot, found, .refl slot⟩
  fresh store other slot found := by
    left
    rw [store_withStore] at found
    split at found
    · next here =>
        rw [here.1]
        rw [Store.slot?_modify] at found
        split at found
        · next same =>
            obtain ⟨old, there, _⟩ := Option.map_eq_some_iff.mp found
            exact ⟨old, by rw [same]; exact there⟩
        · exact ⟨slot, found⟩
    · exact ⟨slot, found⟩

/-- Withdrawing the slot that was put there just before leaves the others as they are. -/
theorem withdraw {second third : World} {store : StoreId} {name : String} {slot : Slot}
    (evolves : Evolves (fun _ => True) (fun _ => True) second
      (third.withStore store (·.erase name)))
    (free : (second.store store).declares name = false)
    (inserted : Spares except second (second.withStore store (·.insert name slot)))
    (inside : Spares except (second.withStore store (·.insert name slot)) third) :
    Spares except second (third.withStore store (·.erase name)) := by
  have whole := inserted.trans inside
  refine ⟨evolves, whole.objects, whole.marks, fun other label old found => ?_,
    fun other label found there => ?_⟩
  · obtain ⟨later, still, stays⟩ := whole.slots other label old found
    refine ⟨later, ?_, stays⟩
    rw [store_withStore]
    split
    · next here =>
        have differs : label ≠ name := by
          rintro rfl
          rw [here.1] at found
          simp [Store.declares, found] at free
        rw [Store.slot?_erase, if_neg differs, ← here.1]
        exact still
    · exact still
  · have kept : (third.store other).slot? label = some found := by
      rw [store_withStore] at there
      split at there
      · next here =>
          rw [Store.slot?_erase] at there
          split at there
          · cases there
          · rw [here.1]
            exact there
      · exact there
    refine (whole.fresh other label found kept).imp_right (Or.imp_right fun adorns => ?_)
    exact adorns.later (.withStore third store _ fun _ => rfl) (.refl found) (.refl found)
      (Nat.le_refl _)

/-- A slot that was not there before may be annotated where that is explained. -/
theorem adorn {store : StoreId} {name : String} {change : Slot → Slot}
    (free : (first.store store).declares name = false) (spares : Spares except first second)
    (evolves : Evolves (fun _ => True) (fun _ => True) second
      (second.withStore store (·.modify name change)))
    (explained : ∀ slot, (second.store store).slot? name = some slot →
      second.Adorns first.instances.size store name (change slot)) :
    Spares except first (second.withStore store (·.modify name change)) where
  evolves := spares.evolves.trans evolves
  objects := spares.objects
  marks := spares.marks
  slots other label old found := by
    obtain ⟨later, still, stays⟩ := spares.slots other label old found
    refine ⟨later, ?_, stays⟩
    rw [store_withStore]
    split
    · next here =>
        have differs : label ≠ name := by
          rintro rfl
          rw [here.1] at found
          simp [Store.declares, found] at free
        rw [Store.slot?_modify, if_neg differs, ← here.1]
        exact still
    · exact still
  fresh other label found there := by
    by_cases here : other = store ∧ label = name
    · obtain ⟨rfl, rfl⟩ := here
      obtain ⟨slot, kept, rfl⟩ : ∃ slot, (second.store other).slot? label = some slot ∧
          change slot = found := by
        rw [store_withStore] at there
        split at there
        · rw [Store.slot?_modify, if_pos rfl] at there
          exact Option.map_eq_some_iff.mp there
        · next outside => exact absurd ⟨rfl, inside_of_slot? there⟩ outside
      exact .inr (.inr ((explained slot kept).later evolves.continues (.refl _) (.refl _)
        (Nat.le_refl _)))
    · have kept : (second.store other).slot? label = some found := by
        rw [store_withStore] at there
        split at there
        · next same =>
            have differs : label ≠ name := fun named => here ⟨same.1, named⟩
            rw [Store.slot?_modify, if_neg differs] at there
            rw [same.1]
            exact there
        · exact there
      exact (spares.fresh other label found kept).imp_right
        (Or.imp_right fun adorns => adorns.later evolves.continues (.refl _) (.refl _) (Nat.le_refl _))

end Spares

/-- An instance that bears a mark in the first state bears it in the second. -/
def KeepsMark (mark : Instance → Bool) (before after : World) : Prop :=
  ∀ id : InstanceId, mark (before.object id) = true → mark (after.object id) = true

theorem inside_of_mark {mark : Instance → Bool} (blank : mark default = false) {world : World}
    {id : InstanceId} (marked : mark (world.object id) = true) :
    id.index < world.instances.size := by
  apply Nat.lt_of_not_le
  intro beyond
  unfold World.object Heap.get at marked
  rw [Heap.get?_eq_none _ beyond, Option.getD_none, blank] at marked
  cases marked

namespace KeepsMark

variable {mark : Instance → Bool} {first second third : World}

theorem of_same (same : second.instances = first.instances) : KeepsMark mark first second := by
  intro id marked
  unfold World.object
  rw [same]
  exact marked

theorem refl (world : World) : KeepsMark mark world world := of_same rfl

theorem trans (one : KeepsMark mark first second) (two : KeepsMark mark second third) :
    KeepsMark mark first third :=
  fun id marked => two id (one id marked)

theorem withObject (world : World) (id : InstanceId) {change : Instance → Instance}
    (keeps : ∀ object, mark object = true → mark (change object) = true) :
    KeepsMark mark world (world.withObject id change) := by
  intro other marked
  rw [object_withObject]
  split
  · next here => exact keeps _ (here.1 ▸ marked)
  · exact marked

end KeepsMark

/-- The assembly is there and the state is sound. -/
def Live (world : World) : Prop := world.alive = true ∧ world.Sound

theorem Live.later {may : String → Prop} {opened : InstanceId → Prop} {before after : World}
    (live : before.Live) (evolves : Evolves may opened before after) : after.Live :=
  ⟨evolves.continues.alive.trans live.1, evolves.sound live.1 live.2⟩

end World

/-- The marks that no run takes off an instance: it neither drops it nor undoes its construction, and
does not replace the host object that it holds. -/
inductive World.Lasting : (Instance → Bool) → Prop
  | alive : Lasting Instance.alive
  | initialized : Lasting Instance.initialized
  | holds (host : HostId) : Lasting fun object => object.host = some host

theorem Change.keepsMark {may : String → Prop} {opened : InstanceId → Prop} {mark : Instance → Bool}
    (lasting : Lasting mark) {first second : World} (change : Change may opened first second) :
    KeepsMark mark first second := by
  cases change with
  | openView id | attach id =>
      refine .withObject first id fun object marked => ?_
      cases lasting <;> exact marked
  | adopt id =>
      refine .withObject first id fun object marked => ?_
      cases lasting with
      | holds host =>
          have held := of_decide_eq_true marked
          simp [held]
      | alive | initialized => exact marked
  | mark id =>
      refine .withObject first id fun object marked => ?_
      cases lasting with
      | initialized => rfl
      | alive | holds host => exact marked
  | allocate id =>
      have blank : mark default = false := by cases lasting <;> rfl
      intro other marked
      rw [Spares.object_allocate first id (inside_of_mark blank marked)]
      exact marked
  | touch reference => exact .of_same (by rw [touchRef_eq])
  | metaTable | placeholder | callable | install | declare | field | write | annotate | table
  | setTable | host | setHost | context | bindFallback | bindLevel | save | record =>
      exact .of_same rfl

theorem Evolves.keepsMark {may : String → Prop} {opened : InstanceId → Prop} {mark : Instance → Bool}
    (lasting : Lasting mark) {first second : World} (evolves : Evolves may opened first second) :
    KeepsMark mark first second :=
  evolves.lift (motive := KeepsMark mark) .refl (fun one two => one.trans two)
    (fun change => change.keepsMark lasting) (fun _ inside => inside) (fun _ _ _ inside => inside)

/-! ## Sparing runs -/

namespace Exec

variable {α β : Type}

/-- From a live state on, a run spares what is attached. -/
def SparesAt (except : InstanceId → Prop) (run : Exec α) (world : World) : Prop :=
  world.Live → Spares except world (run world).2

/-- From every live state on, a run spares what is attached, without exception. -/
def Sparing (run : Exec α) : Prop := ∀ except world, SparesAt except run world

namespace SparesAt

variable {except : InstanceId → Prop} {world : World}

theorem of_apply {run : Exec α} {outcome : Outcome α} {after : World}
    (ends : run world = (outcome, after)) (spares : Spares except world after) :
    SparesAt except run world := by
  intro _
  rw [ends]
  exact spares

theorem ends {run : Exec α} {outcome : Outcome α} {after : World}
    (spares : SparesAt except run world) (live : world.Live)
    (ends : run world = (outcome, after)) : Spares except world after := by
  have given := spares live
  rw [ends] at given
  exact given

theorem of_same {run : Exec α} (same : (run world).2 = world) : SparesAt except run world := by
  intro _
  rw [same]
  exact .refl world

/-- A run that goes on as another does from a later state. -/
theorem congr {run other : Exec α} {after : World} (same : run world = other after)
    (spares : Spares except world after) (rest : SparesAt except other after) :
    SparesAt except run world := by
  intro live
  rw [same]
  exact spares.trans (rest (live.later spares.evolves))

theorem bind {run : Exec α} {next : α → Exec β} (first : SparesAt except run world)
    (second : ∀ result after, run world = (.done result, after) →
      Spares except world after → SparesAt except (next result) after) :
    SparesAt except (run >>= next) world := by
  intro live
  have spares := first live
  rw [bind_apply]
  rcases ends : run world with ⟨outcome, after⟩
  rw [ends] at spares
  cases outcome with
  | done result =>
      exact spares.trans (second result after ends spares (live.later spares.evolves))
  | failed fault => exact spares
  | exhausted => exact spares

theorem recover {run : Exec α} {handler : Fault → Exec α} (first : SparesAt except run world)
    (second : ∀ fault after, SparesAt except (handler fault) after) :
    SparesAt except (run.recover handler) world := by
  intro live
  have spares := first live
  unfold Exec.recover
  rcases ends : run world with ⟨outcome, after⟩
  rw [ends] at spares
  cases outcome with
  | done result => exact spares
  | failed fault => exact spares.trans (second fault after (live.later spares.evolves))
  | exhausted => exact spares

theorem attempt {run : Exec α} (first : SparesAt except run world) :
    SparesAt except (Exec.attempt run) world := by
  intro live
  have spares := first live
  unfold Exec.attempt
  rcases ends : run world with ⟨outcome, after⟩
  rw [ends] at spares
  cases outcome <;> exact spares

theorem wrapFault {wrap : Fault → Fault} {run : Exec α} (first : SparesAt except run world) :
    SparesAt except (Exec.wrapFault wrap run) world := by
  intro live
  have spares := first live
  unfold Exec.wrapFault
  rcases ends : run world with ⟨outcome, after⟩
  rw [ends] at spares
  cases outcome <;> exact spares

theorem withFrame {run : Exec α} (context : ContextId) (frame : Frame)
    (first : ∀ after, SparesAt except run after) :
    SparesAt except (Exec.withFrame context frame run) world := by
  intro live
  cases pushed : (world.context context).push? frame with
  | error limit =>
      rw [withFrame_of_full run pushed]
      exact .refl world
  | ok deeper =>
      rw [withFrame_of_pushed run rfl pushed]
      have entered : (world.withContext context fun _ => deeper).Live :=
        ⟨live.1, live.2.withContext live.1 context _⟩
      have inside := first _ entered
      refine ⟨.framed context frame deeper (.refl world) pushed inside.evolves, inside.objects,
        inside.marks, inside.slots, fun store name slot found => ?_⟩
      refine (inside.fresh store name slot found).imp_right (Or.imp_right fun adorns => ?_)
      exact adorns.later (.withContext _ context _) (.refl slot) (.refl slot) (Nat.le_refl _)

end SparesAt

namespace Sparing

theorem of_same {run : Exec α} (same : ∀ world, (run world).2 = world) : Sparing run :=
  fun _ world => .of_same (same world)

theorem pure (result : α) : Sparing (pure result : Exec α) := of_same fun _ => rfl

theorem throw (fault : Fault) : Sparing (throw fault : Exec α) := of_same fun _ => rfl

theorem ask (question : World → α) : Sparing (Exec.ask question) := of_same fun _ => rfl

theorem exhaust : Sparing (Exec.exhaust : Exec α) := of_same fun _ => rfl

theorem bind {run : Exec α} {next : α → Exec β} (first : Sparing run)
    (second : ∀ result, Sparing (next result)) : Sparing (run >>= next) :=
  fun except world => .bind (first except world) fun result after _ _ =>
    second result except after

theorem of_get {next : World → Exec β} (second : ∀ seen, Sparing (next seen)) :
    Sparing ((get : Exec World) >>= next) :=
  fun except world => second world except world

theorem recover {run : Exec α} {handler : Fault → Exec α} (first : Sparing run)
    (second : ∀ fault, Sparing (handler fault)) : Sparing (run.recover handler) :=
  fun except world => .recover (first except world) fun fault => second fault except

theorem attempt {run : Exec α} (first : Sparing run) : Sparing (Exec.attempt run) :=
  fun except world => .attempt (first except world)

theorem wrapFault {wrap : Fault → Fault} {run : Exec α} (first : Sparing run) :
    Sparing (Exec.wrapFault wrap run) :=
  fun except world => .wrapFault (first except world)

end Sparing

/-! ## Still runs -/

/-- A run that leaves stores, instances and host references as they are, from whatever state. -/
def Still (run : Exec α) : Prop := ∀ world, Aside world (run world).2

theorem Sparing.still {run : Exec α} (leads : LeadsFreely run) (still : Still run) :
    Sparing run := by
  intro except world _
  exact .of_still (leads world world.permits_all fun _ _ => trivial) (still world).stores
    (still world).instances

namespace Still

theorem pure (result : α) : Still (pure result : Exec α) := Aside.refl

theorem throw (fault : Fault) : Still (throw fault : Exec α) := Aside.refl

theorem ask (question : World → α) : Still (Exec.ask question) := Aside.refl

theorem bind {run : Exec α} {next : α → Exec β} (first : Still run)
    (second : ∀ result, Still (next result)) : Still (run >>= next) := by
  intro world
  have one := first world
  rw [bind_apply]
  rcases ends : run world with ⟨outcome, after⟩
  rw [ends] at one
  cases outcome with
  | done result => exact one.trans (second result after)
  | failed fault => exact one
  | exhausted => exact one

theorem of_get {next : World → Exec β} (second : ∀ seen, Still (next seen)) :
    Still ((get : Exec World) >>= next) :=
  fun world => second world world

end Still

end Exec

end ScriptObjects

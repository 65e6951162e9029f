import ScriptObjects.Proofs.Growth
import ScriptObjects.Proofs.Requests

/-!
# How instances are laid out

Every level of every instance has a store of its own for each tier, and the store says
so; the roots have theirs.  A slot that holds a function for good holds exactly what
its store offers under the name: the function nearest along the chain, bound to the
level of the class that declares it.

Runs keep this.  What a store offers does not change along a run, and the only changes
that make a slot immutable install an offer.
-/

namespace ScriptObjects

set_option autoImplicit false

namespace World

/-! ## The layout -/

/-- A slot holds a function value that was made from a function and a receiver. -/
def HoldsFunction (world : World) (slot : Slot) (function : Function)
    (receiver : Option Receiver) : Prop :=
  ∃ callable, slot.type = .function ∧ slot.content = .script (some (.function callable)) ∧
    world.callables.get? callable = some (.ofFunction function receiver)

/-- Levels and stores belong together, and immutable slots hold what their stores offer. -/
structure LaidOut (world : World) : Prop where
  roots : ∀ tier, (world.store (rootStore tier)).home = .root tier
  stores : ∀ id place level, world.level? id place = some level → ∀ tier,
    (world.store (level.declarations tier)).home = .level id place level.cls tier
  homes : ∀ store owner place cls tier, (world.store store).home = .level owner place cls tier →
    ∃ level, world.level? owner place = some level ∧ level.cls = cls ∧
      level.declarations tier = store
  functions : ∀ store name slot, (world.store store).slot? name = some slot →
    slot.immutable = true → ∃ function receiver,
      world.HoldsFunction slot function receiver ∧
      world.offer? store name = some (function, receiver)
  known : ∀ id, (∀ level ∈ (world.object id).levels, level.cls.index < world.classes.size) ∨
    (world.object id).levels.length ≤ 1

theorem store_inside {world : World} {store : StoreId}
    (home : ∀ attached, (world.store store).home ≠ .free attached) :
    store.index < world.stores.size := by
  apply Nat.lt_of_not_le
  intro beyond
  apply home false
  unfold World.store Heap.get
  rw [Heap.get?_eq_none _ beyond]
  rfl

theorem inside_of_level? {world : World} {id : InstanceId} {place : Nat} {level : Level}
    (sits : world.level? id place = some level) : id.index < world.instances.size := by
  apply Nat.lt_of_not_le
  intro beyond
  unfold World.level? World.object Heap.get at sits
  rw [Heap.get?_eq_none _ beyond] at sits
  cases sits

theorem inside_of_slot? {world : World} {store : StoreId} {name : String} {slot : Slot}
    (found : (world.store store).slot? name = some slot) : store.index < world.stores.size := by
  apply Nat.lt_of_not_le
  intro beyond
  unfold World.store Heap.get at found
  rw [Heap.get?_eq_none _ beyond] at found
  cases found

/-- A slot that is there is changed in its place. -/
theorem slot?_withStore_modify {world : World} {store : StoreId} {name : String} {slot : Slot}
    (found : (world.store store).slot? name = some slot) (change : Slot → Slot) :
    ((world.withStore store (·.modify name change)).store store).slot? name =
      some (change slot) := by
  rw [store_withStore, if_pos ⟨rfl, inside_of_slot? found⟩, Store.slot?_modify, if_pos rfl, found]
  rfl

theorem inside_of_offer? {world : World} {store : StoreId} {name : String}
    {offer : Function × Option Receiver} (offered : world.offer? store name = some offer) :
    store.index < world.stores.size := by
  refine store_inside fun attached free => ?_
  rw [offer?_of_free free] at offered
  cases offered

/-- The handle of an instance, a store or a function value that exists is within its heap. -/
theorem inside_of_get? {kind : HandleKind} {α : Type} {heap : Heap kind α} {handle : Handle kind}
    {cell : α} (found : heap.get? handle = some cell) : handle.index < heap.size := by
  apply Nat.lt_of_not_le
  intro beyond
  rw [Heap.get?_eq_none _ beyond] at found
  cases found

namespace LaidOut

variable {world : World} (laid : world.LaidOut)
include laid

theorem level_inside {id : InstanceId} {place : Nat} {level : Level}
    (sits : world.level? id place = some level) (tier : Access) :
    (level.declarations tier).index < world.stores.size := by
  refine store_inside fun attached free => ?_
  rw [laid.stores id place level sits tier] at free
  cases free

theorem root_inside (tier : Access) : (rootStore tier).index < world.stores.size := by
  refine store_inside fun attached free => ?_
  rw [laid.roots tier] at free
  cases free

/-- What a store offers is what it goes on offering. -/
theorem offer?_later {after : World} (continues : world.Continues after) {store : StoreId}
    (inside : store.index < world.stores.size) (name : String) :
    after.offer? store name = world.offer? store name := by
  refine offer?_congr continues.hierarchy continues.functions (continues.homes store inside) ?_ name
  intro owner place cls tier home
  obtain ⟨level, sits, _⟩ := laid.homes store owner place cls tier home
  exact (continues.objects owner (inside_of_level? sits)).2

end LaidOut

theorem Continues.get?_callable {before after : World} (continues : before.Continues after)
    {callable : CallableId} {value : Callable}
    (made : before.callables.get? callable = some value) :
    after.callables.get? callable = some value := by
  have old := inside_of_get? made
  rw [Heap.get?_eq_some _ old] at made
  rw [Heap.get?_eq_some _ (Nat.lt_of_lt_of_le old continues.callables),
    continues.values callable old, made]

theorem HoldsFunction.later {before after : World} {slot later : Slot} {function : Function}
    {receiver : Option Receiver} (holds : before.HoldsFunction slot function receiver)
    (continues : before.Continues after) (type : later.type = slot.type)
    (content : later.content = slot.content) : after.HoldsFunction later function receiver := by
  obtain ⟨callable, typed, held, made⟩ := holds
  exact ⟨callable, type.trans typed, content.trans held, continues.get?_callable made⟩

/-- A change that adds neither instances nor stores keeps the layout, if every immutable slot is an
old one or holds an offer. -/
theorem LaidOut.keep {before after : World} (laid : before.LaidOut)
    (continues : before.Continues after) (stores : after.stores.size = before.stores.size)
    (instances : after.instances.size = before.instances.size)
    (slots : ∀ store name slot, (after.store store).slot? name = some slot →
      slot.immutable = true →
      (∃ old, (before.store store).slot? name = some old ∧ old.immutable = true ∧
        slot.type = old.type ∧ slot.content = old.content) ∨
      ∃ function receiver, after.HoldsFunction slot function receiver ∧
        before.offer? store name = some (function, receiver)) :
    after.LaidOut where
  roots tier := (continues.homes _ (laid.root_inside tier)).trans (laid.roots tier)
  stores id place level sits tier := by
    have old : before.level? id place = some level := by
      have inside := inside_of_level? sits
      rw [instances] at inside
      unfold World.level? at sits ⊢
      rw [(continues.objects id inside).2] at sits
      exact sits
    rw [continues.homes _ (laid.level_inside old tier)]
    exact laid.stores id place level old tier
  homes store owner place cls tier home := by
    have inside : store.index < before.stores.size := by
      rw [← stores]
      refine store_inside fun attached free => ?_
      rw [home] at free
      cases free
    rw [continues.homes store inside] at home
    obtain ⟨level, sits, same, there⟩ := laid.homes store owner place cls tier home
    exact ⟨level, continues.level? sits, same, there⟩
  functions store name slot found held := by
    have inside := inside_of_slot? found
    rw [stores] at inside
    obtain ⟨old, there, fixed, type, content⟩ | ⟨function, receiver, holds, offered⟩ :=
      slots store name slot found held
    · obtain ⟨function, receiver, holds, offered⟩ := laid.functions store name old there fixed
      exact ⟨function, receiver, holds.later continues type content,
        (laid.offer?_later continues inside name).trans offered⟩
    · exact ⟨function, receiver, holds, (laid.offer?_later continues inside name).trans offered⟩
  known id := by
    by_cases inside : id.index < before.instances.size
    · rw [(continues.objects id inside).2, continues.hierarchy.size]
      exact laid.known id
    · right
      unfold object Heap.get
      rw [Heap.get?_eq_none _ (instances ▸ Nat.le_of_not_lt inside)]
      exact Nat.zero_le 1

/-- A store without a home adds nothing to the layout. -/
theorem LaidOut.freeStore {world : World} {attached : Bool} (laid : world.LaidOut)
    (continues : world.Continues
      { world with stores := world.stores.push (.empty (.free attached)) }) :
    LaidOut { world with stores := world.stores.push (.empty (.free attached)) } := by
  have cases_store : ∀ store : StoreId,
      ({ world with stores := world.stores.push (.empty (.free attached)) } : World).store store =
        world.store store ∨
      ({ world with stores := world.stores.push (.empty (.free attached)) } : World).store store =
        .empty (.free attached) := by
    intro store
    show (world.stores.push _).get store = _ ∨ (world.stores.push _).get store = _
    rw [Heap.get_push]
    split
    · exact .inr rfl
    · exact .inl rfl
  refine ⟨?_, ?_, ?_, ?_, laid.known⟩
  · intro tier
    exact (continues.homes _ (laid.root_inside tier)).trans (laid.roots tier)
  · intro id place level sits tier
    rw [continues.homes _ (laid.level_inside sits tier)]
    exact laid.stores id place level sits tier
  · intro store owner place cls tier home
    obtain same | fresh := cases_store store
    · rw [same] at home
      exact laid.homes store owner place cls tier home
    · rw [fresh] at home
      cases home
  · intro store name slot found held
    obtain same | fresh := cases_store store
    · rw [same] at found
      obtain ⟨function, receiver, holds, offered⟩ := laid.functions store name slot found held
      exact ⟨function, receiver, holds.later continues rfl rfl,
        (laid.offer?_later continues (inside_of_slot? found) name).trans offered⟩
    · rw [fresh] at found
      cases found

/-! ## New instances -/

/-- What laying out levels gives. -/
structure Lays (owner : InstanceId) (place : Nat) (chain : List ClassId) (before : World)
    (levels : List Level) (after : World) : Prop where
  classes : levels.map Level.cls = chain
  stores : ∀ offset level, levels[offset]? = some level → ∀ tier,
    before.stores.size ≤ (level.declarations tier).index ∧
      after.store (level.declarations tier) =
        .empty (.level owner (place + offset) level.cls tier)
  homes : ∀ store : StoreId, before.stores.size ≤ store.index →
    store.index < after.stores.size → ∃ (offset : Nat) (level : Level) (tier : Access),
      levels[offset]? = some level ∧ level.declarations tier = store

theorem store_addLevel (world : World) (owner : InstanceId) (place : Nat) (id : ClassId)
    (tier : Access) :
    (world.addLevel owner place id).store ((world.nextLevel id).declarations tier) =
      .empty (.level owner place id tier) := by
  let globals := world.stores.push (.empty (.level owner place id .global))
  let internals := globals.push (.empty (.level owner place id .internal))
  let locals := internals.push (.empty (.level owner place id .localOnly))
  have first : globals.next = ⟨world.stores.size + 1⟩ :=
    congrArg Handle.mk (by simp [globals, Heap.push, Heap.size])
  have second : internals.next = ⟨world.stores.size + 2⟩ :=
    congrArg Handle.mk (by simp [internals, globals, Heap.push, Heap.size])
  cases tier with
  | global =>
      show locals.get world.stores.next = _
      rw [Heap.get_push_of_lt, Heap.get_push_of_lt, Heap.get_push_next]
      · simp [globals, Heap.next_index]
      · simp only [internals, globals, Heap.next_index, Heap.size_push]
        omega
  | internal =>
      show locals.get ⟨world.stores.size + 1⟩ = _
      rw [← first, Heap.get_push_of_lt, Heap.get_push_next]
      simp [internals, Heap.next_index]
  | localOnly =>
      show locals.get ⟨world.stores.size + 2⟩ = _
      rw [← second, Heap.get_push_next]

theorem declarations_nextLevel (world : World) (id : ClassId) (tier : Access) :
    world.stores.size ≤ ((world.nextLevel id).declarations tier).index ∧
      ((world.nextLevel id).declarations tier).index < world.stores.size + 3 := by
  cases tier with
  | global => exact ⟨Nat.le_refl _, Nat.lt_add_of_pos_right (by decide)⟩
  | internal => exact ⟨Nat.le_add_right _ 1, Nat.add_lt_add_left (by decide) _⟩
  | localOnly => exact ⟨Nat.le_add_right _ 2, Nat.add_lt_add_left (by decide) _⟩

theorem nextLevel_covers (world : World) (id : ClassId) {store : StoreId}
    (beyond : world.stores.size ≤ store.index) (inside : store.index < world.stores.size + 3) :
    ∃ tier, (world.nextLevel id).declarations tier = store := by
  obtain ⟨index⟩ := store
  simp only at beyond inside
  obtain same | same | same : index = world.stores.size ∨ index = world.stores.size + 1 ∨
      index = world.stores.size + 2 := by omega
  · exact ⟨.global, congrArg Handle.mk same.symm⟩
  · exact ⟨.internal, congrArg Handle.mk same.symm⟩
  · exact ⟨.localOnly, congrArg Handle.mk same.symm⟩

theorem lay_lays (owner : InstanceId) (chain : List ClassId) (world : World) (place : Nat) :
    Lays owner place chain world (world.lay owner place chain).1
      (world.lay owner place chain).2 := by
  induction chain generalizing world place with
  | nil =>
      refine ⟨rfl, fun _ _ found => (nomatch found), fun store beyond inside => ?_⟩
      exact absurd inside (Nat.not_lt_of_le beyond)
  | cons id rest ih =>
      have later := ih (world.addLevel owner place id) (place + 1)
      have size := size_stores_addLevel world owner place id
      simp only [lay]
      refine ⟨by rw [List.map_cons, later.classes]; rfl, ?_, ?_⟩
      · intro offset level found tier
        cases offset with
        | zero =>
            cases found
            obtain ⟨beyond, inside⟩ := declarations_nextLevel world id tier
            rw [← size] at inside
            refine ⟨beyond, ?_⟩
            rw [store_lay_of_lt owner rest _ _ inside, store_addLevel]
            rfl
        | succ offset =>
            obtain ⟨beyond, there⟩ := later.stores offset level found tier
            rw [size] at beyond
            refine ⟨by omega, ?_⟩
            rw [there]
            congr 2
            omega
      · intro store beyond inside
        by_cases here : store.index < world.stores.size + 3
        · obtain ⟨tier, same⟩ := nextLevel_covers world id beyond here
          exact ⟨0, _, tier, rfl, same⟩
        · obtain ⟨offset, level, tier, found, same⟩ :=
            later.homes store (by rw [size]; omega) inside
          exact ⟨offset + 1, level, tier, found, same⟩

/-- What allocation gives: an instance whose levels follow the chain of its class, on stores of
its own that are empty. -/
structure Allocates (id : ClassId) (before after : World) : Prop where
  size : after.instances.size = before.instances.size + 1
  object : ∃ levels, after.object before.instances.next = freshInstance id levels ∧
    levels.map Level.cls = before.ancestors id
  stores : ∀ place level, after.level? before.instances.next place = some level → ∀ tier,
    before.stores.size ≤ (level.declarations tier).index ∧
      after.store (level.declarations tier) =
        .empty (.level before.instances.next place level.cls tier)
  homes : ∀ store : StoreId, before.stores.size ≤ store.index →
    store.index < after.stores.size → ∃ (place : Nat) (level : Level) (tier : Access),
      after.level? before.instances.next place = some level ∧ level.declarations tier = store
  old : ∀ store : StoreId, store.index < before.stores.size →
    after.store store = before.store store

theorem allocate_allocates (world : World) (id : ClassId) :
    Allocates id world (world.allocate id) := by
  have lays := lay_lays world.instances.next (world.ancestors id) world 0
  have rest := lay_eq world.instances.next (world.ancestors id) world 0
  let levels := (world.lay world.instances.next 0 (world.ancestors id)).1
  let laid := (world.lay world.instances.next 0 (world.ancestors id)).2
  have instances : laid.instances = world.instances := by
    show (world.lay world.instances.next 0 (world.ancestors id)).2.instances = _
    rw [rest]
  have same : world.allocate id =
      { laid with instances := laid.instances.push (freshInstance id levels) } := rfl
  have object : (world.allocate id).object world.instances.next = freshInstance id levels := by
    rw [same]
    show (laid.instances.push (freshInstance id levels)).get world.instances.next = _
    rw [instances, Heap.get_push_next]
  have sits : ∀ place, (world.allocate id).level? world.instances.next place = levels[place]? := by
    intro place
    unfold level?
    rw [object]
    rfl
  refine ⟨?_, ⟨levels, object, lays.classes⟩, ?_, ?_, ?_⟩
  · rw [same]
    show (laid.instances.push _).size = _
    rw [Heap.size_push, instances]
  · intro place level found tier
    rw [sits] at found
    obtain ⟨beyond, there⟩ := lays.stores place level found tier
    rw [Nat.zero_add] at there
    exact ⟨beyond, there⟩
  · intro store beyond inside
    obtain ⟨place, level, tier, found, there⟩ := lays.homes store beyond inside
    exact ⟨place, level, tier, by rw [sits]; exact found, there⟩
  · intro store inside
    exact store_lay_of_lt world.instances.next (world.ancestors id) world 0 inside

/-- An instance that exists is an old one or the one that was allocated. -/
theorem Allocates.cases_level? {id : ClassId} {before after : World}
    (allocates : Allocates id before after) (continues : before.Continues after)
    {owner : InstanceId} {place : Nat} {level : Level} (sits : after.level? owner place = some level) :
    before.level? owner place = some level ∨ owner = before.instances.next := by
  have inside := inside_of_level? sits
  rw [allocates.size] at inside
  by_cases old : owner.index < before.instances.size
  · left
    unfold level? at sits ⊢
    rw [(continues.objects owner old).2] at sits
    exact sits
  · right
    have last : owner.index = before.instances.size := by omega
    obtain ⟨index⟩ := owner
    exact congrArg Handle.mk last

theorem LaidOut.allocate {world : World} (laid : world.LaidOut)
    (bases : ∀ id base, world.base? id = some base → base.index < world.classes.size)
    (id : ClassId) : (world.allocate id).LaidOut := by
  have allocates := allocate_allocates world id
  have continues := Continues.allocate world id
  refine ⟨?_, ?_, ?_, ?_, ?_⟩
  · intro tier
    exact (continues.homes _ (laid.root_inside tier)).trans (laid.roots tier)
  · intro owner place level sits tier
    obtain old | rfl := allocates.cases_level? continues sits
    · rw [continues.homes _ (laid.level_inside old tier)]
      exact laid.stores owner place level old tier
    · rw [(allocates.stores place level sits tier).2]
      rfl
  · intro store owner place cls tier home
    have inside : store.index < (world.allocate id).stores.size := by
      refine store_inside fun attached free => ?_
      rw [home] at free
      cases free
    by_cases old : store.index < world.stores.size
    · rw [continues.homes store old] at home
      obtain ⟨level, sits, same, there⟩ := laid.homes store owner place cls tier home
      exact ⟨level, continues.level? sits, same, there⟩
    · obtain ⟨offset, level, kind, sits, there⟩ :=
        allocates.homes store (Nat.le_of_not_lt old) inside
      have fresh := (allocates.stores offset level sits kind).2
      rw [there] at fresh
      rw [fresh] at home
      cases home
      exact ⟨level, sits, rfl, there⟩
  · intro store name slot found held
    by_cases old : store.index < world.stores.size
    · rw [allocates.old store old] at found
      obtain ⟨function, receiver, holds, offered⟩ := laid.functions store name slot found held
      exact ⟨function, receiver, holds.later continues rfl rfl,
        (laid.offer?_later continues old name).trans offered⟩
    · obtain ⟨offset, level, kind, sits, there⟩ :=
        allocates.homes store (Nat.le_of_not_lt old) (inside_of_slot? found)
      have fresh := (allocates.stores offset level sits kind).2
      rw [there] at fresh
      rw [fresh] at found
      cases found
  · intro owner
    by_cases old : owner.index < world.instances.size
    · rw [(continues.objects owner old).2, continues.hierarchy.size]
      exact laid.known owner
    · by_cases newest : owner = world.instances.next
      · subst newest
        obtain ⟨levels, object, chain⟩ := allocates.object
        rw [object, continues.hierarchy.size]
        by_cases registered : id.index < world.classes.size
        · left
          intro level member
          have among := List.mem_map_of_mem (f := Level.cls) member
          rw [show (freshInstance id levels).levels = levels from rfl, chain] at among
          exact ancestors_inside bases registered level.cls among
        · right
          have length := congrArg List.length chain
          rw [ancestors_beyond (Nat.le_of_not_lt registered), List.length_map] at length
          exact Nat.le_of_eq length
      · right
        have beyond : (world.allocate id).instances.size ≤ owner.index := by
          rw [allocates.size]
          have differs : owner.index ≠ world.instances.size := by
            intro same
            apply newest
            obtain ⟨index⟩ := owner
            exact congrArg Handle.mk same
          omega
        unfold object Heap.get
        rw [Heap.get?_eq_none _ beyond]
        exact Nat.zero_le 1

end World

/-! ## Runs -/

/-- A slot found after one store was changed was there before, or is found in the changed store. -/
theorem World.slot?_withStore {world : World} {id store : StoreId} {change : Store → Store}
    {name : String} {slot : Slot}
    (found : ((world.withStore id change).store store).slot? name = some slot) :
    (world.store store).slot? name = some slot ∨
      (store = id ∧ (change (world.store id)).slot? name = some slot) := by
  rw [store_withStore] at found
  split at found
  · next both => exact .inr ⟨both.1, found⟩
  · exact .inl found

/-- A slot found after one was inserted was there before, or is the inserted one. -/
theorem World.slot?_inserted {world : World} {id store : StoreId} {name other : String}
    {slot inserted : Slot}
    (found : ((world.withStore id (·.insert name inserted)).store store).slot? other = some slot) :
    (world.store store).slot? other = some slot ∨
      (store = id ∧ other = name ∧ slot = inserted) := by
  obtain old | ⟨rfl, changed⟩ := World.slot?_withStore found
  · exact .inl old
  · rw [Store.slot?_insert] at changed
    cases there : (world.store store).slot? other with
    | some old =>
        rw [there, Option.some_or] at changed
        exact .inl changed
    | none =>
        rw [there, Option.none_or] at changed
        split at changed
        · next named =>
            cases changed
            exact .inr ⟨rfl, named, rfl⟩
        · cases changed

/-- Inserting a variable makes no slot immutable. -/
theorem World.slot?_insert_mutable {world : World} {id store : StoreId} {name other : String}
    {slot inserted : Slot} (isMutable : inserted.immutable = false)
    (found : ((world.withStore id (·.insert name inserted)).store store).slot? other = some slot)
    (held : slot.immutable = true) : (world.store store).slot? other = some slot := by
  obtain old | ⟨_, _, rfl⟩ := World.slot?_inserted found
  · exact old
  · rw [isMutable] at held
    cases held

theorem fieldSlot_immutable (field : Field) (reference : ReferenceId) :
    (fieldSlot field reference).immutable = false := by
  unfold fieldSlot
  split <;> rfl

theorem fieldSlot_annotations (field : Field) (reference : ReferenceId) :
    (fieldSlot field reference).annotations = [] := by
  unfold fieldSlot
  split <;> rfl

theorem Change.laidOut {may : String → Prop} {opened : InstanceId → Prop} {first second : World}
    (change : Change may opened first second)
    (bases : ∀ id base, first.base? id = some base → base.index < first.classes.size)
    (laid : first.LaidOut) : second.LaidOut := by
  have continues := change.continues
  have same : ∀ {store name} {slot : Slot}, (first.store store).slot? name = some slot →
      slot.immutable = true → (∃ old, (first.store store).slot? name = some old ∧
        old.immutable = true ∧ slot.type = old.type ∧ slot.content = old.content) ∨
      ∃ function receiver, second.HoldsFunction slot function receiver ∧
        first.offer? store name = some (function, receiver) :=
    fun found held => .inl ⟨_, found, held, rfl, rfl⟩
  cases change with
  | allocate id => exact laid.allocate bases id
  | touch reference =>
      refine laid.keep continues ?_ ?_ fun store name slot found held => same ?_ held
      · rw [World.touchRef_eq]
      · rw [World.touchRef_eq]
      · rw [World.touchRef_eq] at found
        exact found
  | declare store name type permitted free =>
      refine laid.keep continues (Heap.size_modify ..) rfl fun other label slot found held => ?_
      exact same (World.slot?_insert_mutable rfl found held) held
  | field owner place level field isOpen sits declared free =>
      refine laid.keep continues (Heap.size_modify ..) rfl fun other label slot found held => ?_
      exact same (World.slot?_insert_mutable (fieldSlot_immutable field _) found held) held
  | install store callable function receiver made offered free =>
      refine laid.keep continues (Heap.size_modify ..) rfl fun other label slot found held => ?_
      obtain old | ⟨rfl, rfl, rfl⟩ := World.slot?_inserted found
      · exact same old held
      · exact .inr ⟨function, receiver, ⟨callable, rfl, rfl, made⟩, offered⟩
  | write store name slot value there isMutable accepted =>
      refine laid.keep continues (Heap.size_modify ..) rfl fun other label written found held => ?_
      obtain old | ⟨rfl, changed⟩ := World.slot?_withStore found
      · exact same old held
      · rw [Store.slot?_modify, there] at changed
        split at changed
        · cases changed
          have persists := Slot.Persists.write (slot.type.widen value) isMutable
          rw [persists.immutable, isMutable] at held
          cases held
        · exact same changed held
  | annotate store name annotations =>
      refine laid.keep continues (Heap.size_modify ..) rfl fun other label written found held => ?_
      obtain old | ⟨rfl, changed⟩ := World.slot?_withStore found
      · exact same old held
      · rw [Store.slot?_modify] at changed
        split at changed
        · next named =>
            subst named
            obtain ⟨old, there, rfl⟩ := Option.map_eq_some_iff.mp changed
            exact .inl ⟨old, there, held, rfl, rfl⟩
        · exact same changed held
  | adopt | openView | attach | mark =>
      exact laid.keep continues rfl (Heap.size_modify ..) fun _ _ _ found held => same found held
  | metaTable | placeholder | callable | table | setTable | host | setHost | context
  | bindFallback | bindLevel | save | record =>
      exact laid.keep continues rfl rfl fun _ _ _ found held => same found held

/-- Removing a slot keeps the layout. -/
theorem World.LaidOut.erase {world : World} (laid : world.LaidOut) (id : StoreId) (name : String) :
    (world.withStore id (·.erase name)).LaidOut := by
  have continues := World.Continues.withStore world id (·.erase name) fun _ => rfl
  refine laid.keep continues (Heap.size_modify ..) rfl fun store other slot found held => .inl ?_
  obtain old | ⟨rfl, changed⟩ := World.slot?_withStore found
  · exact ⟨slot, old, held, rfl, rfl⟩
  · rw [Store.slot?_erase] at changed
    split at changed
    · cases changed
    · exact ⟨slot, changed, held, rfl, rfl⟩

theorem World.LaidOut.withContext {world : World} (laid : world.LaidOut) (id : ContextId)
    (update : Context → Context) : (world.withContext id update).LaidOut :=
  laid.keep (.withContext world id update) rfl rfl fun _ _ slot found held =>
    .inl ⟨slot, found, held, rfl, rfl⟩

/-- The registry keeps its promises, and instances are laid out. -/
structure World.Sound (world : World) : Prop where
  registered : world.Registered
  laid : world.LaidOut

theorem Change.sound {may : String → Prop} {opened : InstanceId → Prop} {first second : World}
    (change : Change may opened first second) (alive : first.alive = true) (sound : first.Sound) :
    second.Sound :=
  ⟨change.registered alive sound.registered,
    change.laidOut (fun _ _ => sound.registered.base?_inside) sound.laid⟩

theorem World.Sound.of_continues {before after : World} (sound : before.Sound)
    (alive : before.alive = true) (continues : before.Continues after)
    (classes : after.classes = before.classes) (refs : after.classRefs = before.classRefs)
    (laid : after.LaidOut) : after.Sound := by
  refine ⟨sound.registered.later alive continues ?_ ?_, laid⟩
  · intro reference target beyond cached
    rw [refs] at cached
    have inside := World.Continues.inside_of_remembered (by rw [cached]; rfl)
    exact absurd inside (Nat.not_lt_of_le beyond)
  · intro id table kept
    unfold World.cls at kept
    rw [classes] at kept
    exact .inl kept

theorem World.Sound.withContext {world : World} (sound : world.Sound) (alive : world.alive = true)
    (id : ContextId) (update : Context → Context) : (world.withContext id update).Sound :=
  sound.of_continues alive (.withContext world id update) rfl rfl (sound.laid.withContext id update)

/-- Runs keep the state sound. -/
theorem Evolves.sound {may : String → Prop} {opened : InstanceId → Prop} {first second : World}
    (evolves : Evolves may opened first second) (alive : first.alive = true)
    (sound : first.Sound) : second.Sound := by
  have both := evolves.lift
    (motive := fun first second => first.alive = true → first.Sound →
      second.alive = true ∧ second.Sound)
    (fun _ alive sound => ⟨alive, sound⟩)
    (fun one two alive sound => two (one alive sound).1 (one alive sound).2)
    (fun change alive sound => ⟨change.continues.alive.trans alive, change.sound alive sound⟩)
    ?_ ?_
  · exact (both alive sound).2
  · intro second third context frame deeper _ inside alive sound
    obtain ⟨alive, sound⟩ := inside alive (sound.withContext alive context fun _ => deeper)
    exact ⟨alive, sound.withContext alive context _⟩
  · intro second third store callable function receiver made offered free inside alive sound
    have installed : Change may opened second _ :=
      .install store callable function receiver made offered free
    obtain ⟨alive, sound⟩ := inside alive (installed.sound alive sound)
    exact ⟨alive, sound.of_continues alive
      (.withStore third store _ fun _ => rfl) rfl rfl (sound.laid.erase store _)⟩

end ScriptObjects

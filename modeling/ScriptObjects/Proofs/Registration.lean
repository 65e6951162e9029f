import ScriptObjects.Proofs.Chains
import ScriptObjects.Proofs.Evolution
import ScriptObjects.Registry

/-!
# The registry keeps its promises

What registration promises of every class, and keeps for good: the tables lead to it,
the identity of a class and the owners of its members come from its name, its members
have distinct names, and its chain ends.  Classes are only ever appended, so that a
base that was found stays found, a chain only grows at its end, and what a walk along
it has found stays what it finds.
-/

namespace ScriptObjects

set_option autoImplicit false

/-- What has a name of its own in a list is found by that name. -/
theorem find?_of_distinct {α : Type} {key : α → String} {entries : List α} {entry : α}
    (distinct : (entries.map key).Nodup) (member : entry ∈ entries) :
    entries.find? (key · = key entry) = some entry := by
  induction entries with
  | nil => cases member
  | cons head rest ih =>
      rw [List.map_cons, List.nodup_cons] at distinct
      rcases List.mem_cons.mp member with rfl | later
      · simp
      · have differs : key head ≠ key entry := by
          intro same
          exact distinct.1 (List.mem_map.mpr ⟨entry, later, same.symm⟩)
        rw [List.find?_cons_of_neg (by simpa using differs)]
        exact ih distinct.2 later

namespace World

/-! ## Finding classes -/

/-- The tables of the registry lead to exactly the classes that there are. -/
structure Filed (world : World) : Prop where
  order : world.registry.order = world.classes.handles
  names : ∀ name id, world.findClass? name = some id ↔
    id.index < world.classes.size ∧ (world.cls id).name = name
  hosts : ∀ host id, world.classForHost? host = some id ↔
    id.index < world.classes.size ∧ (world.cls id).described = some host

theorem Filed.transfer {before after : World} (filed : before.Filed)
    (same : SameHierarchy before after) : after.Filed where
  order := by
    rw [same.registry, filed.order]
    exact (Heap.handles_of_size same.size).symm
  names name id := by
    rw [same.findClass?, same.size, same.name]
    exact filed.names name id
  hosts host id := by
    rw [same.classForHost?, same.size, same.ask ClassDef.described fun _ => rfl]
    exact filed.hosts host id

/-- A walk that starts at a registered class meets only registered classes. -/
theorem walk_inside {world : World}
    (bases : ∀ id base, world.base? id = some base → base.index < world.classes.size)
    {fuel : Nat} {seen : List TypeHash} {start : Option ClassId}
    (inside : ∀ id ∈ start, id.index < world.classes.size) :
    ∀ member ∈ world.walk fuel seen start, member.index < world.classes.size := by
  induction fuel generalizing seen start with
  | zero => exact fun _ found => (List.not_mem_nil found).elim
  | succ fuel ih =>
      cases start with
      | none => exact fun _ found => (List.not_mem_nil found).elim
      | some id =>
          simp only [World.walk]
          split
          · exact fun _ found => (List.not_mem_nil found).elim
          · intro member found
            rcases List.mem_cons.mp found with rfl | later
            · exact inside _ rfl
            · exact ih (fun base next => bases id base next) member later

theorem ancestors_inside {world : World}
    (bases : ∀ id base, world.base? id = some base → base.index < world.classes.size)
    {id : ClassId} (inside : id.index < world.classes.size) :
    ∀ member ∈ world.ancestors id, member.index < world.classes.size :=
  walk_inside bases (by rintro _ ⟨⟩; exact inside)

/-- A class that is not registered has no bases. -/
theorem base?_beyond {world : World} {id : ClassId} (beyond : world.classes.size ≤ id.index) :
    world.base? id = none := by
  unfold base? cls Heap.get
  rw [Heap.get?_eq_none _ beyond]
  rfl

theorem ancestors_beyond {world : World} {id : ClassId} (beyond : world.classes.size ≤ id.index) :
    world.ancestors id = [id] := by
  unfold ancestors
  simp only [walk, base?_beyond beyond]
  cases world.classes.size <;> rfl

/-- What references remember is what their names mean. -/
def SoundRefs (world : World) : Prop :=
  ∀ reference target, (world.classRefs.get reference).target = some target →
    world.findClass? (world.classRefs.get reference).name = some target

theorem target?_of_sound {world : World} (sound : world.SoundRefs) (alive : world.alive = true)
    (reference : ClassRefId) :
    world.target? reference = world.findClass? (world.classRefs.get reference).name := by
  unfold target?
  simp only [alive, if_true]
  cases cached : (world.classRefs.get reference).target with
  | none => rfl
  | some target => exact (sound reference target cached).symm

/-- A link of a meta-function leads to a function on the chain of the class. -/
def Links (world : World) (id : ClassId) (link : MetaLink) : Prop :=
  ∃ member ∈ world.ancestors id, link.function ∈ (world.cls member).functions ∧
    link.function.name = link.key.methodName ∧
    link.owner = Owner.ofClass (world.cls member).name ∧ link.access = link.function.access

/-- What registration promises. -/
structure Registered (world : World) : Prop where
  filed : world.Filed
  hashes : ∀ id : ClassId, id.index < world.classes.size →
    (world.cls id).hash = TypeHash.ofName (world.cls id).name
  owners : ∀ id, ∀ function ∈ (world.cls id).functions,
    function.owner = some (Owner.ofClass (world.cls id).name)
  members : ∀ id, ((world.cls id).fields.map FieldDecl.name ++
    (world.cls id).functions.map FunctionDecl.name).Nodup
  baseRefs : ∀ id reference, (world.cls id).base = some reference →
    reference.index < world.classRefs.size
  remembered : world.SoundRefs
  grounded : ∀ id : ClassId, id.index < world.classes.size → ∃ chain, world.Chain id chain
  tables : ∀ id table, (world.cls id).metaTable = some table → ∀ link ∈ table.links,
    world.Links id link

namespace Registered

variable {world : World} (registered : world.Registered)
include registered

theorem findClass?_eq_some {name : String} {id : ClassId}
    (found : world.findClass? name = some id) :
    id.index < world.classes.size ∧ (world.cls id).name = name :=
  (registered.filed.names name id).mp found

theorem findClass?_name {id : ClassId} (inside : id.index < world.classes.size) :
    world.findClass? (world.cls id).name = some id :=
  (registered.filed.names _ id).mpr ⟨inside, rfl⟩

/-- Two classes of one name are one class. -/
theorem names (first second : ClassId) (one : first.index < world.classes.size)
    (two : second.index < world.classes.size)
    (same : (world.cls first).name = (world.cls second).name) : first = second := by
  have found := registered.findClass?_name one
  rw [same, registered.findClass?_name two] at found
  exact (Option.some.inj found).symm

/-- A reference stands for the class of its name, whether it was remembered or not. -/
theorem target?_eq (alive : world.alive = true) (reference : ClassRefId) :
    world.target? reference = world.findClass? (world.classRefs.get reference).name :=
  target?_of_sound registered.remembered alive reference

theorem base?_inside {id base : ClassId} (next : world.base? id = some base) :
    base.index < world.classes.size := by
  obtain ⟨reference, _, stands⟩ := Option.bind_eq_some_iff.mp next
  by_cases alive : world.alive = true
  · rw [registered.target?_eq alive] at stands
    exact (registered.findClass?_eq_some stands).1
  · unfold target? at stands
    rw [if_neg alive] at stands
    cases stands

/-- The functions of a class are found by their names. -/
theorem function?_eq {id : ClassId} {function : Function}
    (member : function ∈ (world.cls id).functions) :
    (world.cls id).function? function.name = some function := by
  have distinct := (List.nodup_append.mp (registered.members id)).2.1
  exact find?_of_distinct distinct member

theorem acceptedFunction?_eq {id : ClassId} {function : Function}
    (member : function ∈ (world.cls id).functions) (accepts : Function → Bool)
    (accepted : accepts function = true) :
    (world.cls id).acceptedFunction? function.name accepts = some function := by
  unfold ClassDef.acceptedFunction?
  rw [registered.function?_eq member, Option.filter_some, if_pos accepted]

end Registered

/-- Class names have distinct hashes. -/
def DistinctHashes (world : World) : Prop :=
  ∀ first second : ClassId, first.index < world.classes.size →
    second.index < world.classes.size →
    TypeHash.ofName (world.cls first).name = TypeHash.ofName (world.cls second).name →
    (world.cls first).name = (world.cls second).name

theorem Registered.hierarchical {world : World} (registered : world.Registered)
    (hashes : world.DistinctHashes) : world.Hierarchical where
  inside _ _ next := registered.base?_inside next
  distinct first second one two equal := by
    rw [registered.hashes first one, registered.hashes second two] at equal
    exact registered.names first second one two (hashes first second one two equal)
  grounded := registered.grounded

/-! ## Runs -/

theorem Links.transfer {before after : World} (same : SameHierarchy before after) {id : ClassId}
    {link : MetaLink} (links : before.Links id link) : after.Links id link := by
  obtain ⟨member, found, declared, named, owned, tier⟩ := links
  refine ⟨member, by rwa [same.ancestors], ?_, named, ?_, tier⟩
  · rw [same.ask ClassDef.functions fun _ => rfl]
    exact declared
  · rw [same.name]
    exact owned

/-- The links of a table that is built lead along the chain. -/
theorem Registered.buildMetaTable {world : World} (registered : world.Registered) {id : ClassId}
    {link : MetaLink} (member : link ∈ (world.buildMetaTable id).links) : world.Links id link := by
  obtain ⟨key, _, built⟩ := List.mem_filterMap.mp member
  obtain ⟨function, nearest, rfl⟩ := Option.map_eq_some_iff.mp built
  obtain ⟨declarer, found, answer⟩ := nearest?_eq_some nearest
  obtain ⟨declared, named, _⟩ := mem_of_acceptedFunction? answer
  refine ⟨declarer, found, declared, named, ?_, rfl⟩
  simp only [registered.owners declarer function declared, Option.getD_some]

/-- The link of a meta-function leads to a function on the chain. -/
theorem Registered.links {world : World} (registered : world.Registered) {id : ClassId}
    {key : MetaKey} {link : MetaLink} (found : (world.metaTable id).get? key = some link) :
    link.key = key ∧ world.Links id link := by
  have member := List.mem_of_find?_eq_some found
  have keyed := List.find?_some found
  refine ⟨by simpa using keyed, ?_⟩
  unfold World.metaTable at member
  cases kept : (world.cls id).metaTable with
  | none =>
      rw [kept] at member
      exact registered.buildMetaTable member
  | some table =>
      rw [kept] at member
      exact registered.tables id table kept link member

/-- A run keeps the promises, as long as new references are sound and new tables are built from
the hierarchy. -/
theorem Registered.later {before after : World} (registered : before.Registered)
    (alive : before.alive = true) (continues : before.Continues after)
    (fresh : ∀ reference target, before.classRefs.size ≤ reference.index →
      (after.classRefs.get reference).target = some target →
      after.findClass? (after.classRefs.get reference).name = some target)
    (tables : ∀ id table, (after.cls id).metaTable = some table →
      (before.cls id).metaTable = some table ∨ table = before.buildMetaTable id) :
    after.Registered := by
  have same := continues.hierarchy
  refine ⟨registered.filed.transfer same, ?_, ?_, ?_, ?_, ?_, ?_, ?_⟩
  · intro id inside
    rw [same.size] at inside
    rw [same.hash, same.name]
    exact registered.hashes id inside
  · intro id function member
    rw [same.ask ClassDef.functions fun _ => rfl] at member
    rw [same.name]
    exact registered.owners id function member
  · intro id
    rw [same.ask ClassDef.functions fun _ => rfl, same.ask ClassDef.fields fun _ => rfl]
    exact registered.members id
  · intro id reference base
    rw [same.ask ClassDef.base fun _ => rfl] at base
    exact Nat.lt_of_lt_of_le (registered.baseRefs id reference base) continues.refs
  · intro reference target cached
    by_cases old : reference.index < before.classRefs.size
    · have stands : after.target? reference = some target := by
        unfold target?
        simp only [continues.alive, alive, if_true, cached]
      rw [continues.targets reference old, registered.target?_eq alive] at stands
      rw [same.findClass?, continues.names reference old]
      exact stands
    · exact fresh reference target (Nat.le_of_not_lt old) cached
  · intro id inside
    rw [same.size] at inside
    obtain ⟨chain, chains⟩ := registered.grounded id inside
    exact ⟨chain, chains.transfer same⟩
  · intro id table kept link member
    apply Links.transfer same
    obtain old | rfl := tables id table kept
    · exact registered.tables id table old link member
    · exact registered.buildMetaTable member

end World

theorem Change.size_classRefs {may : String → Prop} {opened : InstanceId → Prop}
    {first second : World} (change : Change may opened first second) :
    second.classRefs.size = first.classRefs.size := by
  cases change with
  | touch reference => exact first.size_classRefs_touchRef reference
  | allocate id =>
      simp only [World.allocate]
      rw [World.lay_eq]
  | table | setTable | host | setHost | context | metaTable | placeholder | callable | install
  | declare | field | write | annotate | bindFallback | bindLevel | adopt | openView | attach
  | mark | save | record => rfl

/-- A class keeps its table of meta-functions, or a missing one is built from the hierarchy. -/
theorem Change.metaTable_cases {may : String → Prop} {opened : InstanceId → Prop}
    {first second : World} (change : Change may opened first second) (id : ClassId) :
    (second.cls id).metaTable = (first.cls id).metaTable ∨
      (first.cls id).metaTable = none ∧
        second = first.withClass id fun cls =>
          { cls with metaTable := some (first.buildMetaTable id) } := by
  cases change with
  | metaTable other missing =>
      by_cases same : id = other
      · subst same
        exact .inr ⟨missing, rfl⟩
      · rw [World.cls_withClass, if_neg fun both => same both.1]
        exact .inl rfl
  | touch reference => exact .inl (by rw [World.cls_touchRef])
  | allocate other =>
      have kept : (first.allocate other).classes = first.classes := by
        simp only [World.allocate]
        rw [World.lay_eq]
      left
      unfold World.cls
      rw [kept]
  | table | setTable | host | setHost | context | placeholder | callable | install
  | declare | field | write | annotate | bindFallback | bindLevel | adopt | openView | attach
  | mark | save | record => exact .inl rfl

theorem Change.registered {may : String → Prop} {opened : InstanceId → Prop}
    {first second : World} (change : Change may opened first second) (alive : first.alive = true)
    (registered : first.Registered) : second.Registered := by
  have size := change.size_classRefs
  refine registered.later alive change.continues ?_ ?_
  · intro reference target beyond cached
    unfold Heap.get at cached
    rw [Heap.get?_eq_none _ (size ▸ beyond)] at cached
    cases cached
  · intro id table kept
    obtain same | ⟨missing, rfl⟩ := change.metaTable_cases id
    · exact .inl (same.symm.trans kept)
    · rw [World.cls_withClass] at kept
      split at kept
      · cases kept
        exact .inr rfl
      · exact .inl kept

end ScriptObjects

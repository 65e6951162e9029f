import ScriptObjects.Proofs.Validation

/-!
# Settled sessions

A session is settled when its assembly is there, its classes are told apart by their
identities, every base is remembered, and every instance has a level for each class
of its chain.  Nothing but another definition unsettles it.

In a settled session the hierarchy has one meaning: chains are what they are, a walk
changes nothing, and a function that a level finds is bound to the level of the class
that declares it.
-/

namespace ScriptObjects

set_option autoImplicit false

namespace World

/-- Every instance has a level for each class of its chain. -/
def Whole (world : World) : Prop :=
  ∀ id : InstanceId, id.index < world.instances.size →
    (world.object id).levels.map Level.cls = world.ancestors (world.object id).cls

/-- The registry was validated, and every instance has all levels. -/
structure Ready (world : World) : Prop where
  alive : world.alive = true
  sound : world.Sound
  bases : world.RemembersBases
  whole : world.Whole

theorem Whole.of_none {world : World} (none : world.instances.size = 0) : world.Whole :=
  fun id inside => absurd (none ▸ inside) (Nat.not_lt_zero id.index)

/-- The registry is complete and was validated, and the instances are made on whole chains. -/
structure Settled (world : World) : Prop where
  alive : world.alive = true
  sound : world.Sound
  distinct : world.DistinctHashes
  bases : world.RemembersBases
  whole : world.Whole

theorem Settled.ready {world : World} (settled : world.Settled) : world.Ready :=
  ⟨settled.alive, settled.sound, settled.bases, settled.whole⟩

theorem Ready.of_validate {defined start : World} (reachable : Reachable defined)
    (valid : validate.run defined = (.ok (), start)) (whole : start.Whole) : start.Ready := by
  obtain ⟨alive, sound⟩ := reachable.sound
  obtain ⟨follows, bases⟩ := validate_ok sound.registered valid
  obtain ⟨later, continues⟩ := follows.proceeds.sound_continues alive sound
  exact ⟨continues.alive.trans alive, later, bases, whole⟩

theorem Settled.of_validate {defined start : World} (reachable : Reachable defined)
    (valid : validate.run defined = (.ok (), start)) (distinct : start.DistinctHashes)
    (whole : start.Whole) : start.Settled := by
  obtain ⟨alive, sound, bases, whole⟩ := Ready.of_validate reachable valid whole
  exact ⟨alive, sound, distinct, bases, whole⟩

theorem DistinctHashes.later {before after : World} (distinct : before.DistinctHashes)
    (same : SameHierarchy before after) : after.DistinctHashes := by
  intro first second one two equal
  rw [same.size] at one two
  rw [same.name, same.name] at equal ⊢
  exact distinct first second one two equal

theorem RemembersBases.later {before after : World} (bases : before.RemembersBases)
    (continues : before.Continues after) : after.RemembersBases := by
  intro id reference based
  rw [continues.hierarchy.ask ClassDef.base fun _ => rfl] at based
  have known := bases id reference based
  rw [continues.remembered reference known]
  exact known

/-- The instances that were added have all levels that their classes now have. -/
def AddsWhole (before after : World) : Prop :=
  ∀ id : InstanceId, before.instances.size ≤ id.index → id.index < after.instances.size →
    (after.object id).levels.map Level.cls = after.ancestors (after.object id).cls

namespace AddsWhole

theorem of_size {first second : World} (same : second.instances.size = first.instances.size) :
    AddsWhole first second :=
  fun _ beyond inside => absurd (same ▸ inside) (Nat.not_lt_of_le beyond)

theorem trans {first second third : World} (one : AddsWhole first second)
    (continues : second.Continues third) (two : AddsWhole second third) : AddsWhole first third := by
  intro id beyond inside
  by_cases old : id.index < second.instances.size
  · obtain ⟨cls, levels⟩ := continues.objects id old
    rw [cls, levels, continues.hierarchy.ancestors]
    exact one id beyond old
  · exact two id (Nat.le_of_not_lt old) inside

theorem allocate (world : World) (id : ClassId) : AddsWhole world (world.allocate id) := by
  have continues := Continues.allocate world id
  have allocates := allocate_allocates world id
  intro newest beyond inside
  have last : newest = world.instances.next := by
    rw [allocates.size] at inside
    obtain ⟨index⟩ := newest
    exact congrArg Handle.mk (Nat.le_antisymm (Nat.le_of_lt_succ inside) beyond)
  obtain ⟨levels, object, chain⟩ := allocates.object
  rw [last, object, continues.hierarchy.ancestors]
  exact chain

end AddsWhole

/-- Instances that were whole stay whole. -/
theorem Whole.later {before after : World} (whole : before.Whole)
    (continues : before.Continues after) (adds : AddsWhole before after) : after.Whole := by
  intro id inside
  by_cases old : id.index < before.instances.size
  · obtain ⟨cls, levels⟩ := continues.objects id old
    rw [cls, levels, continues.hierarchy.ancestors]
    exact whole id old
  · exact adds id (Nat.le_of_not_lt old) inside

end World

theorem Change.size_instances {may : String → Prop} {opened : InstanceId → Prop}
    {first second : World} (change : Change may opened first second)
    (other : ∀ id, second ≠ first.allocate id) : second.instances.size = first.instances.size := by
  cases change with
  | allocate id => exact absurd rfl (other id)
  | touch reference => rw [World.touchRef_eq]
  | adopt | openView | attach | mark => exact Heap.size_modify ..
  | table | setTable | host | setHost | context | metaTable | placeholder | callable | install
  | declare | field | write | annotate | bindFallback | bindLevel | save | record => rfl

theorem HostChange.size_instances {first second : World} (change : HostChange first second) :
    second.instances.size = first.instances.size := by
  cases change with
  | drop id => exact Heap.size_modify ..
  | context | withdraw | declare | freeStore | reference | classRef | bindReference | bindings
  | heldFrames | log => rfl

/-- Only instances that are whole are added, unless a class is defined. -/
theorem Proceeds.addsWhole {first second : World} (alive : first.alive = true) (sound : first.Sound)
    (proceeds : Proceeds first second) : World.AddsWhole first second := by
  induction proceeds with
  | refl => exact .of_size rfl
  | @run second third _ change ih =>
      refine ih.trans change.continues ?_
      by_cases allocates : ∃ id, third = second.allocate id
      · obtain ⟨id, rfl⟩ := allocates
        exact .allocate second id
      · exact .of_size (change.size_instances fun id same => allocates ⟨id, same⟩)
  | host before change ih =>
      have registered := (before.sound_continues alive sound).1.registered
      exact ih.trans (change.continues registered) (.of_size change.size_instances)

namespace World

theorem Ready.proceed {before after : World} (ready : before.Ready)
    (proceeds : Proceeds before after) : after.Ready := by
  obtain ⟨sound, continues⟩ := proceeds.sound_continues ready.alive ready.sound
  exact ⟨continues.alive.trans ready.alive, sound, ready.bases.later continues,
    ready.whole.later continues (proceeds.addsWhole ready.alive ready.sound)⟩

theorem Ready.continues {before after : World} (ready : before.Ready)
    (proceeds : Proceeds before after) : before.Continues after :=
  (proceeds.sound_continues ready.alive ready.sound).2

/-- Only another definition unsettles a session. -/
theorem Settled.proceed {before after : World} (settled : before.Settled)
    (proceeds : Proceeds before after) : after.Settled := by
  obtain ⟨alive, sound, bases, whole⟩ := settled.ready.proceed proceeds
  have continues := settled.ready.continues proceeds
  exact ⟨alive, sound, settled.distinct.later continues.hierarchy, bases, whole⟩

/-- Where bases are remembered, asking a store for a function changes nothing. -/
theorem RemembersBases.askedFor {world : World} (bases : world.RemembersBases) (store : StoreId)
    (name : String) : world.askedFor store name = world := by
  have walked : ∀ visited, world.resolveBases visited = world := fun visited =>
    resolveBases_of_remembered fun id _ => bases id
  unfold World.askedFor
  split
  · split
    · rfl
    · exact walked _
  · rfl
  · rfl

/-! ## The levels of an instance -/

/-- A class that declares something is registered. -/
theorem inside_of_function {world : World} {id : ClassId} {function : Function}
    (declared : function ∈ (world.cls id).functions) : id.index < world.classes.size := by
  apply Nat.lt_of_not_le
  intro beyond
  unfold cls Heap.get at declared
  rw [Heap.get?_eq_none _ beyond] at declared
  cases declared

theorem findIdx?_of_nodup {α β : Type} [DecidableEq β] {key : α → β} {entries : List α}
    (distinct : (entries.map key).Nodup) {place : Nat} {entry : α}
    (sits : entries[place]? = some entry) :
    entries.findIdx? (fun other => key other = key entry) = some place := by
  induction entries generalizing place with
  | nil => cases sits
  | cons head rest ih =>
      rw [List.map_cons, List.nodup_cons] at distinct
      rw [List.findIdx?_cons]
      cases place with
      | zero =>
          cases sits
          simp
      | succ place =>
          have member := List.mem_of_getElem? (show rest[place]? = some entry from sits)
          have differs : key head ≠ key entry := by
            intro same
            exact distinct.1 (List.mem_map.mpr ⟨entry, member, same.symm⟩)
          rw [if_neg (by simpa using differs), ih distinct.2 sits]
          rfl

section

variable {world : World} {id : InstanceId} {chain : List ClassId}
  (chained : (world.object id).levels.map Level.cls = chain)
include chained

/-- There is a level for each class of the chain. -/
theorem level_at {place : Nat} {member : ClassId} (sits : chain[place]? = some member) :
    ∃ level, world.level? id place = some level ∧ level.cls = member := by
  rw [← chained, List.getElem?_map] at sits
  exact Option.map_eq_some_iff.mp sits

theorem level_of_member {member : ClassId} (found : member ∈ chain) :
    ∃ place level, world.level? id place = some level ∧ level.cls = member := by
  obtain ⟨place, sits⟩ := List.mem_iff_getElem?.mp found
  exact ⟨place, level_at chained sits⟩

/-- The levels are the classes of the chain. -/
theorem member_at {place : Nat} {level : Level} (sits : world.level? id place = some level) :
    chain[place]? = some level.cls := by
  rw [← chained, List.getElem?_map]
  exact congrArg (Option.map Level.cls) sits

end

/-- A registered class that an instance has a level for is found at that level. -/
theorem Registered.level_found {world : World} (registered : world.Registered) {id : InstanceId}
    (begins : (world.object id).levels.map Level.cls <+: world.ancestors (world.object id).cls)
    {place : Nat} {level : Level} (sits : world.level? id place = some level)
    (inside : level.cls.index < world.classes.size) :
    world.levelOf? id (TypeHash.ofName (world.cls level.cls).name) = some place := by
  have distinct : ((world.object id).levels.map fun level => (world.cls level.cls).hash).Nodup := by
    have nodup := (world.ancestors_distinct (world.object id).cls).sublist
      (begins.sublist.map fun member => (world.cls member).hash)
    rw [List.map_map] at nodup
    exact nodup
  unfold levelOf?
  rw [← registered.hashes level.cls inside]
  exact findIdx?_of_nodup distinct sits

/-- A class that declares a function is found at its level. -/
theorem Registered.levelOf?_eq {world : World} (registered : world.Registered) {id : InstanceId}
    (begins : (world.object id).levels.map Level.cls <+: world.ancestors (world.object id).cls)
    {place : Nat} {level : Level} (sits : world.level? id place = some level) {function : Function}
    (declared : function ∈ (world.cls level.cls).functions) :
    world.levelOf? id (Owner.ofClass (world.cls level.cls).name).hash = some place :=
  registered.level_found begins sits (inside_of_function declared)

/-- A function is bound to the level of the class that declares it, if the instance has one. -/
theorem Registered.boundLevel_eq {world : World} (registered : world.Registered) {id : InstanceId}
    (begins : (world.object id).levels.map Level.cls <+: world.ancestors (world.object id).cls)
    {place : Nat} {level : Level} (sits : world.level? id place = some level) {function : Function}
    (declared : function ∈ (world.cls level.cls).functions) (fallback : Nat) :
    world.boundLevel id fallback function = place := by
  unfold boundLevel
  rw [registered.owners level.cls function declared, Option.bind_some,
    registered.levelOf?_eq begins sits declared, Option.getD_some]

/-- A level finds the functions of its own class first. -/
theorem Registered.levelFunction?_own {world : World} (registered : world.Registered) {id : ClassId}
    {function : Function} (declared : function ∈ (world.cls id).functions) :
    world.levelFunction? id function.access function.name = some function := by
  have answer := registered.acceptedFunction?_eq declared
    (fun other => other.access = function.access) (by simp)
  unfold levelFunction?
  split
  · exact answer
  · obtain ⟨rest, starts⟩ := world.head_ancestors id
    unfold nearest?
    rw [← starts, List.singleton_append, List.findSome?_cons, answer]

/-! ## Where the function of a link sits -/

/-- A link leads to the function of a level of an instance. -/
structure LeadsTo (world : World) (id : InstanceId) (link : MetaLink) (place : Nat) (level : Level) :
    Prop where
  sits : world.level? id place = some level
  declared : link.function ∈ (world.cls level.cls).functions
  named : link.function.name = link.key.methodName
  owner : link.owner = Owner.ofClass (world.cls level.cls).name
  tier : link.access = link.function.access

/-- An instance with a level for each class of a chain has one for the function of each link. -/
theorem Links.leadsTo {world : World} {id : InstanceId} {cls : ClassId} {link : MetaLink}
    (links : world.Links cls link) (levels : ∀ member ∈ world.ancestors cls,
      ∃ place level, world.level? id place = some level ∧ level.cls = member) :
    ∃ place level, world.LeadsTo id link place level := by
  obtain ⟨member, along, declared, named, owner, tier⟩ := links
  obtain ⟨place, level, sits, rfl⟩ := levels member along
  exact ⟨place, level, sits, declared, named, owner, tier⟩

namespace LeadsTo

variable {world : World} {id : InstanceId} {link : MetaLink} {place : Nat} {level : Level}
  (leads : world.LeadsTo id link place level)
  (begins : (world.object id).levels.map Level.cls <+: world.ancestors (world.object id).cls)
include leads begins

/-- The level is found by the owner of the link. -/
theorem levelOf?_eq (registered : world.Registered) :
    world.levelOf? id link.owner.hash = some place := by
  rw [leads.owner]
  exact registered.levelOf?_eq begins leads.sits leads.declared

/-- The store of the level at the tier of the function stands for it, bound to the level. -/
theorem offered (sound : world.Sound) :
    world.offer? (level.declarations link.access) link.key.methodName =
      some (link.function, some ⟨id, place⟩) := by
  have home := sound.laid.stores id place level leads.sits link.access
  unfold offer?
  rw [home]
  dsimp only
  rw [leads.tier, ← leads.named, sound.registered.levelFunction?_own leads.declared, Option.map_some,
    sound.registered.boundLevel_eq begins leads.sits leads.declared]

end LeadsTo

theorem LeadsTo.later {before after : World} {id : InstanceId} {link : MetaLink} {place : Nat}
    {level : Level} (leads : before.LeadsTo id link place level)
    (continues : before.Continues after) : after.LeadsTo id link place level where
  sits := continues.level? leads.sits
  declared := by
    rw [continues.hierarchy.ask ClassDef.functions fun _ => rfl]
    exact leads.declared
  named := leads.named
  owner := by
    rw [continues.hierarchy.name]
    exact leads.owner
  tier := leads.tier

/-! ## The hierarchy of a settled session -/

namespace Settled

variable {world : World} (settled : world.Settled)
include settled

theorem hierarchical : world.Hierarchical := settled.sound.registered.hierarchical settled.distinct

/-- The chain of a class on a chain is the rest of it. -/
theorem ancestors_drop {id member : ClassId} {place : Nat}
    (sits : (world.ancestors id)[place]? = some member) :
    world.ancestors member = (world.ancestors id).drop place := by
  by_cases inside : id.index < world.classes.size
  · exact settled.hierarchical.ancestors_drop inside sits
  · rw [ancestors_beyond (Nat.le_of_not_lt inside)] at sits ⊢
    cases place with
    | zero =>
        cases sits
        rw [ancestors_beyond (Nat.le_of_not_lt inside)]
        rfl
    | succ place => cases sits

/-- The levels of an instance are the classes of its chain. -/
theorem level_cls {id : InstanceId} {place : Nat} {level : Level}
    (sits : world.level? id place = some level) :
    (world.ancestors (world.object id).cls)[place]? = some level.cls :=
  member_at (settled.whole id (inside_of_level? sits)) sits

/-- There is a level for each class of the chain. -/
theorem level_of_chain {id : InstanceId} (inside : id.index < world.instances.size) {place : Nat}
    {member : ClassId} (sits : (world.ancestors (world.object id).cls)[place]? = some member) :
    ∃ level, world.level? id place = some level ∧ level.cls = member :=
  level_at (settled.whole id inside) sits

/-- The levels of an instance are where its chain begins. -/
theorem levels_begin {id : InstanceId} (inside : id.index < world.instances.size) :
    (world.object id).levels.map Level.cls <+: world.ancestors (world.object id).cls :=
  settled.whole id inside ▸ List.prefix_rfl

/-- A function of a class on the chain of an instance is bound to the level of that class. -/
theorem boundLevel_eq {id : InstanceId} {place : Nat} {level : Level}
    (sits : world.level? id place = some level) {function : Function}
    (declared : function ∈ (world.cls level.cls).functions) (fallback : Nat) :
    world.boundLevel id fallback function = place :=
  settled.sound.registered.boundLevel_eq (settled.levels_begin (inside_of_level? sits)) sits
    declared fallback

end Settled

end World

/-! ## Runs from settled states -/

theorem declareOnly_all (bodies : List Expr) : DeclareOnly (fun _ => True) bodies :=
  fun _ _ => trivial

/-- In every state bodies may declare whatever they do. -/
theorem World.permits_all (world : World) : world.Permits (fun _ => True) :=
  ⟨fun _ => declareOnly_all _, fun _ _ => declareOnly_all _, fun _ _ _ => declareOnly_all _⟩

namespace Exec

variable {α : Type}

/-- A run that may declare and construct whatever it does. -/
abbrev LeadsFreely (run : Exec α) : Prop := Leads (fun _ => True) (fun _ => True) run

theorem LeadsAt.proceeds {run : Exec α} {world : World}
    (leads : LeadsAt (fun _ => True) (fun _ => True) run world) : Proceeds world (run world).2 :=
  (leads world.permits_all fun _ _ => trivial).proceeds

theorem LeadsFreely.proceeds {run : Exec α} (leads : LeadsFreely run) (world : World) :
    Proceeds world (run world).2 :=
  (leads world).proceeds

end Exec

end ScriptObjects

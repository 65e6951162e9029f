import ScriptObjects.Proofs.CallStacks

/-!
# Static resolution

What a name means in a scope of an instance can be read off the declarations alone.
The walk goes along the chain of the instance, at each level through the tiers the
scope sees; a level means the field its class declares, or else the function declared
nearest from there on, bound to the level of its class.  What no level means is looked
for in the roots.

In a settled session the stores of a constructed instance have exactly these meanings,
whatever was looked up before: a variable is the field of its level, and a function
that is already a slot is the one the walk finds.
-/

namespace ScriptObjects

set_option autoImplicit false

/-- What a name means in a scope of an instance. -/
inductive Meaning where
  /-- The variable of a field of the class at a level. -/
  | field (place : Nat) (field : Field)
  /-- A function, bound to the level whose class declares it. -/
  | function (place : Nat) (function : Function)
  /-- A variable of the roots at a tier. -/
  | rootVariable (tier : Access)
  /-- A function of the assembly. -/
  | rootFunction (function : Function)

/-- Where the meaning of a name in an instance is found. -/
def World.answerOf (world : World) (id : InstanceId) : Meaning → Answer
  | .field place field =>
      .slot ((world.level? id place).elim default fun level => level.declarations field.access)
  | .function place function => .function function (some ⟨id, place⟩)
  | .rootVariable tier => .slot (World.rootStore tier)
  | .rootFunction function => .function function none

namespace World

/-! ## The walk -/

/-- The nearest function of a name and tier among classes that follow each other from a place. -/
def functionAlong? (world : World) (tier : Access) (name : String) :
    Nat → List ClassId → Option Meaning
  | _, [] => none
  | place, id :: rest =>
      match (world.cls id).acceptedFunction? name fun function => function.access = tier with
      | some function => some (.function place function)
      | none => world.functionAlong? tier name (place + 1) rest

/-- The member of a name and tier at the first of several classes: its own field, or else the
nearest function; at the most restrictive tier only its own. -/
def memberAt? (world : World) (tier : Access) (name : String) (place : Nat) :
    List ClassId → Option Meaning
  | [] => none
  | id :: rest =>
      match (world.cls id).acceptedField? name fun field => field.access = tier with
      | some field => some (.field place field)
      | none =>
          world.functionAlong? tier name place (if tier = .localOnly then [id] else id :: rest)

/-- The first member of a name along a chain from a place, at the tiers that a scope sees. -/
def memberAlong? (world : World) (access : Access) (name : String) :
    Nat → List ClassId → Option Meaning
  | _, [] => none
  | place, id :: rest =>
      ((if access.admits .internal then world.memberAt? .internal name place (id :: rest)
        else none).or (world.memberAt? .global name place (id :: rest))).or
        (world.memberAlong? access name (place + 1) rest)

/-- The member of a name that a composite scope of an instance sees. -/
def member? (world : World) (chain : List ClassId) (view : Viewpoint) (name : String) :
    Option Meaning :=
  match view.mode with
  | .base => world.memberAlong? view.access name (view.level + 1) (chain.drop (view.level + 1))
  | _ =>
      (if view.access = .localOnly then
        world.memberAt? .localOnly name view.level (chain.drop view.level) else none).or
        (world.memberAlong? view.access name 0 chain)

/-- What a name means in the roots at one tier. -/
def rootAt? (world : World) (name : String) (tier : Access) : Option Meaning :=
  if ((world.store (rootStore tier)).slot? name).any fun slot => !slot.immutable then
    some (.rootVariable tier)
  else ((world.function? name).filter fun function => function.access = tier).map .rootFunction

/-- What a name means in the roots, the most restrictive tier first. -/
def root? (world : World) (access : Access) (name : String) : Option Meaning :=
  access.downward.findSome? (world.rootAt? name)

/-- What a name means in a composite scope of an instance of a class. -/
def meaning? (world : World) (cls : ClassId) (view : Viewpoint) (name : String) : Option Meaning :=
  (world.member? (world.ancestors cls) view name).or (world.root? view.access name)

/-! ## Constructed instances -/

/-- Every variable of an instance is that of a field. -/
def OnlyFields (world : World) (id : InstanceId) : Prop :=
  ∀ place level tier name slot, world.level? id place = some level →
    (world.store (level.declarations tier)).slot? name = some slot → slot.immutable = false →
    ∃ field ∈ (world.cls level.cls).fields, field.name = name ∧ field.access = tier

/-- The instance was constructed, and no variable was added to it. -/
structure Constructed (world : World) (id : InstanceId) : Prop where
  exists_ : id.index < world.instances.size
  fields : world.HasFields id
  only : world.OnlyFields id

theorem acceptedField?_eq_some {world : World} {id : ClassId} {name : String} {tier : Access}
    {field : Field}
    (found : (world.cls id).acceptedField? name (fun field => field.access = tier) = some field) :
    field ∈ (world.cls id).fields ∧ field.name = name ∧ field.access = tier := by
  unfold ClassDef.acceptedField? ClassDef.field? at found
  rw [Option.filter_eq_some_iff] at found
  exact ⟨List.mem_of_find?_eq_some found.1, by simpa using List.find?_some found.1,
    by simpa using found.2⟩

/-- The fields of a class are found by their names. -/
theorem Registered.acceptedField?_eq {world : World} (registered : world.Registered) {id : ClassId}
    {field : Field} (member : field ∈ (world.cls id).fields) :
    (world.cls id).acceptedField? field.name (fun other => other.access = field.access) =
      some field := by
  have distinct := (List.nodup_append.mp (registered.members id)).1
  unfold ClassDef.acceptedField? ClassDef.field?
  rw [find?_of_distinct distinct member]
  simp

section

variable {world : World} (settled : world.Settled) {id : InstanceId}
include settled

/-- A function that is found along the chain of an instance is bound to where it is found. -/
theorem functionAlong?_answer (tier : Access) (name : String) (fallback : Nat)
    (inside : id.index < world.instances.size) (members : List ClassId) (place : Nat)
    (sits : ∀ offset member, members[offset]? = some member →
      (world.ancestors (world.object id).cls)[place + offset]? = some member) :
    (world.functionAlong? tier name place members).map (world.answerOf id) =
      (members.findSome? fun member => (world.cls member).acceptedFunction? name
        fun function => function.access = tier).map
        fun function => .function function (some ⟨id, world.boundLevel id fallback function⟩) := by
  induction members generalizing place with
  | nil => rfl
  | cons member rest ih =>
      rw [functionAlong?, List.findSome?_cons]
      cases found : (world.cls member).acceptedFunction? name
          fun function => function.access = tier with
      | some function =>
          obtain ⟨declared, _⟩ := mem_of_acceptedFunction? found
          obtain ⟨level, there, rfl⟩ := settled.level_of_chain inside (sits 0 member rfl)
          rw [Nat.add_zero] at there
          simp only [Option.map_some, World.answerOf, settled.boundLevel_eq there declared]
      | none =>
          refine ih (place + 1) fun offset other there => ?_
          have next := sits (offset + 1) other there
          rwa [Nat.add_comm offset, ← Nat.add_assoc] at next

/-- What the store of a level has under a name is the member at that level. -/
theorem answer?_level (constructed : world.Constructed id) {place : Nat} {level : Level}
    (sits : world.level? id place = some level) (tier : Access) (name : String) :
    world.answer? name (level.declarations tier) =
      (world.memberAt? tier name place
        ((world.ancestors (world.object id).cls).drop place)).map (world.answerOf id) := by
  obtain ⟨rest, chain⟩ : ∃ rest, (world.ancestors (world.object id).cls).drop place =
      level.cls :: rest := by
    obtain ⟨within, same⟩ := List.getElem?_eq_some_iff.mp (settled.level_cls sits)
    exact ⟨_, (List.drop_eq_getElem_cons within).trans (by rw [same])⟩
  have home := settled.sound.laid.stores id place level sits tier
  rw [chain]
  unfold World.answer? memberAt?
  dsimp only
  cases found : (world.cls level.cls).acceptedField? name fun field => field.access = tier with
  | some field =>
      obtain ⟨member, named, access⟩ := acceptedField?_eq_some found
      obtain ⟨slot, there, isMutable⟩ := constructed.fields place level sits field member
      rw [named, access] at there
      simp [there, isMutable, answerOf, sits, access]
  | none =>
      have none_there : (((world.store (level.declarations tier)).slot? name).any
          fun slot => !slot.immutable) = false := by
        cases there : (world.store (level.declarations tier)).slot? name with
        | none => rfl
        | some slot =>
            cases held : slot.immutable with
            | true => simp [held]
            | false =>
                obtain ⟨field, member, rfl, rfl⟩ :=
                  constructed.only place level tier name slot sits there held
                rw [settled.sound.registered.acceptedField?_eq member] at found
                cases found
      have along : ∀ offset member,
          (if tier = .localOnly then [level.cls] else level.cls :: rest)[offset]? = some member →
          (world.ancestors (world.object id).cls)[place + offset]? = some member := by
        intro offset member there
        rw [← List.getElem?_drop, chain]
        split at there
        · cases offset with
          | zero => exact there
          | succ offset => cases there
        · exact there
      have functions := functionAlong?_answer settled tier name place constructed.exists_ _ place along
      rw [none_there, functions]
      unfold World.offer?
      rw [home]
      dsimp only
      rw [Option.map_map]
      unfold World.levelFunction? World.nearest?
      rw [settled.ancestors_drop (settled.level_cls sits), chain]
      by_cases most : tier = .localOnly
      · rw [if_pos most, if_pos most, List.findSome?_singleton]
        rfl
      · rw [if_neg most, if_neg most]
        rfl

/-! ## Composite scopes -/

omit settled in
theorem answerAmong?_append (name : String) (first second : List Scope) :
    world.answerAmong? name (first ++ second) =
      (world.answerAmong? name first).or (world.answerAmong? name second) := by
  induction first with
  | nil => rfl
  | cons source rest ih =>
      rw [List.cons_append, answerAmong?, answerAmong?, ih, Option.or_assoc]

/-- What a level contributes to a composite scope. -/
theorem answerAmong?_levelSources (constructed : world.Constructed id) {place : Nat} {level : Level}
    (sits : world.level? id place = some level) (access : Access) (name : String) :
    world.answerAmong? name (levelSources access level) =
      ((if access.admits .internal then world.memberAt? .internal name place
        ((world.ancestors (world.object id).cls).drop place) else none).or
        (world.memberAt? .global name place
          ((world.ancestors (world.object id).cls).drop place))).map (world.answerOf id) := by
  have internals := answer?_level settled constructed sits .internal name
  have globals := answer?_level settled constructed sits .global name
  rw [Option.map_or]
  unfold levelSources
  split
  · rw [← internals, ← globals]
    simp only [answerAmong?, answerIn?, Option.or_none]
    rfl
  · rw [← globals]
    simp only [answerAmong?, answerIn?, Option.or_none, Option.map_none, Option.none_or]
    rfl

theorem answerAmong?_levels (constructed : world.Constructed id) (access : Access) (name : String)
    (levels : List Level) (place : Nat) (here : (world.object id).levels.drop place = levels) :
    world.answerAmong? name (levels.flatMap (levelSources access)) =
      (world.memberAlong? access name place
        ((world.ancestors (world.object id).cls).drop place)).map (world.answerOf id) := by
  have whole := settled.whole id constructed.exists_
  induction levels generalizing place with
  | nil =>
      rw [← whole, ← List.map_drop, here]
      rfl
  | cons level rest ih =>
      have sits : world.level? id place = some level := by
        have head := congrArg (fun levels => levels[0]?) here
        simpa [World.level?] using head
      have later : (world.object id).levels.drop (place + 1) = rest := by
        rw [← List.drop_drop, here]
        rfl
      have chain : (world.ancestors (world.object id).cls).drop place =
          level.cls :: (world.ancestors (world.object id).cls).drop (place + 1) := by
        rw [← whole, ← List.map_drop, ← List.map_drop, here, later]
        rfl
      rw [List.flatMap_cons, answerAmong?_append, ih (place + 1) later,
        answerAmong?_levelSources settled constructed sits, chain, memberAlong?]
      simp only [Option.map_or]

/-- What a view at the most restrictive tier has of its own level. -/
theorem answerAmong?_ownSource (constructed : world.Constructed id) (view : Viewpoint)
    (name : String) :
    world.answerAmong? name (if view.access = .localOnly then
        ((world.object id).levels[view.level]?.map fun level => Scope.store level.locals).toList
      else []) =
      (if view.access = .localOnly then world.memberAt? .localOnly name view.level
        ((world.ancestors (world.object id).cls).drop view.level) else none).map
        (world.answerOf id) := by
  split
  · cases sits : (world.object id).levels[view.level]? with
    | none =>
        have past : ((world.ancestors (world.object id).cls).drop view.level) = [] := by
          rw [← settled.whole id constructed.exists_, ← List.map_drop,
            List.drop_eq_nil_of_le (List.getElem?_eq_none_iff.mp sits), List.map_nil]
        rw [past]
        rfl
    | some level =>
        rw [← answer?_level settled constructed sits .localOnly name]
        simp only [Option.map_some, Option.toList_some, answerAmong?, answerIn?, Option.or_none]
        rfl
  · rfl

theorem answerIn?_rootScope (access : Access) (name : String) :
    world.answerIn? name (rootScope access) =
      (world.root? access name).map (world.answerOf id) := by
  have tier : ∀ tier, world.answer? name (rootStore tier) =
      (world.rootAt? name tier).map (world.answerOf id) := by
    intro tier
    unfold World.answer? rootAt? World.offer?
    rw [settled.sound.laid.roots tier]
    split
    · rfl
    · rw [Option.map_map, Option.map_map]
      rfl
  have tiers : ∀ tiers : List Access,
      world.answerAmong? name (tiers.map fun tier => .store (rootStore tier)) =
        (tiers.findSome? (world.rootAt? name)).map (world.answerOf id) := by
    intro tiers
    induction tiers with
    | nil => rfl
    | cons head rest ih =>
        rw [List.map_cons, answerAmong?, answerIn?, ih, tier, List.findSome?_cons]
        cases world.rootAt? name head <;> rfl
  unfold rootScope root?
  rw [answerIn?]
  exact tiers access.downward

/-- A composite scope of a constructed instance has exactly what the declarations mean. -/
theorem answerIn?_compositeScope (constructed : world.Constructed id) (view : Viewpoint)
    (name : String) :
    world.answerIn? name (compositeScope (world.object id).levels view true) =
      (world.meaning? (world.object id).cls view name).map (world.answerOf id) := by
  have levels : world.answerAmong? name (chainSources (world.object id).levels view) =
      (world.member? (world.ancestors (world.object id).cls) view name).map
        (world.answerOf id) := by
    have below := answerAmong?_levels settled constructed view.access name
    have own := answerAmong?_ownSource settled constructed view name
    unfold chainSources member?
    cases view.mode with
    | base => exact below _ (view.level + 1) rfl
    | _ =>
        dsimp only
        rw [answerAmong?_append, own, below _ 0 List.drop_zero, Option.map_or]
        rfl
  unfold compositeScope meaning?
  rw [answerIn?, if_pos rfl, answerAmong?_append, levels, Option.map_or, answerAmong?,
    @answerIn?_rootScope world settled id]
  simp only [answerAmong?, Option.or_none]

end

end World

end ScriptObjects

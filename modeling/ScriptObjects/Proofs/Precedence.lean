import ScriptObjects.Proofs.Refinement

/-!
# Which declaration wins

Looked at from outside its own level, a name means a member that is shared: one of a
tier other than the most restrictive.  The declaration nearest to the head of the chain
wins among fields, and among functions of one tier.  Between them it does not: the
stores of the head stand for the functions of the whole chain, so that a function
declared anywhere hides every field declared below the head, however much nearer the
field is, and a function of an inner tier hides even a global field of the head itself.
-/

namespace ScriptObjects

set_option autoImplicit false

/-- The tiers of shared members that a scope sees, more restrictive ones first. -/
def Access.shared (access : Access) : List Access :=
  if access.admits .internal then [.internal, .global] else [.global]

theorem Access.shared_ne_localOnly {access tier : Access} (sees : tier ∈ access.shared) :
    tier ≠ .localOnly := by
  cases access <;> cases tier <;> revert sees <;> decide

namespace World

/-- A class declares a member of a name at a tier. -/
def DeclaresMember (world : World) (id : ClassId) (tier : Access) (name : String) : Prop :=
  (∃ field ∈ (world.cls id).fields, field.name = name ∧ field.access = tier) ∨
    ∃ function ∈ (world.cls id).functions, function.name = name ∧ function.access = tier

/-- The shared field of a name that the first class declaring one has. -/
def fieldAlong? (world : World) (access : Access) (name : String) :
    Nat → List ClassId → Option Meaning
  | _, [] => none
  | place, id :: rest =>
      (access.shared.findSome? fun tier =>
        ((world.cls id).acceptedField? name fun field => field.access = tier).map
          (.field place)).or (world.fieldAlong? access name (place + 1) rest)

/-- The shared member of a name that wins along a chain: tier by tier the field of the head or else
the nearest function, and where there is neither the nearest field. -/
def dominant? (world : World) (access : Access) (name : String) (chain : List ClassId) :
    Option Meaning :=
  (access.shared.findSome? fun tier => world.memberAt? tier name 0 chain).or
    (world.fieldAlong? access name 0 chain)

/-! ## Members by name and tier -/

theorem findSome?_congr {α β : Type} {entries : List α} {first second : α → Option β}
    (same : ∀ entry ∈ entries, first entry = second entry) :
    entries.findSome? first = entries.findSome? second := by
  induction entries with
  | nil => rfl
  | cons entry rest ih =>
      rw [List.findSome?_cons, List.findSome?_cons, same entry List.mem_cons_self,
        ih fun other member => same other (List.mem_cons_of_mem entry member)]

section

variable {world : World} {name : String}

theorem acceptedFunction?_eq_none_iff (registered : world.Registered) {id : ClassId}
    {tier : Access} :
    (world.cls id).acceptedFunction? name (fun function => function.access = tier) = none ↔
      ∀ function ∈ (world.cls id).functions, function.name = name → function.access ≠ tier := by
  have distinct := (List.nodup_append.mp (registered.members id)).2.1
  constructor
  · rintro missing function member rfl rfl
    unfold ClassDef.acceptedFunction? ClassDef.function? at missing
    rw [find?_of_distinct distinct member] at missing
    simp at missing
  · intro none
    cases found : (world.cls id).acceptedFunction? name fun function => function.access = tier with
    | none => rfl
    | some function =>
        obtain ⟨member, named, access⟩ := mem_of_acceptedFunction? found
        exact absurd (by simpa using access) (none function member named)

theorem acceptedField?_eq_none_iff (registered : world.Registered) {id : ClassId} {tier : Access} :
    (world.cls id).acceptedField? name (fun field => field.access = tier) = none ↔
      ∀ field ∈ (world.cls id).fields, field.name = name → field.access ≠ tier := by
  constructor
  · rintro missing field member rfl rfl
    rw [registered.acceptedField?_eq member] at missing
    cases missing
  · intro none
    cases found : (world.cls id).acceptedField? name fun field => field.access = tier with
    | none => rfl
    | some field =>
        obtain ⟨member, named, access⟩ := acceptedField?_eq_some found
        exact absurd access (none field member named)

theorem functionAlong?_eq_none_iff {tier : Access} {members : List ClassId} {place : Nat} :
    world.functionAlong? tier name place members = none ↔
      ∀ id ∈ members, (world.cls id).acceptedFunction? name
        (fun function => function.access = tier) = none := by
  induction members generalizing place with
  | nil => simp [functionAlong?]
  | cons id rest ih =>
      rw [functionAlong?, List.forall_mem_cons]
      cases found : (world.cls id).acceptedFunction? name fun function => function.access = tier with
      | some function => simp
      | none => simp only [true_and]; exact ih

theorem memberAt?_shared {tier : Access} (isShared : tier ≠ .localOnly) (place : Nat) (id : ClassId)
    (rest : List ClassId) :
    world.memberAt? tier name place (id :: rest) =
      (((world.cls id).acceptedField? name fun field => field.access = tier).map
        (.field place)).or (world.functionAlong? tier name place (id :: rest)) := by
  rw [memberAt?, if_neg isShared]
  cases (world.cls id).acceptedField? name fun field => field.access = tier <;> rfl

/-! ## The walk and the winner -/

theorem memberAlong?_cons (access : Access) (place : Nat) (id : ClassId) (rest : List ClassId) :
    world.memberAlong? access name place (id :: rest) =
      (access.shared.findSome? fun tier => world.memberAt? tier name place (id :: rest)).or
        (world.memberAlong? access name (place + 1) rest) := by
  rw [memberAlong?]
  unfold Access.shared
  split
  · simp only [List.findSome?_cons, List.findSome?_nil]
    cases world.memberAt? .internal name place (id :: rest) <;>
      cases world.memberAt? .global name place (id :: rest) <;> rfl
  · simp only [List.findSome?_cons, List.findSome?_nil, Option.none_or]
    cases world.memberAt? .global name place (id :: rest) <;> rfl

/-- Where no class has a shared function of the name, only fields count. -/
theorem memberAlong?_of_no_function (access : Access) (members : List ClassId) (place : Nat)
    (none : ∀ id ∈ members, ∀ tier ∈ access.shared, (world.cls id).acceptedFunction? name
      (fun function => function.access = tier) = none) :
    world.memberAlong? access name place members = world.fieldAlong? access name place members := by
  induction members generalizing place with
  | nil => rfl
  | cons id rest ih =>
      have later := ih (place + 1) fun other member => none other (List.mem_cons_of_mem id member)
      rw [memberAlong?_cons, fieldAlong?, later]
      congr 1
      refine findSome?_congr fun tier sees => ?_
      have functions : world.functionAlong? tier name place (id :: rest) = Option.none :=
        functionAlong?_eq_none_iff.mpr fun other member => none other member tier sees
      rw [memberAt?_shared (Access.shared_ne_localOnly sees), functions, Option.or_none]

/-- The walk along a whole chain ends at the winner. -/
theorem memberAlong?_eq_dominant? (access : Access) (chain : List ClassId) :
    world.memberAlong? access name 0 chain = world.dominant? access name chain := by
  cases chain with
  | nil => cases access <;> rfl
  | cons id rest =>
      rw [memberAlong?_cons, dominant?]
      cases first : access.shared.findSome? fun tier => world.memberAt? tier name 0 (id :: rest) with
      | some meaning => rfl
      | none =>
          have neither := List.findSome?_eq_none_iff.mp first
          have apart : ∀ tier ∈ access.shared,
              (world.cls id).acceptedField? name (fun field => field.access = tier) = none ∧
              world.functionAlong? tier name 0 (id :: rest) = none := by
            intro tier sees
            have both := neither tier sees
            rw [memberAt?_shared (Access.shared_ne_localOnly sees), Option.or_eq_none_iff,
              Option.map_eq_none_iff] at both
            exact both
          have functions : ∀ other ∈ rest, ∀ tier ∈ access.shared,
              (world.cls other).acceptedFunction? name
                (fun function => function.access = tier) = none := fun other member tier sees =>
            functionAlong?_eq_none_iff.mp (apart tier sees).2 other (List.mem_cons_of_mem id member)
          have head : (access.shared.findSome? fun tier =>
              ((world.cls id).acceptedField? name fun field => field.access = tier).map
                (Meaning.field 0)) = none :=
            List.findSome?_eq_none_iff.mpr fun tier sees => by rw [(apart tier sees).1]; rfl
          rw [fieldAlong?, head, memberAlong?_of_no_function access rest _ functions,
            Option.none_or, Option.none_or]

/-- Along a chain nothing is found only where no class declares a shared member of the name. -/
theorem memberAlong?_eq_none_iff (registered : world.Registered) (access : Access)
    (members : List ClassId) (place : Nat) :
    world.memberAlong? access name place members = none ↔
      ∀ id ∈ members, ∀ tier ∈ access.shared, ¬ world.DeclaresMember id tier name := by
  induction members generalizing place with
  | nil => simp [memberAlong?]
  | cons id rest ih =>
      rw [memberAlong?_cons, Option.or_eq_none_iff, ih, List.findSome?_eq_none_iff]
      constructor
      · rintro ⟨here, later⟩ other member tier sees
        obtain rfl | inRest := List.mem_cons.mp member
        · have both := here tier sees
          rw [memberAt?_shared (Access.shared_ne_localOnly sees), Option.or_eq_none_iff,
            Option.map_eq_none_iff, acceptedField?_eq_none_iff registered,
            functionAlong?_eq_none_iff] at both
          obtain ⟨fields, functions⟩ := both
          have own := (acceptedFunction?_eq_none_iff registered).mp
            (functions other List.mem_cons_self)
          rintro (⟨field, inside, named, access⟩ | ⟨function, inside, named, access⟩)
          · exact fields field inside named access
          · exact own function inside named access
        · exact later other inRest tier sees
      · intro none
        refine ⟨fun tier sees => ?_, fun other member => none other (List.mem_cons_of_mem id member)⟩
        rw [memberAt?_shared (Access.shared_ne_localOnly sees), Option.or_eq_none_iff,
          Option.map_eq_none_iff, acceptedField?_eq_none_iff registered,
          functionAlong?_eq_none_iff]
        refine ⟨fun field inside named access => ?_, fun other member => ?_⟩
        · exact none id List.mem_cons_self tier sees (.inl ⟨field, inside, named, access⟩)
        · exact (acceptedFunction?_eq_none_iff registered).mpr fun function inside named access =>
            none other member tier sees (.inr ⟨function, inside, named, access⟩)

theorem findSome?_eq_of_only {α β : Type} {entries : List α} {question : α → Option β} {entry : α}
    {answer : β} (member : entry ∈ entries) (found : question entry = some answer)
    (only : ∀ other ∈ entries, other ≠ entry → question other = none) :
    entries.findSome? question = some answer := by
  induction entries with
  | nil => cases member
  | cons head rest ih =>
      rw [List.findSome?_cons]
      by_cases same : head = entry
      · rw [same, found]
      · rw [only head List.mem_cons_self same]
        exact ih ((List.mem_cons.mp member).resolve_left (Ne.symm same))
          fun other inRest => only other (List.mem_cons_of_mem head inRest)

/-- The nearest shared field of a name is found. -/
theorem fieldAlong?_eq_field (registered : world.Registered) {access : Access} {field : Field}
    (named : field.name = name) (sees : field.access ∈ access.shared) {members : List ClassId}
    {place : Nat} {id : ClassId} (sits : members[place]? = some id)
    (member : field ∈ (world.cls id).fields)
    (nearest : ∀ nearer < place, ∀ other, members[nearer]? = some other →
      ∀ field ∈ (world.cls other).fields, field.name = name → field.access ∉ access.shared)
    (start : Nat) :
    world.fieldAlong? access name start members = some (.field (start + place) field) := by
  induction members generalizing place start with
  | nil => cases sits
  | cons head rest ih =>
      rw [fieldAlong?]
      cases place with
      | zero =>
          cases sits
          have only : ∀ tier ∈ access.shared, tier ≠ field.access →
              (world.cls id).acceptedField? name (fun field => field.access = tier) = none := by
            intro tier _ other
            have found := registered.acceptedField?_eq member
            rw [named] at found
            unfold ClassDef.acceptedField? at found ⊢
            rw [Option.filter_eq_some_iff] at found
            rw [found.1, Option.filter_some]
            simp [other.symm]
          have own := registered.acceptedField?_eq member
          rw [named] at own
          rw [findSome?_eq_of_only sees (by rw [own]; rfl) fun tier sees other => by
            rw [only tier sees other]; rfl]
          rfl
      | succ place =>
          have none : (access.shared.findSome? fun tier =>
              ((world.cls head).acceptedField? name fun field => field.access = tier).map
                (Meaning.field start)) = Option.none := by
            refine List.findSome?_eq_none_iff.mpr fun tier sees => ?_
            rw [Option.map_eq_none_iff, acceptedField?_eq_none_iff registered]
            rintro other inside named rfl
            exact nearest 0 (Nat.zero_lt_succ place) head rfl other inside named sees
          have later := ih sits (fun nearer before other there => nearest (nearer + 1)
            (Nat.succ_lt_succ before) other there) (start + 1)
          rw [none, Option.none_or, later, Nat.add_right_comm, Nat.add_assoc]

end

/-! ## Looking from outside -/

/-- A view of the whole chain sees nothing of its own level where that declares no local member. -/
theorem member?_of_foreign {world : World} {name : String} {view : Viewpoint}
    (registered : world.Registered) (all : view.mode = .all) (chain : List ClassId)
    (foreign : view.access = .localOnly → ∀ own, chain[view.level]? = some own →
      ¬ world.DeclaresMember own .localOnly name) :
    world.member? chain view name = world.memberAlong? view.access name 0 chain := by
  unfold member?
  rw [all]
  dsimp only
  by_cases most : view.access = .localOnly
  · have own : world.memberAt? .localOnly name view.level (chain.drop view.level) = none := by
      cases rest : chain.drop view.level with
      | nil => rfl
      | cons own below =>
          have sits : chain[view.level]? = some own := by
            rw [← Nat.add_zero view.level, ← List.getElem?_drop, rest]
            rfl
          have nothing := foreign most own sits
          have fields : (world.cls own).acceptedField? name
              (fun field => field.access = .localOnly) = none :=
            (acceptedField?_eq_none_iff registered).mpr fun field inside named access =>
              nothing (.inl ⟨field, inside, named, access⟩)
          have functions : (world.cls own).acceptedFunction? name
              (fun function => function.access = .localOnly) = none :=
            (acceptedFunction?_eq_none_iff registered).mpr fun function inside named access =>
              nothing (.inr ⟨function, inside, named, access⟩)
          rw [memberAt?, fields]
          refine functionAlong?_eq_none_iff.mpr fun other member => ?_
          rw [if_pos rfl, List.mem_singleton] at member
          rw [member, functions]
    rw [if_pos most, own, Option.none_or]
  · rw [if_neg most, Option.none_or]

/-- Through the whole chain of a constructed instance, a name that the level looked from does not
declare for itself is that of the winner, for reading and writing alike, and falls back to the
roots exactly where no class of the chain declares a shared member of the name.  A function that
wins may be annotated; where it is not, and its instance lives, it is what a read gives.  A field
wins if no nearer class declares a field and no class at all a function of the name. -/
theorem finds_dominant {world : World} {id : InstanceId} {view : Viewpoint} {scope : Scope}
    {name : String} (viewing : Viewing world id view scope) (all : view.mode = .all)
    (distinct : viewing.start.DistinctHashes) (whole : viewing.start.Whole)
    (only : world.OnlyFields id) (trusts : world.Trusts name)
    (foreign : view.access = .localOnly → ∀ own,
      (viewing.start.ancestors (world.object id).cls)[view.level]? = some own →
      ¬ viewing.start.DeclaresMember own .localOnly name) :
    let chain := viewing.start.ancestors (world.object id).cls
    let winner := viewing.start.dominant? view.access name chain
    let answer := (winner.or (world.root? view.access name)).map (world.answerOf id)
    world.Reaches scope name answer ∧
    (world.Unannotated name → (world.object id).alive = true → world.Finds scope name answer) ∧
    (winner = none ↔ ∀ cls ∈ chain, ∀ tier ∈ view.access.shared,
      ¬ viewing.start.DeclaresMember cls tier name) ∧
    ∀ place cls, chain[place]? = some cls → ∀ field ∈ (viewing.start.cls cls).fields,
      field.name = name → field.access ∈ view.access.shared →
      (∀ nearer < place, ∀ other, chain[nearer]? = some other →
        ∀ field ∈ (viewing.start.cls other).fields, field.name = name →
          field.access ∉ view.access.shared) →
      (∀ other ∈ chain, ∀ function ∈ (viewing.start.cls other).functions, function.name = name →
        function.access ∉ view.access.shared) →
      winner = some (.field place field) := by
  have registered := viewing.valid_start.2.1.registered
  intro chain winner answer
  have wins : viewing.start.memberAlong? view.access name 0 chain = winner :=
    memberAlong?_eq_dominant? view.access chain
  have reaches : world.Reaches scope name answer := by
    have found := viewing.reaches (by rw [all]; decide) distinct whole only trusts
    rwa [viewing.meaning?_eq, member?_of_foreign registered all chain foreign, wins] at found
  refine ⟨reaches, fun unannotated living => ?_, ?_, ?_⟩
  · exact reaches.finds (viewing.settled distinct whole) unannotated
      fun _ _ => answerOf_living living
  · rw [← wins]
    exact memberAlong?_eq_none_iff registered view.access chain 0
  · intro place cls sits field member named sees nearest none
    have functions : ∀ other ∈ chain, ∀ tier ∈ view.access.shared,
        (viewing.start.cls other).acceptedFunction? name
          (fun function => function.access = tier) = Option.none := by
      intro other inside tier shared
      refine (acceptedFunction?_eq_none_iff registered).mpr ?_
      rintro function declared same rfl
      exact none other inside function declared same shared
    rw [← wins, memberAlong?_of_no_function view.access chain 0 functions,
      fieldAlong?_eq_field registered named sees sits member nearest 0, Nat.zero_add]

/-- The function of the last class hides the field of the nearer one, and a field that no function
hides is found at the end of the chain. -/
theorem finds_dominant_hidden :
    (∃ function : Function, function.name = "x" ∧ hiddenBelow.Finds hiddenScope "x"
      (some (.function function (some ⟨⟨0⟩, 2⟩)))) ∧
    hiddenBelow.Finds hiddenScope "y" (some (.slot ⟨9⟩)) := by
  have living : (hiddenBelow.object ⟨0⟩).alive = true := by decide +kernel
  have whole : (sampleStart hiddenSpecs).Whole := .of_none (by decide +kernel)
  constructor
  · have finds := (finds_dominant hiddenViewing rfl distinct_hidden whole onlyFields_hidden
      (trusts_hidden "x") nofun).2.1 (unannotated_hidden "x") living
    exact finds.function_of (by decide +kernel)
  · have finds := (finds_dominant hiddenViewing rfl distinct_hidden whole onlyFields_hidden
      (trusts_hidden "y") nofun).2.1 (unannotated_hidden "y") living
    exact finds.slot_of (by decide +kernel)

/-! ## A nearer field that loses -/

/-- The shared member of a name that the first class declaring one has. -/
def mostDerived? (world : World) (access : Access) (name : String) :
    Nat → List ClassId → Option Meaning
  | _, [] => none
  | place, id :: rest =>
      (access.shared.findSome? fun tier =>
        (((world.cls id).acceptedField? name fun field => field.access = tier).map
          (Meaning.field place)).or
        (((world.cls id).acceptedFunction? name fun function => function.access = tier).map
          (Meaning.function place))).or (world.mostDerived? access name (place + 1) rest)

/-- The field of the nearer class is not what is found. -/
theorem mostDerived_loses : ¬ ∀ (world : World) (id : InstanceId) (view : Viewpoint)
    (scope : Scope) (name : String) (viewing : Viewing world id view scope), view.mode = .all →
    viewing.start.DistinctHashes → viewing.start.Whole → (world.object id).alive = true →
    world.OnlyFields id → world.Trusts name → world.Unannotated name →
    (view.access = .localOnly → ∀ own,
      (viewing.start.ancestors (world.object id).cls)[view.level]? = some own →
      ¬ viewing.start.DeclaresMember own .localOnly name) →
    world.Finds scope name (((viewing.start.mostDerived? view.access name 0
      (viewing.start.ancestors (world.object id).cls)).or
        (world.root? view.access name)).map (world.answerOf id)) := by
  intro claim
  have found := claim _ _ _ _ "x" hiddenViewing rfl distinct_hidden (.of_none (by decide +kernel))
    (by decide +kernel) onlyFields_hidden (trusts_hidden "x") (unannotated_hidden "x") nofun
  have slot : hiddenBelow.Finds hiddenScope "x" (some (.slot ⟨6⟩)) :=
    found.slot_of (by decide +kernel)
  cases slot with
  | slot there isMutable read assign =>
      have same := congrArg (fun run => run.1.result?) (read 9)
      revert same
      decide +kernel

end World

end ScriptObjects

import ScriptObjects.Proofs.Definitions

/-!
# Questions to the hierarchy

The base relation goes from a class to the registered class that it extends.  Every
question to the hierarchy is answered by a walk along it, with a budget and a set of
identities that stop walks on a graph that returns.  In the states of a session, with
class names of distinct identities, nothing ever stops a walk before its end: what it
meets is what lies so many base steps away, each class once.

So a class extends exactly what is reached from it in one or more base steps, and a
member is found exactly on the class with the fewest base steps that declares an
accepted one.
-/

namespace ScriptObjects

set_option autoImplicit false

open Relation (TransGen)
open Exec

namespace World

/-! ## Base steps -/

/-- The second class is the base of the first, as far as it is registered. -/
def HasBase (world : World) (derived base : ClassId) : Prop := world.base? derived = some base

/-- The class that lies so many base steps away. -/
def above? (world : World) (id : ClassId) : Nat → Option ClassId
  | 0 => some id
  | steps + 1 => (world.base? id).bind fun base => world.above? base steps

theorem above?_succ_of_base {world : World} {id base : ClassId} (next : world.base? id = some base)
    (steps : Nat) : world.above? id (steps + 1) = world.above? base steps := by
  rw [above?, next, Option.bind_some]

/-- What is reached in one or more base steps lies a positive number of steps away. -/
theorem transGen_hasBase_iff {world : World} {id other : ClassId} :
    TransGen world.HasBase id other ↔ ∃ steps, world.above? id (steps + 1) = some other := by
  constructor
  · intro reaches
    induction reaches using TransGen.head_induction_on with
    | single next => exact ⟨0, above?_succ_of_base next 0⟩
    | head next _ ih =>
        obtain ⟨steps, there⟩ := ih
        exact ⟨steps + 1, (above?_succ_of_base next _).trans there⟩
  · rintro ⟨steps, there⟩
    induction steps generalizing id with
    | zero =>
        obtain ⟨base, next, same⟩ := Option.bind_eq_some_iff.mp there
        cases same
        exact .single next
    | succ steps ih =>
        obtain ⟨base, next, there⟩ := Option.bind_eq_some_iff.mp there
        exact .head next (ih there)

/-- A chain has at each place what lies so many base steps away. -/
theorem Chain.getElem?_eq {world : World} {id : ClassId} {chain : List ClassId}
    (chains : world.Chain id chain) (steps : Nat) : chain[steps]? = world.above? id steps := by
  induction chains generalizing steps with
  | last base =>
      cases steps with
      | zero => rfl
      | succ steps => rw [above?, base]; rfl
  | step next _ ih =>
      cases steps with
      | zero => rfl
      | succ steps => rw [above?_succ_of_base next, ← ih steps, List.getElem?_cons_succ]

/-! ## Walks -/

namespace Hierarchical

variable {world : World} (graph : world.Hierarchical) {id : ClassId}
  (inside : id.index < world.classes.size)
include graph inside

theorem ancestors_cons :
    world.ancestors id = id :: (world.base? id).elim [] world.ancestors := by
  have chains := graph.chain inside
  revert chains
  generalize same : world.ancestors id = chain
  intro chains
  cases chains with
  | last base => rw [base, Option.elim_none]
  | step next rest => rw [next, Option.elim_some, graph.ancestors_eq rest (graph.inside _ _ next)]

theorem getElem?_ancestors (steps : Nat) :
    (world.ancestors id)[steps]? = world.above? id steps :=
  (graph.chain inside).getElem?_eq steps

theorem properAncestors_eq : world.properAncestors id = (world.ancestors id).tail :=
  (graph.chain inside).properAncestors_eq ((graph.chain inside).length_le graph.inside inside)

theorem mem_properAncestors_iff {other : ClassId} :
    other ∈ world.properAncestors id ↔ TransGen world.HasBase id other := by
  rw [graph.properAncestors_eq inside, transGen_hasBase_iff, List.mem_iff_getElem?]
  refine exists_congr fun steps => ?_
  rw [List.getElem?_tail, graph.getElem?_ancestors inside]

theorem doesExtend_iff {name : String} :
    world.doesExtend id name = true ↔
      ∃ other, TransGen world.HasBase id other ∧ (world.cls other).name = name := by
  unfold doesExtend
  rw [List.any_eq_true]
  refine exists_congr fun other => ?_
  rw [graph.mem_properAncestors_iff inside, decide_eq_true_eq]

omit inside in
/-- What is reached by base steps is registered. -/
theorem inside_of_reached {other : ClassId} (reached : TransGen world.HasBase id other) :
    other.index < world.classes.size := by
  obtain ⟨last, _, next⟩ := TransGen.tail'_iff.mp reached
  exact graph.inside last other next

theorem not_transGen_self : ¬ TransGen world.HasBase id id := by
  intro returns
  have again := (graph.mem_properAncestors_iff inside).mpr returns
  rw [graph.properAncestors_eq inside] at again
  have nodup := (graph.chain inside).nodup
  rw [graph.ancestors_cons inside] at again nodup
  exact (List.nodup_cons.mp nodup).1 again

/-- The nearest answer is that of the class with the fewest base steps that has one. -/
theorem nearest?_eq_some_iff {α : Type} {question : ClassDef → Option α} {answer : α} :
    world.nearest? id question = some answer ↔
      ∃ steps owner, world.above? id steps = some owner ∧
        question (world.cls owner) = some answer ∧
        ∀ fewer < steps, ∀ nearer, world.above? id fewer = some nearer →
          question (world.cls nearer) = none := by
  have along := graph.getElem?_ancestors inside
  unfold nearest?
  rw [List.findSome?_eq_some_iff]
  constructor
  · rintro ⟨before, owner, after, split, found, nothing⟩
    have place : (world.ancestors id)[before.length]? = some owner := by
      rw [split, List.getElem?_append_right (Nat.le_refl _), Nat.sub_self]
      rfl
    refine ⟨before.length, owner, (along _).symm.trans place, found, fun fewer less nearer met => ?_⟩
    rw [← along, split, List.getElem?_append_left less] at met
    exact nothing nearer (List.mem_of_getElem? met)
  · rintro ⟨steps, owner, met, found, nothing⟩
    rw [← along] at met
    obtain ⟨bound, there⟩ := List.getElem?_eq_some_iff.mp met
    refine ⟨(world.ancestors id).take steps, owner, (world.ancestors id).drop (steps + 1), ?_, found,
      fun nearer member => ?_⟩
    · rw [← there, List.getElem_cons_drop, List.take_append_drop]
    · obtain ⟨fewer, met⟩ := List.mem_iff_getElem?.mp member
      have less : fewer < steps := by
        apply Nat.lt_of_not_le
        intro beyond
        rw [List.getElem?_take, if_neg (Nat.not_lt_of_le beyond)] at met
        cases met
      rw [List.getElem?_take_of_lt less, along] at met
      exact nothing fewer less nearer met

theorem nearest?_eq_none_iff {α : Type} {question : ClassDef → Option α} :
    world.nearest? id question = none ↔
      ∀ steps owner, world.above? id steps = some owner → question (world.cls owner) = none := by
  unfold nearest?
  rw [List.findSome?_eq_none_iff]
  constructor
  · intro nothing steps owner met
    rw [← graph.getElem?_ancestors inside] at met
    exact nothing owner (List.mem_of_getElem? met)
  · intro nothing owner member
    obtain ⟨steps, met⟩ := List.mem_iff_getElem?.mp member
    rw [graph.getElem?_ancestors inside] at met
    exact nothing steps owner met

end Hierarchical

/-! ## Members -/

theorem find?_key_eq_some_iff {α : Type} {key : α → String} {entries : List α}
    (distinct : (entries.map key).Nodup) {name : String} {entry : α} :
    entries.find? (key · = name) = some entry ↔ entry ∈ entries ∧ key entry = name := by
  constructor
  · exact fun found => ⟨List.mem_of_find?_eq_some found, by simpa using List.find?_some found⟩
  · rintro ⟨member, rfl⟩
    exact find?_of_distinct distinct member

theorem find?_filter_eq_some_iff {α : Type} {key : α → String} {entries : List α}
    (distinct : (entries.map key).Nodup) {name : String} {accepts : α → Bool} {entry : α} :
    (entries.find? (key · = name)).filter accepts = some entry ↔
      entry ∈ entries ∧ key entry = name ∧ accepts entry = true := by
  rw [Option.filter_eq_some_iff, find?_key_eq_some_iff distinct, and_assoc]

theorem Registered.acceptedFunction?_eq_some_iff {world : World} (registered : world.Registered)
    {id : ClassId} {name : String} {accepts : Function → Bool} {function : Function} :
    (world.cls id).acceptedFunction? name accepts = some function ↔
      function ∈ (world.cls id).functions ∧ function.name = name ∧ accepts function = true :=
  find?_filter_eq_some_iff (List.nodup_append.mp (registered.members id)).2.1

theorem Registered.acceptedField?_eq_some_iff {world : World} (registered : world.Registered)
    {id : ClassId} {name : String} {accepts : Field → Bool} {field : Field} :
    (world.cls id).acceptedField? name accepts = some field ↔
      field ∈ (world.cls id).fields ∧ field.name = name ∧ accepts field = true :=
  find?_filter_eq_some_iff (List.nodup_append.mp (registered.members id)).1

/-- A member is declared on the class with the fewest base steps that declares one like it. -/
def DeclaredNearest {α : Type} (world : World) (id : ClassId) (like : ClassDef → α → Prop)
    (member : α) : Prop :=
  ∃ steps owner, world.above? id steps = some owner ∧ like (world.cls owner) member ∧
    ∀ fewer < steps, ∀ nearer, world.above? id fewer = some nearer →
      ∀ other, ¬ like (world.cls nearer) other

/-- No class at any number of base steps declares a member like this. -/
def DeclaredNowhere {α : Type} (world : World) (id : ClassId) (like : ClassDef → α → Prop) : Prop :=
  ∀ steps owner, world.above? id steps = some owner → ∀ member, ¬ like (world.cls owner) member

section

variable {world : World} (graph : world.Hierarchical) {id : ClassId}
  (inside : id.index < world.classes.size) {α : Type} {question : ClassDef → Option α}
  {like : ClassDef → α → Prop}
  (means : ∀ owner member, question (world.cls owner) = some member ↔ like (world.cls owner) member)
include graph inside means

theorem nearest?_eq_some_iff_declared {member : α} :
    world.nearest? id question = some member ↔ world.DeclaredNearest id like member := by
  rw [graph.nearest?_eq_some_iff inside]
  simp only [DeclaredNearest, means, Option.eq_none_iff_forall_ne_some, ne_eq]

theorem nearest?_eq_none_iff_declared :
    world.nearest? id question = none ↔ world.DeclaredNowhere id like := by
  rw [graph.nearest?_eq_none_iff inside]
  simp only [DeclaredNowhere, means, Option.eq_none_iff_forall_ne_some, ne_eq]

end

/-! ## All questions -/

/-- What is asked about a class agrees with the base relation. -/
structure AgreesWithBases (world : World) (id : ClassId) : Prop where
  ancestors : world.ancestors id = id :: (world.base? id).elim [] world.ancestors
  nodup : (world.ancestors id).Nodup
  /-- No walk is cut short: it meets whatever lies any number of base steps away. -/
  whole : ∀ steps, (world.ancestors id)[steps]? = world.above? id steps
  proper : world.properAncestors id = (world.ancestors id).tail
  depth : ∀ steps, (world.above? id steps).isSome ↔ steps < world.depth id
  doesExtend : ∀ name, (Session.doesExtend id name world).1 = .done true ↔
    ∃ other, TransGen world.HasBase id other ∧ (world.cls other).name = name
  irreflexive : world.doesExtend id (world.cls id).name = false
  asymmetric : ∀ other ∈ world.classes.handles,
    world.doesExtend id (world.cls other).name = true →
    world.doesExtend other (world.cls id).name = false
  transitive : ∀ middle ∈ world.classes.handles, ∀ name,
    world.doesExtend id (world.cls middle).name = true → world.doesExtend middle name = true →
    world.doesExtend id name = true
  function : ∀ name accepts function,
    (Exec.findFunction? id name false accepts world).1 = .done (some function) ↔
      world.DeclaredNearest id (fun cls function => function ∈ cls.functions ∧
        function.name = name ∧ accepts function = true) function
  noFunction : ∀ name accepts,
    (Exec.findFunction? id name false accepts world).1 = .done none ↔
      world.DeclaredNowhere id fun cls function => function ∈ cls.functions ∧
        function.name = name ∧ accepts function = true
  field : ∀ name accepts field,
    (Exec.findField? id name false accepts world).1 = .done (some field) ↔
      world.DeclaredNearest id (fun cls field => field ∈ cls.fields ∧
        field.name = name ∧ accepts field = true) field
  noField : ∀ name accepts,
    (Exec.findField? id name false accepts world).1 = .done none ↔
      world.DeclaredNowhere id fun cls field => field ∈ cls.fields ∧
        field.name = name ∧ accepts field = true

theorem done_inj {α : Type} {one other : α} : Outcome.done one = .done other ↔ one = other :=
  ⟨fun same => by cases same; rfl, congrArg _⟩

/-- In every state of a session whose class names have distinct identities, each question about a
registered class has the answer that the base relation gives. -/
theorem hierarchy_agrees {world : World} (reachable : Reachable world)
    (distinct : world.DistinctHashes) {id : ClassId} (known : id ∈ world.classes.handles) :
    world.AgreesWithBases id := by
  have registered := reachable.sound.2.registered
  have graph := registered.hierarchical distinct
  have inside := (Heap.mem_handles _ _).mp known
  have extends_ : ∀ {first second : ClassId}, first.index < world.classes.size →
      second.index < world.classes.size →
      (world.doesExtend first (world.cls second).name = true ↔
        TransGen world.HasBase first second) := by
    intro first second one two
    rw [graph.doesExtend_iff one]
    constructor
    · rintro ⟨other, reached, same⟩
      exact registered.names other second (graph.inside_of_reached reached) two same ▸ reached
    · exact fun reached => ⟨second, reached, rfl⟩
  exact {
    ancestors := graph.ancestors_cons inside
    nodup := (graph.chain inside).nodup
    whole := graph.getElem?_ancestors inside
    proper := graph.properAncestors_eq inside
    depth := fun steps => by
      rw [← graph.getElem?_ancestors inside, isSome_getElem?]
      exact Iff.rfl
    doesExtend := fun name => done_inj.trans (graph.doesExtend_iff inside)
    irreflexive := by
      rw [← Bool.not_eq_true, extends_ inside inside]
      exact graph.not_transGen_self inside
    asymmetric := fun other member reached => by
      have there := (Heap.mem_handles _ _).mp member
      rw [extends_ inside there] at reached
      rw [← Bool.not_eq_true, extends_ there inside]
      exact fun back => graph.not_transGen_self inside (reached.trans back)
    transitive := fun middle member name reached further => by
      have there := (Heap.mem_handles _ _).mp member
      rw [extends_ inside there] at reached
      obtain ⟨last, onward, named⟩ := (graph.doesExtend_iff there).mp further
      exact (graph.doesExtend_iff inside).mpr ⟨last, reached.trans onward, named⟩
    function := fun name accepts function => done_inj.trans
      (nearest?_eq_some_iff_declared graph inside fun _ _ =>
        registered.acceptedFunction?_eq_some_iff)
    noFunction := fun name accepts => done_inj.trans
      (nearest?_eq_none_iff_declared graph inside fun _ _ =>
        registered.acceptedFunction?_eq_some_iff)
    field := fun name accepts field => done_inj.trans
      (nearest?_eq_some_iff_declared graph inside fun _ _ => registered.acceptedField?_eq_some_iff)
    noField := fun name accepts => done_inj.trans
      (nearest?_eq_none_iff_declared graph inside fun _ _ =>
        registered.acceptedField?_eq_some_iff) }

/-- A chain that is registered from its end: two classes name bases that do not exist yet, and two
of the three declare a function of one name. -/
def backwardSpecs : List ClassSpec :=
  [bareClass "C" (some "B") [] [],
   bareClass "B" (some "A") [] [bareFunction "f" (.int 2)],
   bareClass "A" none [bareField "x" none] [bareFunction "f" (.int 1)]]

theorem hierarchy_agrees_backward : (defining default backwardSpecs).AgreesWithBases ⟨0⟩ :=
  hierarchy_agrees (reachable_defining default backwardSpecs)
    (distinctHashes_of_nodup (by decide +kernel)) (by decide +kernel)

end World

end ScriptObjects

import Mathlib.Data.List.Forall2
import ScriptObjects.Proofs.Coherence

/-!
# The order of registration

Two new assemblies get the same declarations in different orders.  Every single check sees
another registry, and references are remembered at other moments; but one of them accepts
everything and is valid at the end exactly if the other does, because both then hold
coherent declarations and nothing else.

The handles of the classes differ.  A class of the one is the twin of a class of the other
when both are spelled the same and have the same identity.  Whatever is asked of one of the
assemblies by name, or about one of its classes, has as its answer the twin of what the
other answers.
-/

namespace ScriptObjects

set_option autoImplicit false

open Exec

/-! ## Answers that correspond -/

theorem findSome?_rel {α β γ δ : Type} {rel : α → β → Prop} {answers : γ → δ → Prop}
    {first : α → Option γ} {second : β → Option δ}
    (each : ∀ x y, rel x y → Option.Rel answers (first x) (second y)) {xs : List α} {ys : List β}
    (related : List.Forall₂ rel xs ys) :
    Option.Rel answers (xs.findSome? first) (ys.findSome? second) := by
  induction related with
  | nil => exact .none
  | @cons x y xs ys head _ ih =>
      rw [List.findSome?_cons, List.findSome?_cons]
      have here := each x y head
      generalize first x = found at here
      generalize second y = also at here
      cases here with
      | some same => exact .some same
      | none => exact ih

theorem find?_rel {α β : Type} {rel : α → β → Prop} {first : α → Bool} {second : β → Bool}
    (each : ∀ x y, rel x y → first x = second y) {xs : List α} {ys : List β}
    (related : List.Forall₂ rel xs ys) : Option.Rel rel (xs.find? first) (ys.find? second) := by
  induction related with
  | nil => exact .none
  | @cons x y xs ys head _ ih =>
      rw [List.find?_cons, List.find?_cons, each x y head]
      split
      · exact .some head
      · exact ih

theorem filter_rel {α β : Type} {rel : α → β → Prop} {first : α → Bool} {second : β → Bool}
    (each : ∀ x y, rel x y → first x = second y) {found : Option α} {also : Option β}
    (related : Option.Rel rel found also) :
    Option.Rel rel (found.filter first) (also.filter second) := by
  cases related with
  | none => exact .none
  | @some x y same =>
      rw [Option.filter_some, Option.filter_some, each x y same]
      split
      · exact .some same
      · exact .none

theorem map_rel {α β γ δ : Type} {rel : α → β → Prop} {answers : γ → δ → Prop} {first : α → γ}
    {second : β → δ} (each : ∀ x y, rel x y → answers (first x) (second y)) {found : Option α}
    {also : Option β} (related : Option.Rel rel found also) :
    Option.Rel answers (found.map first) (also.map second) := by
  cases related with
  | none => exact .none
  | some same => exact .some (each _ _ same)

/-- Lists that become the same list correspond entry by entry. -/
theorem forall₂_of_map_eq {α β γ : Type} {first : α → γ} {second : β → γ} {xs : List α}
    {ys : List β} (same : xs.map first = ys.map second) :
    List.Forall₂ (fun x y => first x = second y) xs ys := by
  have equal : List.Forall₂ (· = ·) (xs.map first) (ys.map second) := by
    rw [List.forall₂_eq_eq_eq]
    exact same
  rwa [List.forall₂_map_left_iff, List.forall₂_map_right_iff] at equal

theorem map_eq_of_forall₂ {α β γ : Type} {first : α → γ} {second : β → γ} {xs : List α}
    {ys : List β} (related : List.Forall₂ (fun x y => first x = second y) xs ys) :
    xs.map first = ys.map second := by
  rw [← List.forall₂_eq_eq_eq, List.forall₂_map_left_iff, List.forall₂_map_right_iff]
  exact related

namespace World

/-! ## Twins -/

/-- Two classes of two states are one and the same declaration, with the same identity. -/
structure Twins (one two : World) (id other : ClassId) : Prop where
  known : id ∈ one.classes.handles
  also : other ∈ two.classes.handles
  hash : (one.cls id).hash = (two.cls other).hash
  spelling : one.spelling id = two.spelling other

namespace Twins

variable {one two : World} {id other : ClassId}

theorem name (twins : Twins one two id other) : (one.cls id).name = (two.cls other).name :=
  congrArg ClassSpec.name twins.spelling

end Twins

/-- Two functions of two states are spelled the same. -/
def SameFunction (one two : World) (function other : Function) : Prop :=
  FunctionDecl.spelled one.classRefs function = FunctionDecl.spelled two.classRefs other

/-- Two fields of two states are spelled the same. -/
def SameField (one two : World) (field other : Field) : Prop :=
  FieldDecl.spelled one.classRefs field = FieldDecl.spelled two.classRefs other

theorem SameFunction.name {one two : World} {function other : Function}
    (same : SameFunction one two function other) : function.name = other.name :=
  congrArg (fun spec : FunctionDecl String => spec.name) same

theorem SameFunction.access {one two : World} {function other : Function}
    (same : SameFunction one two function other) : function.access = other.access :=
  congrArg (fun spec : FunctionDecl String => spec.access) same

theorem SameFunction.owner {one two : World} {function other : Function}
    (same : SameFunction one two function other) : function.owner = other.owner :=
  congrArg (fun spec : FunctionDecl String => spec.owner) same

theorem SameField.name {one two : World} {field other : Field}
    (same : SameField one two field other) : field.name = other.name :=
  congrArg (fun spec : FieldDecl String => spec.name) same

/-- Two links of meta-functions lead to the same function of the same class. -/
structure SameLink (one two : World) (link other : MetaLink) : Prop where
  key : link.key = other.key
  owner : link.owner = other.owner
  access : link.access = other.access
  function : SameFunction one two link.function other.function

/-- A question about one state and one about another have answers that correspond. -/
def Answered {α β : Type} (one two : World) (correspond : α → β → Prop) (question : Exec α)
    (other : Exec β) : Prop :=
  ∃ answer also, (question one).1 = .done answer ∧ (other two).1 = .done also ∧
    correspond answer also

/-- Every question has corresponding answers in two states.  A predicate on members can only look
at what is spelled out, as the handles of two states have nothing in common. -/
structure Agrees (one two : World) : Prop where
  class? : ∀ name, Answered one two (Option.Rel (Twins one two)) (Session.class? name)
    (Session.class? name)
  classForHost? : ∀ host, Answered one two (Option.Rel (Twins one two))
    (Session.classForHost? host) (Session.classForHost? host)
  function? : ∀ name, Answered one two (Option.Rel (SameFunction one two))
    (Session.function? name) (Session.function? name)
  base? : ∀ id other, Twins one two id other →
    Answered one two (Option.Rel (Twins one two)) (Session.base? id) (Session.base? other)
  isBaseResolved? : ∀ id other, Twins one two id other →
    Answered one two (· = ·) (Session.isBaseResolved? id) (Session.isBaseResolved? other)
  ancestors : ∀ id other, Twins one two id other →
    Answered one two (List.Forall₂ (Twins one two)) (Exec.ancestors id) (Exec.ancestors other)
  doesExtend : ∀ id other, Twins one two id other → ∀ name,
    Answered one two (· = ·) (Session.doesExtend id name) (Session.doesExtend other name)
  findFunction? : ∀ id other, Twins one two id other → ∀ name declaredOnly,
    ∀ accepts : FunctionDecl String → Bool, Answered one two (Option.Rel (SameFunction one two))
      (Exec.findFunction? id name declaredOnly
        fun function => accepts (FunctionDecl.spelled one.classRefs function))
      (Exec.findFunction? other name declaredOnly
        fun function => accepts (FunctionDecl.spelled two.classRefs function))
  findField? : ∀ id other, Twins one two id other → ∀ name declaredOnly,
    ∀ accepts : FieldDecl String → Bool, Answered one two (Option.Rel (SameField one two))
      (Exec.findField? id name declaredOnly
        fun field => accepts (FieldDecl.spelled one.classRefs field))
      (Exec.findField? other name declaredOnly
        fun field => accepts (FieldDecl.spelled two.classRefs field))
  metaTable : ∀ id other, Twins one two id other →
    Answered one two (fun table also => List.Forall₂ (SameLink one two) table.links also.links)
      (Session.metaTable id) (Session.metaTable other)

/-! ## Two registries with the same declarations -/

/-- Two states have the same declarations on record, perhaps in another order. -/
structure Rearranged (one two : World) : Prop where
  /-- What is on record in both. -/
  records : ∃ classes otherClasses functions otherFunctions,
    one.Records classes functions ∧ two.Records otherClasses otherFunctions ∧
      classes.Perm otherClasses ∧ functions.Perm otherFunctions

namespace Rearranged

variable {one two : World}

theorem symm (rearranged : Rearranged one two) : Rearranged two one := by
  obtain ⟨classes, otherClasses, functions, otherFunctions, first, second, perm, also⟩ :=
    rearranged.records
  exact ⟨otherClasses, classes, otherFunctions, functions, second, first, perm.symm, also.symm⟩

section

variable (rearranged : Rearranged one two)
include rearranged

theorem reachable : Reachable one := by
  obtain ⟨_, _, _, _, first, _⟩ := rearranged.records
  exact first.reachable

theorem alive : one.alive = true := rearranged.reachable.sound.1

theorem registered : one.Registered := rearranged.reachable.sound.2.registered

/-- Every class has its twin. -/
theorem twin {id : ClassId} (known : id ∈ one.classes.handles) :
    ∃ other, Twins one two id other := by
  obtain ⟨classes, otherClasses, _, _, first, second, perm, _⟩ := rearranged.records
  obtain ⟨spec, member, same⟩ := first.specified known
  obtain ⟨other, also, equal⟩ := second.registered (perm.mem_iff.mp member)
  have spelling : one.spelling id = two.spelling other := same.trans equal.symm
  have name : (one.cls id).name = (two.cls other).name := congrArg ClassSpec.name spelling
  refine ⟨other, known, also, ?_, spelling⟩
  rw [rearranged.registered.hashes id ((Heap.mem_handles _ _).mp known),
    rearranged.symm.registered.hashes other ((Heap.mem_handles _ _).mp also), name]

/-- What is found by something that is spelled out has its twin. -/
theorem rel_of_asks (asks : ClassSpec → Prop) {found also : Option ClassId}
    (first : ∀ id, found = some id ↔ id ∈ one.classes.handles ∧ asks (one.spelling id))
    (second : ∀ id, also = some id ↔ id ∈ two.classes.handles ∧ asks (two.spelling id)) :
    Option.Rel (Twins one two) found also := by
  cases found with
  | some id =>
      obtain ⟨known, asked⟩ := (first id).mp rfl
      obtain ⟨other, twins⟩ := rearranged.twin known
      rw [(second other).mpr ⟨twins.also, twins.spelling ▸ asked⟩]
      exact .some twins
  | none =>
      cases also with
      | none => exact .none
      | some other =>
          obtain ⟨known, asked⟩ := (second other).mp rfl
          obtain ⟨id, twins⟩ := rearranged.symm.twin known
          cases (first id).mpr ⟨twins.also, twins.spelling ▸ asked⟩

theorem findClass? (name : String) :
    Option.Rel (Twins one two) (one.findClass? name) (two.findClass? name) :=
  rearranged.rel_of_asks (fun spec => spec.name = name)
    (fun _ => rearranged.reachable.findClass?_iff)
    fun _ => rearranged.symm.reachable.findClass?_iff

theorem classForHost? (host : HostType) :
    Option.Rel (Twins one two) (one.classForHost? host) (two.classForHost? host) :=
  rearranged.rel_of_asks (fun spec => spec.described = some host)
    (fun _ => rearranged.reachable.classForHost?_iff)
    fun _ => rearranged.symm.reachable.classForHost?_iff

theorem size_classes : one.classes.size = two.classes.size := by
  obtain ⟨classes, otherClasses, _, _, first, second, perm, _⟩ := rearranged.records
  have length : ∀ {world : World} {specs : List ClassSpec} {functions : List (FunctionDecl String)},
      world.Records specs functions → world.classes.size = specs.length := by
    intro world specs functions records
    have same := congrArg List.length records.classes
    rw [List.length_map, List.length_map] at same
    rw [← same]
    simp [Heap.handles, Heap.size]
  rw [length first, length second, perm.length_eq]

theorem base? {id other : ClassId} (twins : Twins one two id other) :
    Option.Rel (Twins one two) (one.base? id) (two.base? other) := by
  have based : one.baseName? id = two.baseName? other := congrArg ClassSpec.base twins.spelling
  rw [rearranged.registered.base?_eq rearranged.alive,
    rearranged.symm.registered.base?_eq rearranged.symm.alive, based]
  cases two.baseName? other with
  | none => exact .none
  | some name => exact rearranged.findClass? name

/-- Walks from twins meet twins; they stop at the same place. -/
theorem walk (fuel : Nat) (seen : List TypeHash) {start other : Option ClassId}
    (twins : Option.Rel (Twins one two) start other) :
    List.Forall₂ (Twins one two) (one.walk fuel seen start) (two.walk fuel seen other) := by
  induction fuel generalizing seen start other with
  | zero => exact .nil
  | succ fuel ih =>
      cases twins with
      | none => exact .nil
      | @some id other twins =>
          rw [World.walk, World.walk, twins.hash]
          split
          · exact .nil
          · exact .cons twins (ih _ (rearranged.base? twins))

theorem ancestors {id other : ClassId} (twins : Twins one two id other) :
    List.Forall₂ (Twins one two) (one.ancestors id) (two.ancestors other) := by
  unfold World.ancestors
  rw [rearranged.size_classes]
  exact rearranged.walk _ _ (.some twins)

theorem doesExtend {id other : ClassId} (twins : Twins one two id other) (name : String) :
    one.doesExtend id name = two.doesExtend other name := by
  have proper : List.Forall₂ (Twins one two) (one.properAncestors id) (two.properAncestors other) := by
    unfold World.properAncestors
    rw [rearranged.size_classes, twins.hash]
    exact rearranged.walk _ _ (rearranged.base? twins)
  have names := map_eq_of_forall₂ (proper.imp fun _ _ twins => twins.name)
  have asked : ∀ (world : World) (id : ClassId), world.doesExtend id name =
      ((world.properAncestors id).map fun id => (world.cls id).name).any (· = name) := by
    intro world id
    rw [List.any_map]
    rfl
  rw [asked, asked, names]

theorem nearest? {α β : Type} {answers : α → β → Prop} {question : ClassDef → Option α}
    {also : ClassDef → Option β} {id other : ClassId} (twins : Twins one two id other)
    (each : ∀ id other, Twins one two id other →
      Option.Rel answers (question (one.cls id)) (also (two.cls other))) :
    Option.Rel answers (one.nearest? id question) (two.nearest? other also) :=
  findSome?_rel each (rearranged.ancestors twins)

/-! ## Members -/

omit rearranged in
theorem acceptedFunction? {id other : ClassId} (twins : Twins one two id other) (name : String)
    (accepts : FunctionDecl String → Bool) :
    Option.Rel (SameFunction one two)
      ((one.cls id).acceptedFunction? name
        fun function => accepts (FunctionDecl.spelled one.classRefs function))
      ((two.cls other).acceptedFunction? name
        fun function => accepts (FunctionDecl.spelled two.classRefs function)) := by
  have functions : List.Forall₂ (SameFunction one two) (one.cls id).functions
      (two.cls other).functions :=
    forall₂_of_map_eq (congrArg ClassSpec.functions twins.spelling)
  have named : ∀ function other, SameFunction one two function other →
      decide (function.name = name) = decide (other.name = name) := fun _ _ same => by rw [same.name]
  exact filter_rel (fun _ _ same => congrArg accepts same) (find?_rel named functions)

omit rearranged in
theorem acceptedField? {id other : ClassId} (twins : Twins one two id other) (name : String)
    (accepts : FieldDecl String → Bool) :
    Option.Rel (SameField one two)
      ((one.cls id).acceptedField? name
        fun field => accepts (FieldDecl.spelled one.classRefs field))
      ((two.cls other).acceptedField? name
        fun field => accepts (FieldDecl.spelled two.classRefs field)) := by
  have fields : List.Forall₂ (SameField one two) (one.cls id).fields (two.cls other).fields :=
    forall₂_of_map_eq (congrArg ClassSpec.fields twins.spelling)
  have named : ∀ field other, SameField one two field other →
      decide (field.name = name) = decide (other.name = name) := fun _ _ same => by rw [same.name]
  exact filter_rel (fun _ _ same => congrArg accepts same) (find?_rel named fields)

theorem metaLink? {id other : ClassId} (twins : Twins one two id other) (key : MetaKey) :
    Option.Rel (SameLink one two) (one.metaLink? id key) (two.metaLink? other key) := by
  have nearest := rearranged.nearest? twins fun _ _ twins =>
    acceptedFunction? twins key.methodName fun _ => true
  refine map_rel (fun function also same => ?_) nearest
  exact ⟨rfl, by rw [same.owner, twins.name, twins.hash], same.access, same⟩

theorem buildMetaTable {id other : ClassId} (twins : Twins one two id other) :
    List.Forall₂ (SameLink one two) (one.buildMetaTable id).links
      (two.buildMetaTable other).links := by
  have mode : (one.cls id).mode = (two.cls other).mode := congrArg ClassSpec.mode twins.spelling
  have keys : one.metaKeys id = two.metaKeys other := by
    unfold World.metaKeys
    rw [mode]
  unfold World.buildMetaTable
  rw [keys]
  refine List.rel_filterMap (R := Eq) ?_ (List.forall₂_same.mpr fun _ _ => rfl)
  rintro key _ rfl
  exact rearranged.metaLink? twins key

theorem metaTable {id other : ClassId} (twins : Twins one two id other) :
    List.Forall₂ (SameLink one two) (one.metaTable id).links (two.metaTable other).links := by
  obtain ⟨_, _, _, _, first, second, _⟩ := rearranged.records
  unfold World.metaTable
  rw [first.tables, second.tables]
  exact rearranged.buildMetaTable twins

/-- A function of the assembly has one that is spelled the same. -/
theorem sameFunction {function : Function} (declared : function ∈ one.functions) :
    ∃ other ∈ two.functions, SameFunction one two function other := by
  obtain ⟨_, _, functions, otherFunctions, first, second, _, also⟩ := rearranged.records
  have member := List.mem_map_of_mem (f := FunctionDecl.spelled one.classRefs) declared
  rw [first.functions, (also.map _).mem_iff, ← second.functions] at member
  obtain ⟨other, there, same⟩ := List.mem_map.mp member
  exact ⟨other, there, same.symm⟩

theorem functions_nodup : (one.functions.map FunctionDecl.name).Nodup := by
  obtain ⟨_, _, _, _, first, _⟩ := rearranged.records
  rw [first.functionNames_eq]
  exact first.distinct

theorem function? (name : String) :
    Option.Rel (SameFunction one two) (one.function? name) (two.function? name) := by
  have finds : ∀ {one two : World}, Rearranged one two → ∀ {function : Function},
      one.function? name = some function →
        ∃ other, two.function? name = some other ∧ SameFunction one two function other := by
    intro one two rearranged function found
    obtain ⟨declared, named⟩ := (find?_key_eq_some_iff rearranged.functions_nodup).mp found
    obtain ⟨other, there, same⟩ := rearranged.sameFunction declared
    have also : other.name = name := same.name.symm.trans named
    exact ⟨other, (find?_key_eq_some_iff rearranged.symm.functions_nodup).mpr ⟨there, also⟩, same⟩
  cases found : one.function? name with
  | some function =>
      obtain ⟨other, there, same⟩ := finds rearranged found
      rw [there]
      exact .some same
  | none =>
      cases there : two.function? name with
      | none => exact .none
      | some other =>
          obtain ⟨function, impossible, _⟩ := finds rearranged.symm there
          rw [found] at impossible
          cases impossible

end

/-! ## All questions -/

theorem answered {α β : Type} {correspond : α → β → Prop} {question : Exec α} {other : Exec β}
    {answer : α} {also : β} (first : (question one).1 = .done answer)
    (second : (other two).1 = .done also) (corresponds : correspond answer also) :
    Answered one two correspond question other :=
  ⟨answer, also, first, second, corresponds⟩

/-- Registries with the same declarations, all of whose bases are remembered, agree. -/
theorem agrees (rearranged : Rearranged one two) (first : one.RemembersBases)
    (second : two.RemembersBases) : one.Agrees two := by
  have alive := rearranged.alive
  have also := rearranged.symm.alive
  have based : ∀ (world : World) (id : ClassId),
      (Session.base? id world).1 = .done (world.base? id) := by
    intro world id
    unfold Session.base? World.base?
    rw [get_bind_apply]
    cases (world.cls id).base <;> rfl
  have resolved : ∀ (world : World) (id : ClassId), world.RemembersBases →
      (Session.isBaseResolved? id world).1 = .done ((world.spelling id).base.map fun _ => true) := by
    intro world id remembers
    refine congrArg Outcome.done ?_
    unfold World.spelling ClassDef.spelled
    dsimp only
    cases declared : (world.cls id).base with
    | none => rfl
    | some reference => exact congrArg some (remembers id reference declared)
  exact {
    class? := fun name => by
      refine answered ?_ ?_ (rearranged.findClass? name)
      · exact congrArg Prod.fst (bind_of_done _ (requireAssembly_of_alive alive))
      · exact congrArg Prod.fst (bind_of_done _ (requireAssembly_of_alive also))
    classForHost? := fun host => by
      refine answered ?_ ?_ (rearranged.classForHost? host)
      · exact congrArg Prod.fst (bind_of_done _ (requireAssembly_of_alive alive))
      · exact congrArg Prod.fst (bind_of_done _ (requireAssembly_of_alive also))
    function? := fun name => by
      refine answered ?_ ?_ (rearranged.function? name)
      · exact congrArg Prod.fst (bind_of_done _ (requireAssembly_of_alive alive))
      · exact congrArg Prod.fst (bind_of_done _ (requireAssembly_of_alive also))
    base? := fun id other twins =>
      answered (based one id) (based two other) (rearranged.base? twins)
    isBaseResolved? := fun id other twins =>
      answered (resolved one id first) (resolved two other second) (by rw [twins.spelling])
    ancestors := fun id other twins => answered rfl rfl (rearranged.ancestors twins)
    doesExtend := fun id other twins name => answered rfl rfl (rearranged.doesExtend twins name)
    findFunction? := fun id other twins name declaredOnly accepts => by
      cases declaredOnly with
      | true => exact answered rfl rfl (acceptedFunction? twins name accepts)
      | false =>
          exact answered rfl rfl
            (rearranged.nearest? twins fun _ _ twins => acceptedFunction? twins name accepts)
    findField? := fun id other twins name declaredOnly accepts => by
      cases declaredOnly with
      | true => exact answered rfl rfl (acceptedField? twins name accepts)
      | false =>
          exact answered rfl rfl
            (rearranged.nearest? twins fun _ _ twins => acceptedField? twins name accepts)
    metaTable := fun id other twins => answered rfl rfl (rearranged.metaTable twins) }

end Rearranged

/-! ## Registration -/

theorem Establishes.remembersBases {config : Config} {marshaling : MarshalRules}
    {declarations : List Declaration} {settled : World}
    (establishes : Establishes config marshaling declarations settled) :
    settled.RemembersBases := by
  obtain ⟨complete, registers, valid⟩ := establishes
  have records := registers.records (records_initial config marshaling)
  obtain ⟨alive, sound⟩ := records.reachable.sound
  rw [validate_of_alive alive] at valid
  have ran : validate.run complete = (.ok (), settled) := by
    cases ends : validate.run complete with
    | mk answer after =>
        rw [ends] at valid
        cases valid
        rfl
  exact (validate_ok sound.registered ran).2

/-- A new assembly accepts declarations in one order and is valid then, exactly if it does in any
other order.  Whatever is asked of the two assemblies afterwards, they agree. -/
theorem registration_order_irrelevant {first second : List Declaration} (perm : first.Perm second)
    (config : Config) (marshaling : MarshalRules) :
    ((∃ one, Establishes config marshaling first one) ↔
      ∃ two, Establishes config marshaling second two) ∧
    ∀ one two, Establishes config marshaling first one → Establishes config marshaling second two →
      one.Agrees two := by
  have classes : (classesOf first).Perm (classesOf second) := perm.filterMap _
  have functions : (functionsOf first).Perm (functionsOf second) := perm.filterMap _
  refine ⟨?_, fun one two founds also => ?_⟩
  · rw [establishes_iff, establishes_iff]
    exact ⟨fun coherent => coherent.perm classes functions,
      fun coherent => coherent.perm classes.symm functions.symm⟩
  · have rearranged : Rearranged one two :=
      ⟨_, _, _, _, founds.records, also.records, classes, functions⟩
    exact rearranged.agrees founds.remembersBases also.remembersBases

theorem Registers.run {world last : World} {declaration : Declaration} {rest : List Declaration}
    (accepted : (declaration.register world).1 = .done (.ok ()))
    (later : Registers (declaration.register world).2 rest last) :
    Registers world (declaration :: rest) last :=
  .next (Prod.ext accepted rfl) later

/-- A base and an annotation class that are declared after everything that mentions them, and a
function of the assembly. -/
def mixedDeclarations : List Declaration :=
  [.function ⟨"f", .global, .ordinary, .any, .passThrough, [⟨"M", []⟩], none⟩,
   .cls (bareClass "C" (some "B") [⟨"x", .global, .any, .script none, [⟨"M", []⟩], none⟩] []),
   .cls (bareClass "B" none [] []),
   .cls ⟨"M", .marker, none, [], [], [], none, none⟩]

theorem registration_order_irrelevant_reversed : ∃ one two,
    Establishes default default mixedDeclarations one ∧
    Establishes default default mixedDeclarations.reverse two ∧ one.Agrees two := by
  obtain ⟨same, agree⟩ := registration_order_irrelevant
    (List.reverse_perm mixedDeclarations).symm default default
  have accepted : ∃ one, Establishes default default mixedDeclarations one :=
    ⟨_, _, .run rfl (.run rfl (.run rfl (.run rfl (.none _)))), Prod.ext rfl rfl⟩
  obtain ⟨one, founds⟩ := accepted
  obtain ⟨two, also⟩ := same.mp ⟨one, founds⟩
  exact ⟨one, two, founds, also, agree one two founds also⟩

end World

end ScriptObjects

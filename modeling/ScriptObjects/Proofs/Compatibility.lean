import ScriptObjects.Proofs.HierarchyQueries
import ScriptObjects.Proofs.Holdings
import ScriptObjects.Proofs.InstanceLevels

/-!
# Compatible types

Whether a slot of one type may hold the values of another is asked of the types alone.
Whether a type accepts a value is asked of the value: an instance answers with its class
and with the host object that it carries at the moment.

The two questions agree, and the first is a preorder, as far as both read the same parts
of the state.  Classes are compared along the base relation, which is transitive wherever
no identity cuts a walk short.  A host type is compared with the class that it describes
and with no other, while an instance of any class may carry a host object of the type or
carry none.  So what a described class passes on to a host type is exactly what does not
go on to the classes below it, nor to the instances without such a host object.
-/

namespace ScriptObjects

set_option autoImplicit false

open Relation (TransGen)
open Exec

namespace World

/-! ## Why types are compatible -/

/-- Why a slot of the first type may hold the values of the second. -/
inductive Subsumes (world : World) : ValueType → ValueType → Prop
  | any (source : ValueType) : Subsumes world .any source
  | refl (type : ValueType) : Subsumes world type type
  | widens : Subsumes world .float .int
  | null {target : ValueType} (reference : target.isReference = true) :
      Subsumes world target .null
  | derived {upper lower : String} {id : ClassId} (found : world.findClass? lower = some id)
      (below : world.doesExtend id upper = true) : Subsumes world (.object upper) (.object lower)
  | described {type : HostType} {name : String} {id : ClassId}
      (found : world.findClass? name = some id)
      (described : (world.cls id).described = some type) :
      Subsumes world (.host type) (.object name)

theorem isTypeCompatible_object {world : World} {upper lower : String} :
    world.isTypeCompatible (.object upper) (.object lower) = true ↔
      upper = lower ∨
        ∃ id, world.findClass? lower = some id ∧ world.doesExtend id upper = true := by
  unfold isTypeCompatible
  rw [Bool.or_eq_true, decide_eq_true_eq]
  cases world.findClass? lower <;> simp

theorem isTypeCompatible_described {world : World} {type : HostType} {name : String} :
    world.isTypeCompatible (.host type) (.object name) = true ↔
      ∃ id, world.findClass? name = some id ∧ (world.cls id).described = some type := by
  cases found : world.findClass? name <;> simp [isTypeCompatible, found]

theorem isTypeCompatible_iff {world : World} {target source : ValueType} :
    world.isTypeCompatible target source = true ↔ world.Subsumes target source := by
  constructor
  · intro compatible
    cases target <;> cases source
    case object.object upper lower =>
      obtain rfl | ⟨id, found, below⟩ := isTypeCompatible_object.mp compatible
      · exact .refl _
      · exact .derived found below
    case host.object type name =>
      obtain ⟨id, found, described⟩ := isTypeCompatible_described.mp compatible
      exact .described found described
    case host.host one other =>
      have same : ValueType.host one = .host other := by simpa [isTypeCompatible] using compatible
      exact same ▸ .refl _
    -- Of the other pairs, those that are compatible are so for one of the plain reasons.
    all_goals first
      | exact .any _
      | exact .refl _
      | exact .widens
      | exact .null rfl
      | simp [isTypeCompatible, ValueType.isReference] at compatible
  · intro subsumes
    cases subsumes with
    | any => rfl
    | widens => rfl
    | refl =>
        cases target with
        | object name => exact isTypeCompatible_object.mpr (.inl rfl)
        | any | null | bool | int | float | text | table | function | host =>
            simp [isTypeCompatible]
    | null reference => cases target <;> first | rfl | cases reference
    | derived found below => exact isTypeCompatible_object.mpr (.inr ⟨_, found, below⟩)
    | described found described => exact isTypeCompatible_described.mpr ⟨_, found, described⟩

theorem isTypeCompatible_asked {world : World} (alive : world.alive = true)
    (target source : ValueType) :
    (Session.isTypeCompatible target source world).1 =
      .done (world.isTypeCompatible target source) := by
  unfold Session.isTypeCompatible
  rw [bind_of_done _ (requireAssembly_of_alive alive), get_bind_apply]
  rfl

/-- What a session answers of a living assembly. -/
theorem found_compatible_iff {world : World} (alive : world.alive = true)
    {target source : ValueType} :
    (Session.isTypeCompatible target source world).1 = .done true ↔
      world.Subsumes target source := by
  rw [isTypeCompatible_asked alive, done_inj, isTypeCompatible_iff]

/-! ## Preorder and soundness -/

section

variable {world : World} (registered : world.Registered) (distinct : world.DistinctHashes)
include registered distinct

/-- What extends a class extends everything above it. -/
theorem doesExtend_trans {lower middle : ClassId} {name upper : String}
    (inside : lower.index < world.classes.size) (found : world.findClass? name = some middle)
    (below : world.doesExtend lower name = true) (above : world.doesExtend middle upper = true) :
    world.doesExtend lower upper = true := by
  have graph := registered.hierarchical distinct
  obtain ⟨known, named⟩ := registered.findClass?_eq_some found
  obtain ⟨met, reached, same⟩ := (graph.doesExtend_iff inside).mp below
  obtain ⟨last, further, ends⟩ := (graph.doesExtend_iff known).mp above
  have middle_eq := registered.names met middle (graph.inside_of_reached reached) known
    (same.trans named.symm)
  exact (graph.doesExtend_iff inside).mpr ⟨last, reached.trans (middle_eq ▸ further), ends⟩

/-- An instance that the type of a class accepts, the types of the classes above it accept too. -/
theorem accepts_of_derived {upper lower : String} {cls : ClassId} {id : InstanceId}
    (found : world.findClass? lower = some cls) (above : world.doesExtend cls upper = true)
    (known : (world.object id).cls.index < world.classes.size)
    (accepted : world.accepts (.object lower) (.object id) = true) :
    world.accepts (.object upper) (.object id) = true := by
  rw [accepts_object, Bool.or_eq_true, decide_eq_true_eq] at accepted ⊢
  right
  obtain same | below := accepted
  · rw [← same, registered.findClass?_name known] at found
    cases found
    exact above
  · exact doesExtend_trans registered distinct known found below above

end

/-- A host type, a class that it describes, and a class below that. -/
inductive DescribedAbove (world : World) : ValueType → ValueType → ValueType → Prop
  | intro {type : HostType} {upper lower : String} {base derived : ClassId}
      (described : (world.cls base).described = some type)
      (base_found : world.findClass? upper = some base)
      (derived_found : world.findClass? lower = some derived)
      (below : world.doesExtend derived upper = true) :
      DescribedAbove world (.host type) (.object upper) (.object lower)

/-- A host type, a class that it describes, and an instance that carries no host object of the
type. -/
inductive LacksHost (world : World) : ValueType → ValueType → Value → Prop
  | intro {type : HostType} {name : String} {cls : ClassId} {id : InstanceId}
      (found : world.findClass? name = some cls)
      (described : (world.cls cls).described = some type)
      (lacks : ∀ host, (world.object id).host = some host → (world.hosts.get host).type ≠ type) :
      LacksHost world (.host type) (.object name) (.object id)

/-- An instance has a registered class, as every instance has that a session creates. -/
def KnowsClassOf (world : World) : Value → Prop
  | .object id => (world.object id).cls ∈ world.classes.handles
  | _ => True

namespace Subsumes

variable {world : World} {target middle source : ValueType}

/-- Compatibility goes on from type to type, except from a host type past the class that it
describes. -/
theorem trans (registered : world.Registered) (distinct : world.DistinctHashes)
    (first : world.Subsumes target middle) (second : world.Subsumes middle source) :
    world.Subsumes target source ∨ world.DescribedAbove target middle source := by
  cases first with
  | any => exact .inl (.any source)
  | refl => exact .inl second
  | widens => cases second with | refl => exact .inl .widens | null reference => cases reference
  | null reference =>
      cases second with
      | refl | null => exact .inl (.null reference)
  | derived found above =>
      cases second with
      | refl => exact .inl (.derived found above)
      | null => exact .inl (.null rfl)
      | derived below_found below =>
          have inside := (registered.findClass?_eq_some below_found).1
          exact .inl (.derived below_found
            (doesExtend_trans registered distinct inside found below above))
  | described found described =>
      cases second with
      | refl => exact .inl (.described found described)
      | null => exact .inl (.null rfl)
      | derived below_found below => exact .inr (.intro described found below_found below)

/-- A slot that may hold the values of a type accepts those that the type accepts, except that a
host type accepts no instance without a host object of the type. -/
theorem sound (registered : world.Registered) (distinct : world.DistinctHashes) {value : Value}
    (known : world.KnowsClassOf value) (subsumes : world.Subsumes target source)
    (accepted : world.accepts source value = true) :
    world.accepts target value = true ∨ world.LacksHost target source value := by
  cases subsumes with
  | any => exact .inl rfl
  | refl => exact .inl accepted
  | widens => cases value <;> first | exact .inl rfl | cases accepted
  | null reference =>
      cases value with
      | null => left; cases target <;> first | rfl | cases reference
      | bool | int | float | text | table | function | object | host => cases accepted
  | derived found above =>
      cases value with
      | null => exact .inl rfl
      | object id =>
          exact .inl (accepts_of_derived registered distinct found above
            ((Heap.mem_handles _ _).mp known) accepted)
      | bool | int | float | text | table | function | host => cases accepted
  | @described type name cls found described =>
      cases value with
      | null => exact .inl rfl
      | object id =>
          rcases taken : world.accepts (.host type) (.object id) with _ | _
          · refine .inr (.intro found described fun host has same => ?_)
            rw [accepts_hosted, has, Option.any_some, same] at taken
            simp at taken
          · exact .inl rfl
      | bool | int | float | text | table | function | host => cases accepted

end Subsumes

/-- Which types a session finds compatible is a preorder that agrees with what they accept, but for
host types and the classes that they describe. -/
structure OrdersTypes (world : World) : Prop where
  transitive : ∀ target middle source,
    (Session.isTypeCompatible target middle world).1 = .done true →
    (Session.isTypeCompatible middle source world).1 = .done true →
    (Session.isTypeCompatible target source world).1 = .done true ∨
      world.DescribedAbove target middle source
  sound : ∀ target source value, world.KnowsClassOf value →
    (Session.isTypeCompatible target source world).1 = .done true →
    (Exec.accepts source value world).1 = .done true →
    (Exec.accepts target value world).1 = .done true ∨ world.LacksHost target source value

/-- In every state of a session every type is compatible with itself; and where class names have
distinct identities, compatibility is transitive and agrees with what the types accept, except that
a host type takes no class below the one that it describes, and no instance that carries no host
object of the type. -/
theorem compatibility_orders_types {world : World} (reachable : Reachable world) :
    (∀ type, (Session.isTypeCompatible type type world).1 = .done true) ∧
      (world.DistinctHashes → world.OrdersTypes) := by
  obtain ⟨alive, sound⟩ := reachable.sound
  refine ⟨fun type => (found_compatible_iff alive).mpr (.refl type), fun distinct => ?_⟩
  constructor
  · intro target middle source first second
    rw [found_compatible_iff alive] at first second ⊢
    exact first.trans sound.registered distinct second
  · intro target source value known compatible accepted
    rw [found_compatible_iff alive] at compatible
    exact (compatible.sound sound.registered distinct known (done_inj.mp accepted)).imp_left
      (congrArg Outcome.done)

/-! ## Where the order ends -/

/-- A class that a host type describes, with two classes below it. -/
def describedSpecs : List ClassSpec :=
  [{ bareClass "Point" none [] [] with described := some .vector },
   bareClass "Place" (some "Point") [] [],
   bareClass "Home" (some "Place") [] []]

/-- A session with an instance of the described class that carries no host object. -/
def describedState : World := (defining default describedSpecs).allocate ⟨0⟩

theorem reachable_describedState : Reachable describedState :=
  (reachable_defining default _).allocate ⟨0⟩

theorem described_answers (target source : ValueType) :
    (Session.isTypeCompatible target source describedState).1 =
      .done (describedState.isTypeCompatible target source) :=
  isTypeCompatible_asked reachable_describedState.sound.1 target source

theorem compatibility_orders_types_described :
    (Session.isTypeCompatible (.object "Point") (.object "Home") describedState).1 =
      .done true := by
  have orders := (compatibility_orders_types reachable_describedState).2
    (distinctHashes_of_nodup (by decide +kernel))
  have first : (Session.isTypeCompatible (.object "Point") (.object "Place") describedState).1 =
      .done true := (described_answers _ _).trans (congrArg _ (by decide +kernel))
  have second : (Session.isTypeCompatible (.object "Place") (.object "Home") describedState).1 =
      .done true := (described_answers _ _).trans (congrArg _ (by decide +kernel))
  obtain compatible | skipped := orders.transitive _ _ _ first second
  · exact compatible
  · cases skipped

/-- A chain with two names of one identity at its ends. -/
def collidingSpecs : List ClassSpec :=
  [bareClass "ConcreteInstance" none [] [],
   bareClass "Middle" (some "ConcreteInstance") [] [],
   bareClass "WdSZgWfTxlzBzYHR" (some "Middle") [] []]

/-- A session with an instance of the most derived of the classes. -/
def collidingState : World := (defining default collidingSpecs).allocate ⟨2⟩

theorem reachable_collidingState : Reachable collidingState :=
  (reachable_defining default _).allocate ⟨2⟩

theorem colliding_answers (target source : ValueType) :
    (Session.isTypeCompatible target source collidingState).1 =
      .done (collidingState.isTypeCompatible target source) :=
  isTypeCompatible_asked reachable_collidingState.sound.1 target source

/-- A host type takes a class that it describes and neither the class below it nor an instance
without a host object; and where the names at both ends of a chain share an identity, a class
below the middle is not found to extend what the middle extends. -/
theorem compatibility_cut_short :
    (Reachable describedState ∧
      (Session.isTypeCompatible (.host .vector) (.object "Point") describedState).1 = .done true ∧
      (Session.isTypeCompatible (.object "Point") (.object "Place") describedState).1 = .done true ∧
      (Session.isTypeCompatible (.host .vector) (.object "Place") describedState).1 = .done false ∧
      (Exec.accepts (.object "Point") (.object ⟨0⟩) describedState).1 = .done true ∧
      (Exec.accepts (.host .vector) (.object ⟨0⟩) describedState).1 = .done false) ∧
    Reachable collidingState ∧
      (Session.isTypeCompatible (.object "ConcreteInstance") (.object "Middle")
        collidingState).1 = .done true ∧
      (Session.isTypeCompatible (.object "Middle") (.object "WdSZgWfTxlzBzYHR")
        collidingState).1 = .done true ∧
      (Session.isTypeCompatible (.object "ConcreteInstance") (.object "WdSZgWfTxlzBzYHR")
        collidingState).1 = .done false ∧
      (Exec.accepts (.object "Middle") (.object ⟨0⟩) collidingState).1 = .done true ∧
      (Exec.accepts (.object "ConcreteInstance") (.object ⟨0⟩) collidingState).1 = .done false := by
  have point : describedState.accepts (.object "Point") (.object ⟨0⟩) = true := by decide +kernel
  have bare : describedState.accepts (.host .vector) (.object ⟨0⟩) = false := by decide +kernel
  have middle : collidingState.accepts (.object "Middle") (.object ⟨0⟩) = true := by
    decide +kernel
  have cut : collidingState.accepts (.object "ConcreteInstance") (.object ⟨0⟩) = false := by
    decide +kernel
  refine ⟨⟨reachable_describedState, ?_, ?_, ?_, congrArg Outcome.done point,
      congrArg Outcome.done bare⟩,
    reachable_collidingState, ?_, ?_, ?_, congrArg Outcome.done middle, congrArg Outcome.done cut⟩
  · exact (described_answers _ _).trans (congrArg _ (by decide +kernel))
  · exact (described_answers _ _).trans (congrArg _ (by decide +kernel))
  · exact (described_answers _ _).trans (congrArg _ (by decide +kernel))
  · exact (colliding_answers _ _).trans (congrArg _ (by decide +kernel))
  · exact (colliding_answers _ _).trans (congrArg _ (by decide +kernel))
  · exact (colliding_answers _ _).trans (congrArg _ (by decide +kernel))

end World

end ScriptObjects

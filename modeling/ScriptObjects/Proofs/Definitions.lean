import Mathlib.Logic.Function.Basic
import ScriptObjects.Proofs.Refinement
import ScriptObjects.Proofs.Spelling

/-!
# What a definition decides

A registry is consistent when its order of registration has every class name once, its
tables lead to exactly the classes registered under a name or for a host type, and no
chain of base names returns.  Every state of a session has a consistent registry.

From such a state a definition is accepted exactly if the specification fits the
registry: its name and its host type are free, its base names do not lead back to it,
its members have distinct names, and its base lets it extend, if that is registered
already.  An accepted definition adds one class and one entry to each table that has
something new, and leaves all else as it was; a refused one leaves everything.
-/

namespace ScriptObjects

set_option autoImplicit false

open Relation (ReflTransGen TransGen)
open Exec

namespace World

/-! ## What a class must bring -/

/-- The specification of a class fits the registry. -/
structure Admits (world : World) (spec : ClassSpec) : Prop where
  newName : world.findClass? spec.name = none
  newHost : ∀ host, spec.described = some host → world.classForHost? host = none
  acyclic : ∀ base, spec.base = some base → ¬ ReflTransGen world.ExtendsName base spec.name
  distinct : spec.memberNames.Nodup
  inheritable : ∀ base, spec.base = some base → ∀ id, world.findClass? base = some id →
    (world.cls id).mode.inheritableBy spec.mode = true

theorem firstRepeat?_eq_none {seen names : List String} (nodup : names.Nodup)
    (apart : ∀ name ∈ names, name ∉ seen) : firstRepeat? seen names = none := by
  induction names generalizing seen with
  | nil => rfl
  | cons name rest ih =>
      rw [List.nodup_cons] at nodup
      rw [firstRepeat?, if_neg (apart name List.mem_cons_self)]
      refine ih nodup.2 fun other later => ?_
      rw [List.mem_cons, not_or]
      exact ⟨fun same => nodup.1 (same ▸ later), apart other (List.mem_cons_of_mem name later)⟩

theorem firstRepeat?_eq_none_iff (names : List String) :
    firstRepeat? [] names = none ↔ names.Nodup :=
  ⟨fun none => (firstRepeat?_none none).1,
    fun nodup => firstRepeat?_eq_none nodup fun _ _ => List.not_mem_nil⟩

theorem Registered.leadsBack_eq_false_iff {world : World} (registered : world.Registered)
    (alive : world.alive = true) (spec : ClassSpec) :
    world.leadsBack spec.name (world.classes.size + 2) [] spec.base = false ↔
      ∀ base, spec.base = some base → ¬ ReflTransGen world.ExtendsName base spec.name := by
  cases spec.base with
  | none =>
      rw [leadsBack_none]
      exact iff_of_true rfl nofun
  | some base =>
      rw [← Bool.not_eq_true, registered.leadsBack_iff alive]
      constructor
      · rintro apart other ⟨⟩
        exact apart
      · exact fun apart => apart base rfl

/-- The last part of the check, which asks the base. -/
theorem checkInheritable_eq_ok_iff {world : World} {spec : ClassSpec} :
    (match spec.base.bind world.findClass? with
      | some base => world.checkInheritable spec.name spec.mode base
      | none => .ok ()) = .ok () ↔
      ∀ base, spec.base = some base → ∀ id, world.findClass? base = some id →
        (world.cls id).mode.inheritableBy spec.mode = true := by
  have step : ∀ id, world.checkInheritable spec.name spec.mode id = .ok () ↔
      (world.cls id).mode.inheritableBy spec.mode = true := by
    intro id
    unfold checkInheritable
    dsimp only
    split
    · next allowed => exact iff_of_true rfl allowed
    · next refused => exact iff_of_false nofun refused
  cases based : spec.base with
  | none => exact iff_of_true rfl nofun
  | some name =>
      rw [Option.bind_some]
      cases found : world.findClass? name with
      | none =>
          refine iff_of_true rfl ?_
          rintro _ ⟨⟩ id missing
          rw [found] at missing
          cases missing
      | some id =>
          refine (step id).trans ⟨?_, fun allowed => allowed name rfl id found⟩
          rintro allowed _ ⟨⟩ other same
          rw [found] at same
          cases same
          exact allowed

/-- The check accepts a specification exactly if it fits. -/
theorem Registered.checkClass_eq_ok_iff {world : World} (registered : world.Registered)
    (alive : world.alive = true) (spec : ClassSpec) :
    world.checkClass spec = .ok () ↔ world.Admits spec := by
  have grounded := registered.leadsBack_eq_false_iff alive spec
  have unique := firstRepeat?_eq_none_iff spec.memberNames
  have shape : world.checkShape spec = .ok () ↔
      (∀ base, spec.base = some base → ¬ ReflTransGen world.ExtendsName base spec.name) ∧
        spec.memberNames.Nodup ∧
          ∀ base, spec.base = some base → ∀ id, world.findClass? base = some id →
            (world.cls id).mode.inheritableBy spec.mode = true := by
    rw [← grounded, ← unique, ← checkInheritable_eq_ok_iff]
    unfold checkShape
    cases world.leadsBack spec.name (world.classes.size + 2) [] spec.base with
    | true => exact iff_of_false nofun nofun
    | false =>
        cases firstRepeat? [] spec.memberNames with
        | some member => exact iff_of_false nofun nofun
        | none =>
            refine Iff.trans ?_ (Iff.symm (and_iff_right rfl) |>.trans
              (and_congr_right fun _ => (and_iff_right rfl).symm))
            cases spec.base.bind world.findClass? <;> exact Iff.rfl
  rw [World.checkClass_eq_ok_iff, shape]
  exact ⟨fun ⟨newName, newHost, acyclic, distinct, inheritable⟩ =>
      ⟨newName, newHost, acyclic, distinct, inheritable⟩,
    fun admits => ⟨admits.newName, admits.newHost, admits.acyclic, admits.distinct,
      admits.inheritable⟩⟩

/-! ## What an accepted definition adds -/

/-- The second state has one more class than the first, entered into each of the tables. -/
structure Gains (spec : ClassSpec) (before after : World) : Prop where
  classes : ∃ cls, after.classes = before.classes.push cls ∧
    cls.spelled after.classRefs = spec.asRegistered ∧
    cls.hash = TypeHash.ofName spec.name ∧ cls.metaTable = none
  order : after.registry.order = before.registry.order ++ [before.classes.next]
  names : after.findClass? =
    Function.update before.findClass? spec.name (some before.classes.next)
  hosts : after.classForHost? = spec.described.elim before.classForHost? fun host =>
    Function.update before.classForHost? host (some before.classes.next)
  references : ∀ reference, reference.index < before.classRefs.size →
    after.classRefs.get reference = before.classRefs.get reference
  rest : after = { before with
    classes := after.classes, registry := after.registry, classRefs := after.classRefs }

/-- The reference to the base of a new class is new. -/
theorem base_of_linkClass {spec : ClassSpec} {refs : Heap .classRef ClassRef}
    {reference : ClassRefId} (based : ((linkClass spec).run refs).1.base = some reference) :
    reference = refs.next := by
  obtain ⟨rest, same, appends⟩ := linkClass_eq spec
  cases declared : spec.base with
  | none =>
      rw [same, declared] at based
      change (((rest none).run refs).1.base) = some reference at based
      rw [(appends none).2] at based
      cases based
  | some name =>
      rw [same, declared] at based
      change (((rest (some refs.next)).run (refs.push ⟨name, none⟩)).1.base) =
        some reference at based
      rw [(appends (some refs.next)).2] at based
      exact (Option.some.inj based).symm

theorem Accepts.gains {world : World} {spec : ClassSpec} (accepts : world.Accepts spec) :
    Gains spec world (world.addClass spec) := by
  let linked := (linkClass spec).run world.classRefs
  let withRefs : World := { world with classRefs := linked.2 }
  let followed : World := withRefs.followBase linked.1.base
  have appends : Linked world.classRefs linked.2 := linkClass_appends spec world.classRefs
  have added : world.addClass spec = { followed with
      classes := followed.classes.push linked.1
      registry := ((followed.registry.enterName spec.name followed.classes.next).enterLast
        followed.classes.next).enterHost spec.described followed.classes.next } := rfl
  have follows : followed = { world with classRefs := followed.classRefs } ∧
      KeepsNames linked.2 followed.classRefs ∧
      ∀ reference, reference.index < world.classRefs.size →
        followed.classRefs.get reference = world.classRefs.get reference := by
    cases based : linked.1.base with
    | none =>
        simp only [followed, based]
        exact ⟨rfl, .refl _, appends.same⟩
    | some base =>
        simp only [followed, based]
        refine ⟨touchRef_eq withRefs base, .touchRef withRefs base, fun reference old => ?_⟩
        rw [← appends.same reference old]
        obtain ⟨_, same⟩ | ⟨target, _, same⟩ := withRefs.touchRef_cases base
        · exact congrArg (fun world => world.classRefs.get reference) same
        · refine (congrArg (fun world => world.classRefs.get reference) same).trans ?_
          refine Heap.get_modify_ne _ _ fun touched => ?_
          rw [touched, base_of_linkClass based] at old
          exact Nat.lt_irrefl _ old
  obtain ⟨rest, keeps, references⟩ := follows
  have adds := accepts.adds
  have pushed : (world.addClass spec).classes = world.classes.push linked.1 := by
    rw [added, rest]
  refine ⟨⟨linked.1, pushed, ?_, rfl, rfl⟩, adds.order, ?_, ?_, ?_, adds.rest⟩
  · rw [added]
    exact linkClass_spells spec world.classRefs followed.classRefs keeps
  · funext name
    rw [adds.findClass?, Function.update_apply]
    simp only [eq_comm]
  · funext host
    rw [adds.classForHost?]
    cases spec.described with
    | none => exact if_neg nofun
    | some other =>
        rw [Option.elim_some, Function.update_apply]
        simp only [Option.some.injEq, eq_comm]
  · rw [added]
    exact references

/-! ## Sessions -/

/-- The registry is consistent: its tables agree on which classes there are, and base names never
lead back. -/
structure Consistent (world : World) : Prop where
  /-- The order of registration has the classes that there are. -/
  order : ∀ id, id ∈ world.registry.order ↔ id.index < world.classes.size
  /-- It has every name once. -/
  distinct : (world.registry.order.map fun id => (world.cls id).name).Nodup
  names : ∀ name id, world.registry.names.lookup name = some id ↔
    id ∈ world.registry.order ∧ (world.cls id).name = name
  hosts : ∀ host id, world.registry.hosts.lookup host = some id ↔
    id ∈ world.registry.order ∧ (world.cls id).described = some host
  acyclic : ∀ name, ¬ TransGen world.ExtendsName name name

theorem handles_nodup {kind : HandleKind} {α : Type} (heap : Heap kind α) : heap.handles.Nodup :=
  List.Nodup.map (fun _ _ same => congrArg Handle.index same) List.nodup_range

theorem Reachable.consistent {world : World} (reachable : Reachable world) : world.Consistent := by
  obtain ⟨alive, sound⟩ := reachable.sound
  have registered := sound.registered
  have order : ∀ id, id ∈ world.registry.order ↔ id.index < world.classes.size := fun id => by
    rw [registered.filed.order, Heap.mem_handles]
  refine ⟨order, ?_, fun name id => ?_, fun host id => ?_, registered.acyclic alive⟩
  · rw [registered.filed.order]
    refine List.Nodup.map_on (fun first one second two same => ?_) (handles_nodup world.classes)
    rw [Heap.mem_handles] at one two
    exact registered.names first second one two same
  · rw [order]
    exact registered.filed.names name id
  · rw [order]
    exact registered.filed.hosts host id

section

variable {world : World} (reachable : Reachable world)
include reachable

theorem Reachable.order_eq : world.registry.order = world.classes.handles :=
  reachable.sound.2.registered.filed.order

theorem Reachable.findClass?_iff {name : String} {id : ClassId} :
    world.findClass? name = some id ↔ id ∈ world.classes.handles ∧ (world.cls id).name = name := by
  rw [← reachable.order_eq]
  exact reachable.consistent.names name id

theorem Reachable.classForHost?_iff {host : HostType} {id : ClassId} :
    world.classForHost? host = some id ↔
      id ∈ world.classes.handles ∧ (world.cls id).described = some host := by
  rw [← reachable.order_eq]
  exact reachable.consistent.hosts host id

end

/-- In every state of a session the registry is consistent.  A definition is accepted there exactly
if the specification fits; then it adds the class it specifies and nothing else, and otherwise it
changes nothing at all. -/
theorem definition_decided {world : World} (reachable : Reachable world) :
    world.Consistent ∧ ∀ spec,
      (world.Admits spec →
        ∃ after, Session.define spec world = (.done (.ok ()), after) ∧ Gains spec world after) ∧
      (¬ world.Admits spec →
        ∃ refusal, Session.define spec world = (.done (.error refusal), world)) := by
  obtain ⟨alive, sound⟩ := reachable.sound
  refine ⟨reachable.consistent, fun spec => ?_⟩
  have decides := sound.registered.checkClass_eq_ok_iff alive spec
  unfold Session.define
  rw [registering_of_alive alive, run_define]
  constructor
  · intro admits
    have checked := decides.mpr admits
    rw [checked]
    exact ⟨_, rfl, (checkClass_ok checked).gains⟩
  · intro misfit
    cases checked : world.checkClass spec with
    | ok => exact absurd (decides.mp checked) misfit
    | error refusal => exact ⟨refusal, rfl⟩

/-- Two classes whose base names lead to a name that is not registered yet. -/
def danglingSpecs : List ClassSpec :=
  [bareClass "B" (some "A") [] [], bareClass "C" (some "B") [] []]

theorem definition_decided_dangling :
    (defining default danglingSpecs).Consistent ∧
    (∃ refusal, Session.define (bareClass "A" (some "C") [] []) (defining default danglingSpecs) =
      (.done (.error refusal), defining default danglingSpecs)) ∧
    ∃ after, Session.define (bareClass "A" none [] []) (defining default danglingSpecs) =
        (.done (.ok ()), after) ∧
      Gains (bareClass "A" none [] []) (defining default danglingSpecs) after := by
  obtain ⟨consistent, decided⟩ := definition_decided (reachable_defining default danglingSpecs)
  refine ⟨consistent, (decided _).2 fun admits => ?_, (decided _).1 ?_⟩
  · have last : (defining default danglingSpecs).ExtendsName "C" "B" := ⟨⟨1⟩, by decide +kernel⟩
    have first : (defining default danglingSpecs).ExtendsName "B" "A" := ⟨⟨0⟩, by decide +kernel⟩
    exact admits.acyclic "C" rfl (.head last (.single first))
  · exact ⟨by decide +kernel, nofun, nofun, List.nodup_nil, nofun⟩

end World

end ScriptObjects

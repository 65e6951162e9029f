import ScriptObjects.Proofs.Validity

/-!
# What earlier states leave behind

The table of the meta-functions of a class and the levels of an instance are made once,
after the hierarchy as it stands at that moment, and stay as they were made while further
classes are defined.  What they say is therefore said of an earlier state of the session.

A base may be registered after the classes that extend it.  So the chain of a class grows,
but only at its end: the chain in an earlier state is where the chain in every later state
begins.  It is the same chain once the registry is valid.
-/

namespace ScriptObjects

set_option autoImplicit false

namespace World

/-! ## What lasts -/

/-- The second state has all classes and instances of the first: the classes declare the same and
have the bases they had, and the instances have the same levels. -/
structure Lasts (before after : World) : Prop where
  size : before.classes.size ≤ after.classes.size
  declared : ∀ id : ClassId, id.index < before.classes.size →
    (after.cls id).declared = (before.cls id).declared
  base : ∀ id base, before.base? id = some base → after.base? id = some base
  chains : ∀ id, before.ancestors id <+: after.ancestors id
  instances : before.instances.size ≤ after.instances.size
  objects : ∀ id : InstanceId, id.index < before.instances.size →
    (after.object id).cls = (before.object id).cls ∧
      (after.object id).levels = (before.object id).levels

namespace Lasts

variable {first second third : World}

theorem refl (world : World) : Lasts world world :=
  ⟨Nat.le_refl _, fun _ _ => rfl, fun _ _ same => same, fun _ => List.prefix_rfl, Nat.le_refl _,
    fun _ _ => ⟨rfl, rfl⟩⟩

theorem trans (one : Lasts first second) (two : Lasts second third) : Lasts first third where
  size := Nat.le_trans one.size two.size
  declared id inside :=
    (two.declared id (Nat.lt_of_lt_of_le inside one.size)).trans (one.declared id inside)
  base id found next := two.base id found (one.base id found next)
  chains id := (one.chains id).trans (two.chains id)
  instances := Nat.le_trans one.instances two.instances
  objects id inside := by
    obtain ⟨cls, levels⟩ := one.objects id inside
    obtain ⟨again, still⟩ := two.objects id (Nat.lt_of_lt_of_le inside one.instances)
    exact ⟨again.trans cls, still.trans levels⟩

theorem of_continues (continues : first.Continues second) : Lasts first second where
  size := Nat.le_of_eq continues.hierarchy.size.symm
  declared id _ := continues.hierarchy.declared id
  base id _ next := (continues.hierarchy.base id).trans next
  chains id := continues.hierarchy.ancestors id ▸ List.prefix_rfl
  instances := continues.instances
  objects := continues.objects

theorem of_extends (grows : first.Extends second) (instances : second.instances = first.instances) :
    Lasts first second where
  size := grows.size
  declared id inside := congrArg ClassDef.declared (grows.cls id inside)
  base := grows.base
  chains id := by
    by_cases inside : id.index < first.classes.size
    · exact grows.ancestors inside
    · rw [ancestors_beyond (Nat.le_of_not_lt inside)]
      exact head_ancestors second id
  instances := Nat.le_of_eq (congrArg Heap.size instances.symm)
  objects id _ := by
    have same : second.object id = first.object id := congrArg (·.get id) instances
    exact ⟨congrArg Instance.cls same, congrArg Instance.levels same⟩

section

variable (lasts : Lasts first second)
include lasts

/-- A question that does not look at the table of meta-functions has the same answer. -/
theorem ask {α : Type} (question : ClassDef → α)
    (blind : ∀ cls : ClassDef, question cls.declared = question cls) {id : ClassId}
    (inside : id.index < first.classes.size) :
    question (second.cls id) = question (first.cls id) := by
  rw [← blind (second.cls id), ← blind (first.cls id), lasts.declared id inside]

/-- A chain that ends in a class without a base does not grow. -/
theorem chain {id : ClassId} {chain : List ClassId} (chains : first.Chain id chain)
    (bases : ∀ id base, first.base? id = some base → base.index < first.classes.size)
    (inside : id.index < first.classes.size)
    (ends : ∀ last ∈ chain.getLast?, (first.cls last).base = none) : second.Chain id chain := by
  induction chains with
  | @last id base =>
      have none := lasts.ask ClassDef.base (fun _ => rfl) inside
      rw [ends id rfl] at none
      refine .last ?_
      unfold base?
      rw [none]
      rfl
  | @step id base rest next below ih =>
      obtain ⟨more, rfl⟩ := below.head
      refine .step (lasts.base id base next) (ih (bases id base next) fun last found => ?_)
      exact ends last (by rwa [List.getLast?_cons_cons])

end

end Lasts

/-- Once the registry is valid, the chain of a class does not grow any more. -/
theorem Valid.ancestors_later {before after : World} (valid : before.Valid)
    (registered : before.Registered) (alive : before.alive = true) (lasts : Lasts before after)
    {id : ClassId} (inside : id.index < before.classes.size) :
    after.ancestors id = before.ancestors id := by
  obtain ⟨chain, chains⟩ := registered.grounded id inside
  have bases : ∀ id base, before.base? id = some base → base.index < before.classes.size :=
    fun _ _ => registered.base?_inside
  have whole := valid.wholeChain registered alive chains inside
  have later := lasts.chain chains bases inside whole.ends
  have bounded := chains.length_le bases inside
  have grown := lasts.size
  refine chains.walk_same later (fun member found => ?_) (by omega) (by omega) []
  exact lasts.ask ClassDef.hash (fun _ => rfl) (chains.inside bases inside member found)

/-! ## Sessions -/

theorem GoesOn.lasts {first second : World} (reachable : Reachable first)
    (goesOn : GoesOn first second) : Lasts first second := by
  induction goesOn with
  | start => exact .refl first
  | proceed before proceeds ih =>
      obtain ⟨alive, sound⟩ := (reachable.goesOn before).sound
      exact ih.trans (.of_continues (proceeds.sound_continues alive sound).2)
  | enlist before enlists ih =>
      obtain ⟨alive, sound⟩ := (reachable.goesOn before).sound
      refine ih.trans (.of_extends (enlists.extends_ alive sound.registered) ?_)
      rw [enlists.rest]

/-- A chain that was there when validation succeeded does not grow any more. -/
theorem Reachable.ancestors_validated {before after : World} (reachable : Reachable before)
    (ok : (Session.validate before).1 = .done (.ok ())) (lasts : Lasts before after)
    {id : ClassId} (inside : id.index < before.classes.size) :
    after.ancestors id = before.ancestors id := by
  obtain ⟨alive, sound⟩ := reachable.sound
  rw [validate_of_alive alive] at ok
  have valid := reachable.validates_iff.mp (Outcome.done.inj ok)
  exact valid.ancestors_later sound.registered alive lasts inside

end World

end ScriptObjects

import ScriptObjects.Proofs.Histories

/-!
# What validation settles

Validation changes nothing but references, and each of them only by remembering the
class it stands for.  Where it succeeds, the base of every class was found and is
remembered: from then on no walk through the hierarchy changes the state any more.
-/

namespace ScriptObjects

set_option autoImplicit false

namespace World

/-! ## Following references -/

/-- The second state is the first after some references were followed. -/
inductive Follows (world : World) : World → Prop
  | refl : Follows world world
  | touch {between : World} (before : Follows world between) (reference : ClassRefId) :
      Follows world (between.touchRef reference)

namespace Follows

variable {first second third : World}

theorem trans (before : Follows first second) (after : Follows second third) :
    Follows first third := by
  induction after with
  | refl => exact before
  | touch _ reference ih => exact .touch ih reference

theorem proceeds (follows : Follows first second) : Proceeds first second := by
  induction follows with
  | refl => exact .refl first
  | touch _ reference ih => exact .run ih (.touch reference)

theorem cls (follows : Follows first second) (id : ClassId) : second.cls id = first.cls id := by
  induction follows with
  | refl => rfl
  | touch _ reference ih => rw [cls_touchRef, ih]

theorem classes (follows : Follows first second) : second.classes = first.classes := by
  induction follows with
  | refl => rfl
  | touch _ reference ih => rw [classes_touchRef, ih]

theorem refs (follows : Follows first second) : second.classRefs.size = first.classRefs.size := by
  induction follows with
  | refl => rfl
  | touch _ reference ih => rw [size_classRefs_touchRef, ih]

/-- What is remembered stays remembered. -/
theorem remembered (follows : Follows first second) {reference : ClassRefId}
    (known : (first.classRefs.get reference).target.isSome) :
    (second.classRefs.get reference).target.isSome := by
  induction follows with
  | refl => exact known
  | touch _ other ih => rw [get_touchRef_of_remembered _ other ih]; exact ih

theorem rest (follows : Follows first second) :
    second = { first with classRefs := second.classRefs } := by
  induction follows with
  | refl => rfl
  | @touch between _ reference ih =>
      rw [touchRef_eq, ih]

end Follows

/-- A reference that stands for a class remembers it once it was followed. -/
theorem remembered_touchRef {world : World} {reference : ClassRefId} {target : ClassId}
    (inside : reference.index < world.classRefs.size)
    (stands : world.target? reference = some target) :
    ((world.touchRef reference).classRefs.get reference).target.isSome := by
  obtain ⟨missing, _⟩ | ⟨found, _, same⟩ := world.touchRef_cases reference
  · rw [missing] at stands
    cases stands
  · rw [same]
    show ((world.classRefs.modify reference _).get reference).target.isSome
    rw [Heap.get_modify_same _ _ inside]
    rfl

/-! ## Checks -/

section

variable {α β : Type}

theorem bind_run (check : Registering α) (next : α → Registering β) (world : World) :
    (check >>= next).run world =
      match check.run world with
      | (.ok result, between) => (next result).run between
      | (.error refusal, between) => (.error refusal, between) := by
  show (check.run >>= ExceptT.bindCont next) world = _
  show ExceptT.bindCont next (check.run world).1 (check.run world).2 = _
  rcases check.run world with ⟨result, between⟩
  cases result <;> rfl

/-- A check that succeeds after another one: both succeed. -/
theorem bind_run_ok {check : Registering α} {next : α → Registering β} {world after : World} {answer : β}
    (ok : (check >>= next).run world = (.ok answer, after)) :
    ∃ result between, check.run world = (.ok result, between) ∧
      (next result).run between = (.ok answer, after) := by
  rw [bind_run] at ok
  rcases ends : check.run world with ⟨result, between⟩
  rw [ends] at ok
  cases result with
  | ok result => exact ⟨result, between, rfl, ok⟩
  | error refusal => cases ok

/-- A check that only follows references. -/
def OnlyFollows (check : Registering α) : Prop := ∀ world, Follows world (check.run world).2

theorem OnlyFollows.bind {check : Registering α} {next : α → Registering β} (first : OnlyFollows check)
    (second : ∀ result, OnlyFollows (next result)) : OnlyFollows (check >>= next) := by
  intro world
  have before := first world
  rw [bind_run]
  rcases ends : check.run world with ⟨result, between⟩
  rw [ends] at before
  cases result with
  | ok result => exact before.trans (second result between)
  | error refusal => exact before

theorem OnlyFollows.of_same {check : Registering α} (same : ∀ world, (check.run world).2 = world) :
    OnlyFollows check := by
  intro world
  rw [same]
  exact .refl

theorem OnlyFollows.forM {items : List β} {check : β → Registering Unit}
    (each : ∀ item, OnlyFollows (check item)) : OnlyFollows (items.forM check) := by
  induction items with
  | nil => exact .of_same fun _ => rfl
  | cons item rest ih => exact .bind (each item) fun _ => ih

end

theorem follow_onlyFollows (reference : ClassRefId) :
    OnlyFollows (follow reference : StateM World (Option ClassId)) :=
  fun _ => .touch .refl reference

theorem validateUses_onlyFollows (target : String) (uses : List (AnnotationUse ClassRefId)) :
    OnlyFollows (validateUses target uses) := by
  induction uses with
  | nil => exact .of_same fun _ => rfl
  | cons use rest ih =>
      refine .bind (.of_same fun _ => rfl) fun seen => ?_
      refine .bind (follow_onlyFollows use.cls) fun found => ?_
      cases found with
      | none => exact .of_same fun _ => rfl
      | some id =>
          refine .bind (.of_same fun _ => rfl) fun later => ?_
          dsimp only
          split
          · exact ih
          · exact .of_same fun _ => rfl

/-- What validation checks of a class after its base. -/
def validateMembers (cls : ClassDef) : Registering Unit := do
  validateUses cls.name cls.annotations
  cls.fields.forM fun field => validateUses (cls.name ++ "." ++ field.name) field.annotations
  cls.functions.forM fun function => validateUses function.label function.annotations

theorem validateMembers_onlyFollows (cls : ClassDef) : OnlyFollows (validateMembers cls) :=
  .bind (validateUses_onlyFollows _ _) fun _ =>
    .bind (.forM fun _ => validateUses_onlyFollows _ _) fun _ =>
      .forM fun _ => validateUses_onlyFollows _ _

theorem validateClass_onlyFollows (id : ClassId) : OnlyFollows (validateClass id) := by
  refine .bind (.of_same fun _ => rfl) fun seen => ?_
  dsimp only
  cases (seen.cls id).base with
  | none => exact validateMembers_onlyFollows _
  | some reference =>
      refine .bind (follow_onlyFollows reference) fun found => ?_
      cases found with
      | none => exact .bind (.of_same fun _ => rfl) fun later => .of_same fun _ => rfl
      | some base =>
          refine .bind (.of_same fun _ => rfl) fun later => ?_
          refine .bind (.of_same fun world => ?_) fun _ => validateMembers_onlyFollows _
          unfold checkInheritable
          dsimp only
          split <;> rfl

/-- Validation only follows references. -/
theorem validate_onlyFollows : OnlyFollows validate :=
  .bind (.of_same fun _ => rfl) fun _ =>
    .bind (.forM validateClass_onlyFollows) fun _ =>
      .bind (.of_same fun _ => rfl) fun _ => .forM fun _ => validateUses_onlyFollows _ _

/-- A class that is found valid remembers its base. -/
theorem validateClass_ok {world after : World} {id : ClassId}
    (ok : (validateClass id).run world = (.ok (), after)) {reference : ClassRefId}
    (based : (world.cls id).base = some reference)
    (inside : reference.index < world.classRefs.size) :
    (after.classRefs.get reference).target.isSome := by
  obtain ⟨seen, between, read, ok⟩ := bind_run_ok ok
  cases read
  dsimp only at ok
  rw [based] at ok
  obtain ⟨found, touched, followed, ok⟩ := bind_run_ok ok
  cases followed
  cases stands : world.target? reference with
  | none =>
      rw [stands] at ok
      cases ok
  | some base =>
      rw [stands] at ok
      have known := remembered_touchRef inside stands
      obtain ⟨later, again, read, ok⟩ := bind_run_ok ok
      cases read
      have follows : Follows (world.touchRef reference) after := by
        obtain ⟨_, checked, inherits, ok⟩ := bind_run_ok ok
        have same : checked = world.touchRef reference := by
          unfold checkInheritable at inherits
          dsimp only at inherits
          split at inherits <;> cases inherits
          rfl
        rw [same] at ok
        have members := validateMembers_onlyFollows (world.cls id) (world.touchRef reference)
        have ends : (validateMembers (world.cls id)).run (world.touchRef reference) =
            (.ok (), after) := ok
        rw [ends] at members
        exact members
      exact follows.remembered known

/-- Every base is remembered. -/
def RemembersBases (world : World) : Prop :=
  ∀ id reference, (world.cls id).base = some reference →
    (world.classRefs.get reference).target.isSome

theorem forM_validateClass_ok {ids : List ClassId} {world after : World}
    (ok : (ids.forM validateClass).run world = (.ok (), after))
    (refs : ∀ id reference, (world.cls id).base = some reference →
      reference.index < world.classRefs.size) :
    ∀ id ∈ ids, ∀ reference, (world.cls id).base = some reference →
      (after.classRefs.get reference).target.isSome := by
  induction ids generalizing world with
  | nil => exact fun _ member => (List.not_mem_nil member).elim
  | cons head rest ih =>
      obtain ⟨_, between, first, last⟩ := bind_run_ok ok
      have before := validateClass_onlyFollows head world
      rw [first] at before
      have checks : OnlyFollows (rest.forM validateClass) := .forM validateClass_onlyFollows
      have later := checks between
      rw [last] at later
      intro id member reference based
      rcases List.mem_cons.mp member with rfl | member
      · exact later.remembered (validateClass_ok first based (refs id reference based))
      · refine ih last ?_ id member reference (by rw [before.cls]; exact based)
        intro id reference based
        rw [before.cls] at based
        rw [before.refs]
        exact refs id reference based

/-- Validation that succeeds leaves a state that remembers every base. -/
theorem validate_ok {world after : World} (registered : world.Registered)
    (ok : validate.run world = (.ok (), after)) : Follows world after ∧ after.RemembersBases := by
  have follows := validate_onlyFollows world
  rw [ok] at follows
  refine ⟨follows, ?_⟩
  obtain ⟨seen, between, read, ok⟩ := bind_run_ok ok
  cases read
  obtain ⟨_, between, checked, ok⟩ := bind_run_ok ok
  obtain ⟨seen, same, read, ok⟩ := bind_run_ok ok
  cases read
  have later : Follows between after := by
    have checks : OnlyFollows (between.functions.forM fun function =>
        validateUses function.label function.annotations) :=
      .forM fun _ => validateUses_onlyFollows _ _
    have last := checks between
    rw [ok] at last
    exact last
  intro id reference based
  rw [follows.cls] at based
  have inside : id.index < world.classes.size := by
    apply Nat.lt_of_not_le
    intro beyond
    unfold cls Heap.get at based
    rw [Heap.get?_eq_none _ beyond] at based
    cases based
  have known := forM_validateClass_ok checked registered.baseRefs id
    (by rwa [registered.filed.order, Heap.mem_handles]) reference based
  exact later.remembered known

/-! ## The operation -/

/-- While the assembly is there, a request to it is answered, and leaves what it leaves. -/
theorem registering_of_alive {world : World} (alive : world.alive = true)
    (request : Registering Unit) :
    Session.registering request world = (.done (request.run world).1, (request.run world).2) := by
  unfold Session.registering
  rw [Exec.bind_of_done _ (Exec.requireAssembly_of_alive alive)]
  rfl

theorem registering_of_dropped {world : World} (dropped : world.alive = false)
    (request : Registering Unit) : (Session.registering request world).2 = world := by
  unfold Session.registering
  rw [Exec.bind_of_failed _ (Exec.requireAssembly_of_dropped dropped)]

/-- What an atomic request makes of a state is that state, or what it makes of it when it is
accepted. -/
theorem registering_cases {request : Registering Unit} (atomic : Atomic request) (world : World) :
    (Session.registering request world).2 = world ∨
      world.alive = true ∧ request.run world = (.ok (), (Session.registering request world).2) := by
  cases alive : world.alive with
  | false => exact .inl (registering_of_dropped alive request)
  | true =>
      rw [registering_of_alive alive]
      rcases ends : request.run world with ⟨answer, after⟩
      cases answer with
      | ok => exact .inr ⟨rfl, rfl⟩
      | error refusal => exact .inl (atomic world after refusal ends)

theorem validate_of_alive {world : World} (alive : world.alive = true) :
    Session.validate world = (.done (validate.run world).1, (validate.run world).2) :=
  registering_of_alive alive validate

theorem validate_run_of_ok {defined start : World} (alive : defined.alive = true)
    (valid : Session.validate defined = (.done (.ok ()), start)) :
    validate.run defined = (.ok (), start) := by
  rw [validate_of_alive alive] at valid
  obtain ⟨answer, after⟩ := Prod.mk.inj valid
  exact Prod.ext (Outcome.done.inj answer) after

end World

end ScriptObjects

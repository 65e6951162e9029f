import ScriptObjects.Proofs.Definitions
import ScriptObjects.Proofs.Proceeding

/-!
# Class references, in every state of a session

A class reference is a name that becomes a class when it is first looked up with success.  It is
looked up at any time: the host resolves it, a walk follows it to a base, validation checks it, and
the creation of annotations needs the class it stands for.  In between, definitions are accepted or
refused, and declarations may share their references.

None of this can be told from asking for the class of the name (`references_resolve`).  No
definition replaces a class, so that a name keeps its class (`KeepsReferences`).  What a reference
remembers therefore stays right, and a reference that stands for no class yet stands for the class of
its name as soon as there is one.
-/

namespace ScriptObjects

set_option autoImplicit false

open World

/-! ## Whole commands -/

/-- A session goes on with a whole command, which may be a declaration that is refused. -/
theorem World.GoesOn.command {first second : World} (before : GoesOn first second)
    (command : Command) (genuine : command.Genuine second) :
    GoesOn first (command.after second) := by
  have registers : ∀ {request : Registering Unit}, Atomic request →
      (∀ {after}, request.run second = (.ok (), after) → Enlists second after) →
      GoesOn first (Session.registering request second).2 := by
    intro request atomic enlists
    obtain same | ⟨_, ok⟩ := registering_cases atomic second
    · rw [same]
      exact before
    · exact .enlist before (enlists ok)
  cases kind : command.defines with
  | false => exact .proceed before (command.proceeds genuine kind)
  | true =>
      cases command with
      | define spec => exact registers (define_atomic spec) .define
      | defineFunction spec => exact registers (defineFunction_atomic spec) .defineFunction
      | _ => cases kind

/-! ## What stays of references -/

/-- The second state has the references and the classes of the first.  References keep their names
and what they remember, and every name keeps its class. -/
structure World.KeepsReferences (before after : World) : Prop where
  alive : after.alive = before.alive := by rfl
  refs : before.classRefs.size ≤ after.classRefs.size := by exact Nat.le_refl _
  names : ∀ reference, reference.index < before.classRefs.size →
    (after.classRefs.get reference).name = (before.classRefs.get reference).name := by
      intros; rfl
  remembered : ∀ reference, (before.classRefs.get reference).target.isSome →
    after.classRefs.get reference = before.classRefs.get reference := by intros; rfl
  classes : before.classes.size ≤ after.classes.size := by exact Nat.le_refl _
  declared : ∀ id : ClassId, id.index < before.classes.size →
    (after.cls id).declared = (before.cls id).declared := by intros; rfl
  found : ∀ name id, before.findClass? name = some id → after.findClass? name = some id := by
    exact fun _ _ found => found

namespace World.KeepsReferences

variable {first second third : World}

theorem refl (world : World) : KeepsReferences world world := {}

theorem trans (one : KeepsReferences first second) (two : KeepsReferences second third) :
    KeepsReferences first third where
  alive := two.alive.trans one.alive
  refs := Nat.le_trans one.refs two.refs
  names reference old :=
    (two.names reference (Nat.lt_of_lt_of_le old one.refs)).trans (one.names reference old)
  remembered reference known := by
    have same := one.remembered reference known
    rw [two.remembered reference (same ▸ known), same]
  classes := Nat.le_trans one.classes two.classes
  declared id inside :=
    (two.declared id (Nat.lt_of_lt_of_le inside one.classes)).trans (one.declared id inside)
  found name id found := two.found name id (one.found name id found)

theorem of_continues (continues : first.Continues second) : KeepsReferences first second where
  alive := continues.alive
  refs := continues.refs
  names := continues.names
  remembered := continues.remembered
  classes := Nat.le_of_eq continues.hierarchy.size.symm
  declared id _ := continues.hierarchy.declared id
  found name _ found := (continues.hierarchy.findClass? name).trans found

theorem adds {spec : ClassSpec} (adds : Adds spec first second) : KeepsReferences first second where
  alive := adds.alive
  refs := adds.refs
  names := adds.names
  remembered := adds.remembered
  classes := by
    rw [adds.size]
    exact Nat.le_succ _
  declared id inside := congrArg ClassDef.declared (adds.cls_old inside)
  found _ _ found := adds.findClass?_old found

theorem addsFunction {function : Function} (adds : AddsFunction function first second) :
    KeepsReferences first second := by
  have refs := adds.refs
  rw [adds.rest]
  exact {
    refs := refs.size
    names := fun reference old => congrArg ClassRef.name (refs.same reference old)
    remembered := fun reference known =>
      refs.same reference (Continues.inside_of_remembered known) }

theorem enlists (enlists : Enlists first second) : KeepsReferences first second := by
  obtain ⟨spec, adds⟩ | ⟨function, adds⟩ := enlists.cases
  · exact .adds adds
  · exact .addsFunction adds

end World.KeepsReferences

/-- A run keeps what references remember right. -/
theorem Change.soundRefs {may : String → Prop} {opened : InstanceId → Prop} {first second : World}
    (change : Change may opened first second) (alive : first.alive = true)
    (sound : first.SoundRefs) : second.SoundRefs := by
  have continues := change.continues
  intro reference target cached
  have inside : reference.index < first.classRefs.size := by
    rw [← change.size_classRefs]
    exact Continues.inside_of_remembered (by rw [cached]; rfl)
  have stands : second.target? reference = some target := by
    unfold target?
    simp only [continues.alive, alive, if_true, cached]
  rw [continues.targets reference inside, target?_of_sound sound alive] at stands
  rw [continues.hierarchy.findClass?, continues.names reference inside]
  exact stands

theorem HostChange.keepsReferences {first second : World} (change : HostChange first second) :
    first.KeepsReferences second := by
  cases change with
  | classRef name target sound =>
      exact {
        refs := by simp
        names := fun reference old =>
          congrArg ClassRef.name (Heap.get_push_of_lt first.classRefs _ old)
        remembered := fun reference known =>
          Heap.get_push_of_lt first.classRefs _ (Continues.inside_of_remembered known) }
  | context | withdraw | declare | freeStore | reference | bindReference | drop | bindings
  | heldFrames | log => exact {}

theorem HostChange.soundRefs {first second : World} (change : HostChange first second)
    (sound : first.SoundRefs) : second.SoundRefs := by
  cases change with
  | classRef name known meant =>
      intro reference target cached
      rw [Heap.get_push] at cached ⊢
      split at cached
      · next newest =>
          rw [if_pos newest]
          exact meant target cached
      · next old =>
          rw [if_neg old]
          exact sound reference target cached
  | context | withdraw | declare | freeStore | reference | bindReference | drop | bindings
  | heldFrames | log => exact sound

theorem World.Enlists.soundRefs {first second : World} (enlists : Enlists first second)
    (sound : first.SoundRefs) : second.SoundRefs := by
  obtain ⟨spec, adds⟩ | ⟨function, adds⟩ := enlists.cases
  · exact adds.soundRefs sound
  · intro reference target cached
    have inside : reference.index < first.classRefs.size := by
      apply Nat.lt_of_not_le
      intro beyond
      rw [adds.refs.fresh reference beyond] at cached
      cases cached
    rw [adds.refs.same reference inside] at cached ⊢
    have found := sound reference target cached
    rw [adds.rest]
    exact found

theorem Proceeds.keepsReferences {first second : World} (proceeds : Proceeds first second)
    (alive : first.alive = true) (sound : first.SoundRefs) :
    first.KeepsReferences second ∧ second.SoundRefs := by
  induction proceeds with
  | refl => exact ⟨.refl first, sound⟩
  | run _ change ih =>
      obtain ⟨keeps, between⟩ := ih
      have later := change.soundRefs (keeps.alive.trans alive) between
      exact ⟨keeps.trans (.of_continues change.continues), later⟩
  | host _ change ih =>
      obtain ⟨keeps, between⟩ := ih
      exact ⟨keeps.trans change.keepsReferences, change.soundRefs between⟩

/-- However a session goes on, it keeps its references, and what they remember is right. -/
theorem World.GoesOn.keepsReferences {first second : World} (goesOn : GoesOn first second)
    (alive : first.alive = true) (sound : first.SoundRefs) :
    first.KeepsReferences second ∧ second.SoundRefs := by
  induction goesOn with
  | start => exact ⟨.refl first, sound⟩
  | proceed _ proceeds ih =>
      obtain ⟨keeps, between⟩ := ih
      obtain ⟨again, later⟩ := proceeds.keepsReferences (keeps.alive.trans alive) between
      exact ⟨keeps.trans again, later⟩
  | enlist _ enlists ih =>
      obtain ⟨keeps, between⟩ := ih
      exact ⟨keeps.trans (.enlists enlists), enlists.soundRefs between⟩

/-! ## Resolving a reference -/

/-- What resolving a reference gives in a state, and at any later time.  Whoever resolves it, the
host directly, the creation of annotations in runs, validation where it checks, or a walk to a base,
is told what the host is told when it asks for the class of the name. -/
structure World.ResolvesByName (world : World) (reference : ClassRefId) : Prop where
  direct : ∃ answer, Session.resolveClassRef reference world =
      (.done answer, world.touchRef reference) ∧
    Session.class? (world.classRefs.get reference).name world = (.done answer, world)
  inRuns : Exec.resolveRef? reference world =
    (.done (world.findClass? (world.classRefs.get reference).name), world.touchRef reference)
  checked : (follow reference).run world =
    (world.findClass? (world.classRefs.get reference).name, world.touchRef reference)
  walked : ∀ id, (world.cls id).base = some reference →
    world.base? id = world.findClass? (world.classRefs.get reference).name ∧
      Session.base? id world = (.done (world.base? id), world.touchRef reference)
  named : ∀ later, GoesOn world later →
    (later.classRefs.get reference).name = (world.classRefs.get reference).name
  /-- Where there is no class of the name, nothing changes, and later there may be one. -/
  failed : world.findClass? (world.classRefs.get reference).name = none →
    world.touchRef reference = world ∧ (world.classRefs.get reference).target = none ∧
      ∀ later id, GoesOn world later →
        later.findClass? (world.classRefs.get reference).name = some id →
          Session.resolveClassRef reference later = (.done (some id), later.touchRef reference) ∧
            ((later.touchRef reference).classRefs.get reference).target = some id
  resolved : ∀ id, world.findClass? (world.classRefs.get reference).name = some id →
    ((world.touchRef reference).classRefs.get reference).target = some id
  /-- A class that is remembered is remembered for good, and stays the definition that it is. -/
  kept : ∀ id, (world.classRefs.get reference).target = some id → ∀ later, GoesOn world later →
    (later.classRefs.get reference).target = some id ∧
      Session.resolveClassRef reference later = (.done (some id), later) ∧
      (later.cls id).name = (world.classRefs.get reference).name ∧
      (later.cls id).declared = (world.cls id).declared

section

variable {world : World} {reference : ClassRefId}

theorem World.touchRef_of_missing (missing : world.target? reference = none) :
    world.touchRef reference = world := by
  unfold touchRef
  rw [missing]

theorem World.SoundRefs.unresolved (sound : world.SoundRefs)
    (missing : world.findClass? (world.classRefs.get reference).name = none) :
    (world.classRefs.get reference).target = none := by
  cases cached : (world.classRefs.get reference).target with
  | none => rfl
  | some target =>
      rw [sound reference target cached] at missing
      cases missing

/-- A walk to a base resolves the reference to it. -/
theorem base?_of_based {id : ClassId} (based : (world.cls id).base = some reference) :
    world.base? id = world.target? reference ∧
      Session.base? id world = (.done (world.target? reference), world.touchRef reference) := by
  constructor
  · unfold World.base?
    rw [based]
    rfl
  · unfold Session.base?
    rw [Exec.get_bind_apply, based]
    rfl

section

variable (alive : world.alive = true)
include alive

theorem resolveClassRef_of_alive :
    Session.resolveClassRef reference world =
      (.done (world.target? reference), world.touchRef reference) := by
  unfold Session.resolveClassRef
  rw [Exec.bind_of_done _ (Exec.requireAssembly_of_alive alive)]
  rfl

theorem class?_of_alive (name : String) :
    Session.class? name world = (.done (world.findClass? name), world) := by
  unfold Session.class?
  rw [Exec.bind_of_done _ (Exec.requireAssembly_of_alive alive)]
  rfl

/-- A reference that stands for a class remembers that class once it was resolved. -/
theorem World.target_touchRef_of_stands {id : ClassId}
    (inside : reference.index < world.classRefs.size) (stands : world.target? reference = some id) :
    ((world.touchRef reference).classRefs.get reference).target = some id := by
  obtain ⟨target, cached⟩ := Option.isSome_iff_exists.mp (remembered_touchRef inside stands)
  have still := (world.target?_touchRef reference reference).trans stands
  unfold target? at still
  simp only [alive_touchRef, alive, if_true, cached] at still
  rw [cached, still]

end

end

namespace World.KeepsReferences

variable {before after : World} {reference : ClassRefId}

/-- A reference stands for the class of the name that it had. -/
theorem target?_eq (keeps : KeepsReferences before after) (sound : after.SoundRefs)
    (alive : before.alive = true) (inside : reference.index < before.classRefs.size) :
    after.target? reference = after.findClass? (before.classRefs.get reference).name := by
  rw [target?_of_sound sound (keeps.alive.trans alive), keeps.names reference inside]

theorem target_eq (keeps : KeepsReferences before after) {id : ClassId}
    (cached : (before.classRefs.get reference).target = some id) :
    (after.classRefs.get reference).target = some id := by
  rw [keeps.remembered reference (by rw [cached]; rfl), cached]

end World.KeepsReferences

/-- In every state of a session, and whatever the session does later, resolving a reference cannot
be told from asking for the class of its name. -/
theorem World.references_resolve {config : Config} {marshaling : MarshalRules} {world : World}
    (reached : GoesOn (.initial config marshaling) world) {reference : ClassRefId}
    (inside : reference.index < world.classRefs.size) : world.ResolvesByName reference := by
  have nothing : (World.initial config marshaling).SoundRefs := fun _ _ cached => by cases cached
  obtain ⟨since, sound⟩ := reached.keepsReferences rfl nothing
  have alive : world.alive = true := since.alive
  have stands := target?_of_sound sound alive reference
  exact {
    direct := by
      refine ⟨_, resolveClassRef_of_alive alive, ?_⟩
      rw [class?_of_alive alive, stands]
    inRuns := by
      rw [← stands]
      rfl
    checked := by
      rw [← stands]
      rfl
    walked := by
      intro id based
      obtain ⟨base, walks⟩ := base?_of_based based
      rw [walks, base]
      exact ⟨stands, rfl⟩
    named := fun later goesOn => (goesOn.keepsReferences alive sound).1.names reference inside
    failed := by
      intro missing
      refine ⟨touchRef_of_missing (stands.trans missing), sound.unresolved missing, ?_⟩
      intro later id goesOn found
      obtain ⟨keeps, right⟩ := goesOn.keepsReferences alive sound
      have means := (keeps.target?_eq right alive inside).trans found
      have lives := keeps.alive.trans alive
      rw [resolveClassRef_of_alive lives, means]
      refine ⟨rfl, target_touchRef_of_stands lives ?_ means⟩
      exact Nat.lt_of_lt_of_le inside keeps.refs
    resolved := fun id found => target_touchRef_of_stands alive inside (stands.trans found)
    kept := by
      intro id cached later goesOn
      obtain ⟨keeps, right⟩ := goesOn.keepsReferences alive sound
      have found := sound reference id cached
      have remembered := keeps.target_eq cached
      have means := (keeps.target?_eq right alive inside).trans (keeps.found _ id found)
      have known : (later.classRefs.get reference).target.isSome := by rw [remembered]; rfl
      have reachable : Reachable world := ⟨config, marshaling, reached⟩
      have registered := reachable.sound.2.registered
      have still := (reachable.goesOn goesOn).sound.2.registered
      refine ⟨remembered, ?_, ?_, keeps.declared id (registered.findClass?_eq_some found).1⟩
      · rw [resolveClassRef_of_alive (keeps.alive.trans alive), means,
          later.touchRef_of_remembered known]
      · exact (still.findClass?_eq_some (keeps.found _ id found)).2 }

/-- A class whose base is not there yet. -/
def baseMissing : World :=
  (Command.define (bareClass "B" (some "A") [] [])).after (.initial default .standard)

/-- Its base is defined, after a definition that was refused. -/
def baseDefined : World :=
  (Command.define (bareClass "A" none [] [])).after
    ((Command.define (bareClass "B" none [] [])).after baseMissing)

theorem references_resolve_base :
    baseMissing.touchRef ⟨0⟩ = baseMissing ∧
    Session.resolveClassRef ⟨0⟩ baseDefined = (.done (some ⟨1⟩), baseDefined.touchRef ⟨0⟩) ∧
    (((Command.define (bareClass "A" (some "B") [] [])).after
      (baseDefined.touchRef ⟨0⟩)).classRefs.get ⟨0⟩).target = some ⟨1⟩ := by
  have missing : GoesOn (.initial default .standard) baseMissing :=
    .command (.start _) (.define _) trivial
  have since : GoesOn baseMissing baseDefined :=
    .command (.command (.start _) (.define _) trivial) (.define _) trivial
  have defined : GoesOn (.initial default .standard) baseDefined :=
    .command (.command missing (.define _) trivial) (.define _) trivial
  have early : baseMissing.ResolvesByName ⟨0⟩ := references_resolve missing (by decide +kernel)
  have touched : Proceeds baseDefined (baseDefined.touchRef ⟨0⟩) := .run (.refl _) (.touch ⟨0⟩)
  have late : (baseDefined.touchRef ⟨0⟩).ResolvesByName ⟨0⟩ :=
    references_resolve (.proceed defined touched) (by decide +kernel)
  obtain ⟨unchanged, _, succeeds⟩ := early.failed (by decide +kernel)
  obtain ⟨resolves, remembers⟩ := succeeds baseDefined ⟨1⟩ since (by decide +kernel)
  have again : GoesOn (baseDefined.touchRef ⟨0⟩) _ :=
    .command (.start _) (.define (bareClass "A" (some "B") [] [])) trivial
  exact ⟨unchanged, resolves, (late.kept ⟨1⟩ remembers _ again).1⟩

end ScriptObjects

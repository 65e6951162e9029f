import ScriptObjects.Proofs.Wrapping

/-!
# Host objects of the described type

A class may describe a host type.  What a level of the class falls back to, and what is wrapped in an
instance of the class, is of that type.  A host constructor is not asked what it makes: it binds its
level to an object of any type, and the level goes on yielding that object.  So a level yields an object
of the described type, unless one of its own host constructors made another one, or the host bound it
to another one by hand.
-/

namespace ScriptObjects

set_option autoImplicit false

open Exec World

section

variable {world after : World} {receiver : Receiver} {level : Level} {host : HostId}
  {type : HostType}

/-- A level that is not bound, or bound to what its instance holds, or else to an object of a type,
yields objects of that type only, if its class describes it. -/
theorem type_of_rebound {before : World} (linked : world.WellLinked)
    (rebound : before.Rebound receiver (· = type) world) (unbound : before.bound? receiver = none)
    (sits : world.level? receiver.owner receiver.level = some level)
    (described : (world.cls level.cls).described = some type)
    (yields : levelHost receiver world = (.done host, after)) :
    (after.hosts.get host).type = type := by
  have stated : (world.references.get level.reference).described = some type :=
    (linked.described sits).trans described
  rw [levelHost_of_level sits] at yields
  cases bound : (world.references.get level.reference).bound with
  | none =>
      cases falls : world.fallback? (world.references.get level.reference) with
      | none =>
          rw [resolveReference_of_nowhere bound falls] at yields
          cases yields
      | some fallen =>
          rw [resolveReference_of_fallback bound falls] at yields
          cases yields
          obtain ⟨_, _, _, fits⟩ := held_of_fallback? falls
          rw [stated] at fits
          exact (of_decide_eq_true fits).symm
  | some own =>
      rw [resolveReference_of_bound bound] at yields
      cases yields
      have held : world.bound? receiver = some host := (bound?_eq sits).trans bound
      obtain explains | kind := rebound.of_unbound unbound held
      · have fits := explains.described level sits
        rw [stated] at fits
        exact (of_decide_eq_true fits).symm
      · exact kind

/-- In every state of a session, a level whose class describes a host type yields an object of that
type if it yields any, unless it was bound before to an object of another type, by a host constructor
that was called for this very level or by the host itself. -/
theorem yields_described_type {config : Config} {marshaling : MarshalRules}
    (visits : Visits (Occasion.Binds receiver (· ≠ type)) (.initial config marshaling) world)
    (sits : world.level? receiver.owner receiver.level = some level)
    (described : (world.cls level.cls).described = some type)
    (yields : Session.resolveLevel receiver.owner receiver.level world = (.done host, after)) :
    (after.hosts.get host).type = type := by
  have relinks := visits.relinks (wellLinked_initial config marshaling) fun _ =>
    inOrder_initial config marshaling
  exact type_of_rebound relinks.linked relinks.rebound rfl sits described yields

end

namespace World

/-- The first level of the instance that wraps the counter is bound without a constructor. -/
theorem course_dialWrapped : Course (Occasion.Binds ⟨⟨0⟩, 0⟩ (· ≠ .counter))
    (.initial default .standard) dialWrapped := by
  have others : ((Operation.wrap ⟨0⟩).account.inquiries (performUpTo 6) (inquiriesUpTo 6)
      dialReady).all (fun inquiry => inquiry.target? ≠ some ⟨⟨0⟩, 0⟩) = true := by decide +kernel
  refine course_dialReady.command (.operate 6 (.wrap ⟨0⟩))
    (show 0 < dialReady.hosts.size from by decide +kernel) fun occasion member binds => ?_
  obtain ⟨inquiry, made, rfl⟩ := List.mem_map.mp member
  have bound : inquiry.Binds ⟨⟨0⟩, 0⟩ (· ≠ .counter) := binds
  exact of_decide_eq_true (List.all_eq_true.mp others inquiry made) bound.target?

theorem yields_described_type_dial : ∃ level after, dialWrapped.level? ⟨0⟩ 0 = some level ∧
    (dialWrapped.cls level.cls).described = some .counter ∧
    Session.resolveLevel ⟨0⟩ 0 dialWrapped = (.done ⟨0⟩, after) ∧
    (after.hosts.get ⟨0⟩).type = .counter := by
  obtain ⟨level, sits, described⟩ := Option.map_eq_some_iff.mp
    (show (dialWrapped.level? ⟨0⟩ 0).map (fun level => (dialWrapped.cls level.cls).described) =
      some (some .counter) from by decide +kernel)
  have yields : Session.resolveLevel ⟨0⟩ 0 dialWrapped = (.done ⟨0⟩, _) :=
    done_of_result? (by decide +kernel)
  exact ⟨level, _, sits, described, yields,
    @yields_described_type dialWrapped _ ⟨⟨0⟩, 0⟩ level ⟨0⟩ .counter default .standard
      (.between course_dialWrapped) sits described yields⟩

/-- A class for vectors whose constructor makes counters. -/
def misfitSpec : ClassSpec :=
  ⟨"Misfit", .ordinary, none, [],
    [⟨constructorName, .global, .ordinary, .any, .hostConstructor ⟨[.int], .counter⟩, [], none⟩], [],
    some .vector, none⟩

/-- An instance of it is created. -/
def misfitCreated : World :=
  Command.after (Command.after (.initial default .standard) (.define misfitSpec))
    (.operate 6 (.create "Misfit" .standard [.int 1]))

/-- The constructor binds the level to a counter, though its class describes vectors. -/
theorem constructor_binds_other_type : ¬ ∀ config marshaling world,
    Visits Anything (.initial config marshaling) world →
    ∀ (receiver : Receiver) (level : Level) (type : HostType) (host : HostId) (after : World),
      world.level? receiver.owner receiver.level = some level →
      (world.cls level.cls).described = some type →
      Session.resolveLevel receiver.owner receiver.level world = (.done host, after) →
      (after.hosts.get host).type = type := by
  intro claim
  have created : Course Anything (.initial default .standard) misfitCreated :=
    ((Course.start _).command (.define misfitSpec) trivial fun _ _ barred => barred).command
      (.operate 6 (.create "Misfit" .standard [.int 1])) (has_cons trivial has_nil)
      fun _ _ barred => barred
  obtain ⟨level, sits, described⟩ := Option.map_eq_some_iff.mp
    (show (misfitCreated.level? ⟨0⟩ 0).map (fun level => (misfitCreated.cls level.cls).described) =
      some (some .vector) from by decide +kernel)
  have yields : Session.resolveLevel ⟨0⟩ 0 misfitCreated = (.done ⟨1⟩, _) :=
    done_of_result? (by decide +kernel)
  have vector := claim _ _ misfitCreated (.between created) ⟨⟨0⟩, 0⟩ level .vector ⟨1⟩ _ sits described
    yields
  have counter : ((Session.resolveLevel ⟨0⟩ 0 misfitCreated).2.hosts.get ⟨1⟩).type = .counter := by
    decide +kernel
  exact absurd (vector.symm.trans counter) (by decide)

end World

end ScriptObjects

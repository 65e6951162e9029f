import ScriptObjects.Proofs.Faults
import ScriptObjects.Proofs.Settled

/-!
# Fields of constructed instances

A construction that declares all fields and succeeds leaves a variable for every field
of every level, in the store of the field's tier.  Nothing removes it later.
-/

namespace ScriptObjects

set_option autoImplicit false

open Exec

namespace World

/-- A level has the variable of a field. -/
def HasField (world : World) (level : Level) (field : Field) : Prop :=
  ∃ slot, (world.store (level.declarations field.access)).slot? field.name = some slot ∧
    slot.immutable = false

/-- The levels of an instance have the variables of all fields of their classes. -/
def HasFields (world : World) (id : InstanceId) : Prop :=
  ∀ place level, world.level? id place = some level →
    ∀ field ∈ (world.cls level.cls).fields, world.HasField level field

theorem HasField.later {before after : World} {level : Level} {field : Field}
    (has : before.HasField level field) (proceeds : Proceeds before after) :
    after.HasField level field := by
  obtain ⟨slot, found, isMutable⟩ := has
  obtain ⟨later, still, persists⟩ := proceeds.keepsVariables _ _ slot found isMutable
  exact ⟨later, still, persists.immutable.trans isMutable⟩

/-- An instance that exists keeps its levels. -/
theorem Continues.level?_eq {before after : World} (continues : before.Continues after)
    {id : InstanceId} (inside : id.index < before.instances.size) (place : Nat) :
    after.level? id place = before.level? id place := by
  unfold World.level?
  rw [(continues.objects id inside).2]

theorem HasFields.later {before after : World} {id : InstanceId} (has : before.HasFields id)
    (alive : before.alive = true) (sound : before.Sound) (inside : id.index < before.instances.size)
    (proceeds : Proceeds before after) : after.HasFields id := by
  have continues := (proceeds.sound_continues alive sound).2
  intro place level sits field member
  rw [continues.level?_eq inside] at sits
  rw [continues.hierarchy.ask ClassDef.fields fun _ => rfl] at member
  exact (has place level sits field member).later proceeds

/-- The instance has the variables of all fields of its classes, which are registered. -/
structure Furnished (world : World) (id : InstanceId) : Prop where
  inside : id.index < world.instances.size
  registered : ∀ level ∈ (world.object id).levels, level.cls.index < world.classes.size
  fields : world.HasFields id

namespace Furnished

variable {before after : World} {id : InstanceId}

theorem later (furnished : before.Furnished id) (alive : before.alive = true)
    (sound : before.Sound) (proceeds : Proceeds before after) : after.Furnished id where
  inside := by
    have continues := (proceeds.sound_continues alive sound).2
    exact Nat.lt_of_lt_of_le furnished.inside continues.instances
  registered := by
    have continues := (proceeds.sound_continues alive sound).2
    rw [(continues.objects id furnished.inside).2, continues.hierarchy.size]
    exact furnished.registered
  fields := furnished.fields.later alive sound furnished.inside proceeds

/-- Definitions add no fields to classes that are registered. -/
theorem enlists (furnished : before.Furnished id) (alive : before.alive = true)
    (sound : before.Sound) (enlists : Enlists before after) : after.Furnished id := by
  have grows := enlists.extends_ alive sound.registered
  have object : after.object id = before.object id := by rw [enlists.rest]; rfl
  refine ⟨by rw [enlists.rest]; exact furnished.inside, fun level member => ?_, ?_⟩
  · rw [object] at member
    exact Nat.lt_of_lt_of_le (furnished.registered level member) grows.size
  · intro place level sits field member
    unfold World.level? at sits
    rw [object] at sits
    rw [grows.cls level.cls (furnished.registered level (List.mem_of_getElem? sits))] at member
    have has := furnished.fields place level sits field member
    unfold HasField World.store at has ⊢
    rw [enlists.rest]
    exact has

theorem goesOn (furnished : before.Furnished id) (reachable : Reachable before)
    (goesOn : GoesOn before after) : after.Furnished id := by
  induction goesOn with
  | start => exact furnished
  | proceed goes proceeds ih =>
      obtain ⟨alive, sound⟩ := (reachable.goesOn goes).sound
      exact ih.later alive sound proceeds
  | enlist goes enlists ih =>
      obtain ⟨alive, sound⟩ := (reachable.goesOn goes).sound
      exact ih.enlists alive sound enlists

end Furnished

end World

/-! ## The construction protocol -/

section

variable {perform : Perform} (nested : perform.Leads) {options : CreateOptions}
  (wanted : ∀ field : Field, options.has field.flag = true) {context : ContextId}
include nested wanted

theorem constructField_done {className : String} {receiver : Receiver} {level : Level}
    {field : Field} {world after : World} (sound : world.Sound)
    (sits : world.level? receiver.owner receiver.level = some level)
    (done : constructField perform className receiver level options context field world =
      (.done (), after)) : after.HasField level field := by
  rw [constructField_of_wanted (wanted field)] at done
  obtain ⟨_, between, declared, rest⟩ := bind_done done
  have inserted : insertSlot (level.declarations field.access) field.name
      (fieldSlot field level.reference) world = (.done (), between) := wrapFault_done declared
  have has : between.HasField level field := by
    cases taken : (world.store (level.declarations field.access)).declares field.name with
    | true =>
        rw [insertSlot_of_declared _ taken] at inserted
        cases inserted
    | false =>
        rw [insertSlot_of_free _ taken] at inserted
        cases inserted
        refine ⟨fieldSlot field level.reference, ?_, fieldSlot_immutable field _⟩
        rw [World.store_withStore, if_pos ⟨rfl, sound.laid.level_inside sits _⟩]
        exact Store.slot?_insert_same _ _ taken
  have leads : LeadsFreely (do
      annotateField perform className receiver level options context field
      fillField perform receiver level options context field : Exec Unit) :=
    .bind (annotateField_tracks (nested.tracks _ _) (declareOnly_all _) className receiver level
        options context).leads
      fun _ => (fillField_tracks (nested.tracks _ _) (declareOnly_all _) receiver level options
        context).leads
  have proceeds := leads.proceeds between
  rw [rest] at proceeds
  exact has.later proceeds

theorem constructFields_done {className : String} {receiver : Receiver} {level : Level}
    {fields : List Field} {world after : World} (alive : world.alive = true)
    (sound : world.Sound)
    (sits : world.level? receiver.owner receiver.level = some level)
    (declared : ∀ field ∈ fields, field ∈ (world.cls level.cls).fields)
    (done : constructFields perform className receiver level options context fields world =
      (.done (), after)) : ∀ field ∈ fields, after.HasField level field := by
  induction fields generalizing world with
  | nil => exact fun _ member => (List.not_mem_nil member).elim
  | cons field rest ih =>
      obtain ⟨_, between, first, last⟩ := bind_done done
      have here := constructField_done nested wanted sound sits first
      have before : Proceeds world between := by
        have leads : LeadsAt (fun _ => True) (fun _ => True) (constructField perform className
            receiver level options context field) world :=
          (constructField_tracksAt (nested.tracks _ _) trivial sits
            (declared field List.mem_cons_self) options context).leads
        have proceeds := leads.proceeds
        rw [first] at proceeds
        exact proceeds
      obtain ⟨later, continues⟩ := before.sound_continues alive sound
      have same := continues.hierarchy.ask ClassDef.fields (fun _ => rfl) level.cls
      have remains : ∀ other ∈ rest, other ∈ (between.cls level.cls).fields := by
        intro other member
        rw [same]
        exact declared other (List.mem_cons_of_mem field member)
      have after_rest : Proceeds between after := by
        have leads : LeadsAt (fun _ => True) (fun _ => True) (constructFields perform className
            receiver level options context rest) between :=
          (constructFields_tracksAt (nested.tracks _ _) trivial options context
            (continues.level? sits) remains).leads
        have proceeds := leads.proceeds
        rw [last] at proceeds
        exact proceeds
      intro other member
      rcases List.mem_cons.mp member with rfl | further
      · exact here.later after_rest
      · exact ih (continues.alive.trans alive) later (continues.level? sits) remains last other
          further

theorem constructLevel_done {id : InstanceId} {place : Nat} {level : Level} {world after : World}
    (alive : world.alive = true) (sound : world.Sound) (sits : world.level? id place = some level)
    (done : constructLevel perform id options context place world = (.done (), after)) :
    ∀ field ∈ (world.cls level.cls).fields, after.HasField level field := by
  rw [constructLevel_of_some sits] at done
  obtain ⟨_, between, annotated, filled⟩ := bind_done done
  have leads : LeadsFreely (annotateLevel perform id options context place
      (world.cls level.cls)) :=
    (annotateLevel_tracks (nested.tracks _ _) (declareOnly_all _) id options context place).leads
  have before := leads.proceeds world
  rw [annotated] at before
  obtain ⟨later, continues⟩ := before.sound_continues alive sound
  have same := continues.hierarchy.ask ClassDef.fields (fun _ => rfl) level.cls
  refine constructFields_done nested wanted (continues.alive.trans alive) later
    (continues.level? sits) (fun field member => ?_) filled
  rw [same]
  exact member

theorem constructLevels_done {id : InstanceId} {count : Nat} {world after : World}
    (alive : world.alive = true) (sound : world.Sound)
    (done : constructLevels perform id options context count world = (.done (), after)) :
    ∀ place < count, ∀ level, world.level? id place = some level →
      ∀ field ∈ (world.cls level.cls).fields, after.HasField level field := by
  induction count generalizing world with
  | zero => exact fun place inside => absurd inside (Nat.not_lt_zero place)
  | succ count ih =>
      obtain ⟨_, between, first, last⟩ := bind_done done
      have one : LeadsFreely (constructLevel perform id options context count) :=
        (constructLevel_tracks (nested.tracks _ _) trivial options context count).leads
      have others : LeadsFreely (constructLevels perform id options context count) :=
        (constructLevels_tracks (nested.tracks _ _) trivial options context count).leads
      have before := one.proceeds world
      rw [first] at before
      have rest := others.proceeds between
      rw [last] at rest
      obtain ⟨later, continues⟩ := before.sound_continues alive sound
      have same := fun cls => continues.hierarchy.ask ClassDef.fields (fun _ => rfl) cls
      intro place inside level sits field member
      rcases Nat.lt_succ_iff_lt_or_eq.mp inside with earlier | rfl
      · refine ih (continues.alive.trans alive) later last place earlier level
          (continues.level? sits) field ?_
        rw [same]
        exact member
      · exact (constructLevel_done nested wanted alive sound sits first field member).later rest

/-- A construction that declares all fields and succeeds leaves them all. -/
theorem constructInstance_done {id : InstanceId} {args : List Value} {world after : World}
    (alive : world.alive = true) (sound : world.Sound) (inside : id.index < world.instances.size)
    (done : constructInstance perform id options args world = (.done (), after)) :
    after.HasFields id := by
  have leads : LeadsFreely (constructInstance perform id options args) :=
    (constructInstance_tracks (nested.tracks _ _) Regime.idle_pushes trivial options args).leads
  have proceeds := leads.proceeds world
  rw [done] at proceeds
  have whole := (proceeds.sound_continues alive sound).2
  cases initialized : (world.object id).initialized with
  | true =>
      rw [constructInstance_of_initialized initialized] at done
      cases done
  | false =>
      rw [constructInstance_of_new initialized] at done
      obtain ⟨context, started, opened, rest⟩ := bind_done done
      obtain ⟨_, between, built, finished⟩ := bind_done rest
      have opens : LeadsFreely (constructionContext options) := constructionContext_leads options
      have first := opens.proceeds world
      rw [opened] at first
      have finishes : LeadsFreely
          (finishInstance perform id options args (world.classOf id).name context) :=
        (finishInstance_tracks (nested.tracks _ _) Regime.idle_pushes id options args _).leads
      have last := finishes.proceeds between
      rw [finished] at last
      obtain ⟨later, continues⟩ := first.sound_continues alive sound
      intro place level sits field member
      rw [whole.level?_eq inside] at sits
      rw [whole.hierarchy.ask ClassDef.fields fun _ => rfl] at member
      have within : place < (world.object id).levels.length := by
        unfold World.level? at sits
        exact (List.getElem?_eq_some_iff.mp sits).1
      have has := constructLevels_done nested wanted (continues.alive.trans alive) later built place
        within level (continues.level? sits) field (by
          rw [continues.hierarchy.ask ClassDef.fields fun _ => rfl]
          exact member)
      exact has.later last

end

/-- Standard options ask for the declaration of every field. -/
theorem standard_declares {options : CreateOptions} (standard : options.flags = .standard)
    (field : Field) : options.has field.flag = true := by
  unfold CreateOptions.has Field.flag
  rw [standard]
  split <;> rfl

/-- An instance that was constructed with standard options has its fields from then on. -/
theorem performUpTo_construct_fields {budget : Nat} {id : InstanceId} {options : CreateOptions}
    {args : List Value} {before after : World} (alive : before.alive = true) (sound : before.Sound)
    (inside : id.index < before.instances.size) (standard : options.flags = .standard)
    (done : performUpTo budget (.construct id options args) before = (.done (), after)) :
    after.HasFields id := by
  cases budget with
  | zero => cases done
  | succ budget =>
      exact constructInstance_done (performUpTo_leads budget) (standard_declares standard)
        alive sound inside done

end ScriptObjects

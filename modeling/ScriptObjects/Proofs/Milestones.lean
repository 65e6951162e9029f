import Mathlib.Data.List.Forall2
import ScriptObjects.Proofs.Underway

/-!
# What the parts of a construction leave behind

A part of a construction that succeeds leaves something that stays until the end.  Creating
annotations leaves one new instance for each use, of the class that the use names, in order.
Declaring a field leaves a slot with the instances of its annotations, and initializing it
leaves a value there.  A level that is done leaves the instances of its class annotations
attached behind those of the levels below.
-/

namespace ScriptObjects

set_option autoImplicit false

open Exec

/-! ## What the options ask for -/

/-- The annotations of a field that are created. -/
def Field.wanted (options : CreateOptions) (field : Field) : List (AnnotationUse ClassRefId) :=
  if options.has .createFieldAnnotations then field.annotations else []

/-- The annotations of a class that are created. -/
def ClassDef.wanted (options : CreateOptions) (cls : ClassDef) : List (AnnotationUse ClassRefId) :=
  if options.has .createAnnotations then cls.annotations else []

/-- Whether a field has an initializer. -/
def Field.isInitialized (field : Field) : Bool :=
  match field.storage with
  | .script (some _) => true
  | .script none | .host _ => false

/-- Whether a field is declared and assigned. -/
def Field.isAssigned (options : CreateOptions) (field : Field) : Bool :=
  options.has field.flag && options.has .assignScriptFields && field.isInitialized

namespace World

/-! ## Instances of annotations -/

/-- An instance was made for an annotation use since the start. -/
structure Makes (start now : World) (use : AnnotationUse ClassRefId) (created : InstanceId) :
    Prop extends Newcomer start now created where
  target : start.target? use.cls = some (now.object created).cls

theorem Makes.later {start now next : World} {use : AnnotationUse ClassRefId}
    {created : InstanceId} (makes : Makes start now use created)
    (continues : now.Continues next) : Makes start next use created where
  toNewcomer := makes.toNewcomer.later continues
  target := by
    rw [makes.target, (continues.objects created makes.inside).1]

/-- Instances were made for annotation uses, in order. -/
def MakesAll (start now : World) (uses : List (AnnotationUse ClassRefId))
    (created : List InstanceId) : Prop :=
  List.Forall₂ (Makes start now) uses created

theorem MakesAll.later {start now next : World} {uses : List (AnnotationUse ClassRefId)}
    {created : List InstanceId} (makes : MakesAll start now uses created)
    (continues : now.Continues next) : MakesAll start next uses created :=
  makes.imp fun _ _ one => one.later continues

theorem MakesAll.newcomer {start now : World} {uses : List (AnnotationUse ClassRefId)}
    {created : List InstanceId} (makes : MakesAll start now uses created) {id : InstanceId}
    (member : id ∈ created) : Newcomer start now id := by
  induction makes with
  | nil => cases member
  | cons first _ ih =>
      obtain rfl | member := List.mem_cons.mp member
      · exact first.toNewcomer
      · exact ih member

/-! ## Slots of fields -/

/-- A field has a slot with instances of the annotations that it is to have. -/
def Dressed (start now : World) (options : CreateOptions) (level : Level) (field : Field) : Prop :=
  ∃ slot, (now.store (level.declarations field.access)).slot? field.name = some slot ∧
    MakesAll start now (field.wanted options) slot.annotations ∧
    ∀ initializer, field.storage = .script initializer → ∃ value, slot.content = .script value

theorem Dressed.later {start now next : World} {options : CreateOptions} {level : Level}
    {field : Field} {except : InstanceId → Prop} (dressed : Dressed start now options level field)
    (spares : Spares except now next) : Dressed start next options level field := by
  obtain ⟨slot, found, makes, content⟩ := dressed
  obtain ⟨later, still, stays, persists⟩ := spares.slot found
  refine ⟨later, still, ?_, fun initializer script => ?_⟩
  · rw [stays.annotations]
    exact makes.later spares.evolves.continues
  · obtain ⟨value, held⟩ := content initializer script
    exact persists.script value held

/-- A field has a value of its own. -/
def Filled (world : World) (level : Level) (field : Field) : Prop :=
  ∃ slot value, (world.store (level.declarations field.access)).slot? field.name = some slot ∧
    slot.content = .script (some value)

theorem Filled.later {now next : World} {level : Level} {field : Field}
    {except : InstanceId → Prop} (filled : now.Filled level field)
    (spares : Spares except now next) : next.Filled level field := by
  obtain ⟨slot, value, found, content⟩ := filled
  obtain ⟨later, still, stays⟩ := spares.slots _ _ slot found
  obtain ⟨last, held⟩ := stays.assigned value content
  exact ⟨later, last, still, held⟩

/-- On the levels from a place on every field that is declared and has an initializer is
assigned. -/
def FilledFrom (world : World) (id : InstanceId) (options : CreateOptions) (count : Nat) : Prop :=
  ∀ place level field, count ≤ place → world.level? id place = some level →
    field ∈ (world.cls level.cls).fields → field.isAssigned options = true →
    world.Filled level field

theorem FilledFrom.later {now next : World} {id : InstanceId} {options : CreateOptions}
    {count : Nat} {except : InstanceId → Prop} (filled : now.FilledFrom id options count)
    (inside : id.index < now.instances.size) (spares : Spares except now next) :
    next.FilledFrom id options count := by
  have continues := spares.evolves.continues
  intro place level field beyond sits member assigned
  rw [continues.level?_eq inside] at sits
  rw [continues.hierarchy.ask ClassDef.fields fun _ => rfl] at member
  exact (filled place level field beyond sits member assigned).later spares

end World

open World

/-! ## Annotations -/

section

variable {perform : Perform} (nested : perform.Sparing) {start now next : World}
include nested

theorem createAnnotation_done (underway : Underway start now) (laid : start.LaidOut)
    {use : AnnotationUse ClassRefId} {target : String} {receiver : Option Receiver}
    {context : ContextId} {created : InstanceId}
    (done : createAnnotation perform use target receiver context now = (.done created, next)) :
    Makes start next use created := by
  unfold createAnnotation at done
  rw [get_bind_apply] at done
  obtain ⟨found, between, resolved, rest⟩ := bind_done done
  have same : start.target? use.cls = found :=
    (underway.targets use.cls).symm.trans (Outcome.done.inj (Prod.mk.inj resolved).1)
  cases found with
  | none => cases rest
  | some id =>
      dsimp only at rest
      have resolves := Sparing.still (resolveRef?_leads use.cls) (resolveRef?_still use.cls)
      have underway := underway.later ((resolves (fun _ => True) now).ends underway.live resolved)
      obtain ⟨args, ready, evaluated, made⟩ := bind_done (wrapFault_done rest)
      have evaluates := evaluateAll_sparing nested (some ⟨context, receiver, []⟩) use.args
      have underway := underway.later
        ((evaluates (fun _ => True) between).ends underway.live evaluated)
      obtain ⟨fresh, allocated, allocates, constructed⟩ := bind_done made
      obtain ⟨_, last, constructed, ends⟩ := bind_done constructed
      cases ends
      obtain ⟨newcomer, cls, _, _⟩ := newInstance_fresh allocates
      obtain ⟨rfl, rfl⟩ := newInstance_done allocates
      have new := underway.continues.instances
      have underway := underway.later (@Spares.newInstance (fun _ => True) ready id)
      have constructs := (nested.construct ready.instances.next
        ⟨CreateFlags.standard.insert .enforceCreation, some context⟩ args _).ends underway.live
        constructed
      have makes : Makes start _ use ready.instances.next :=
        ⟨⟨newcomer.inside, newcomer.chain, fun place level sits tier =>
          underway.empty_of_new laid new sits tier⟩, same.trans (congrArg some cls.symm)⟩
      exact makes.later constructs.evolves.continues

theorem createAnnotations_done (underway : Underway start now) (laid : start.LaidOut)
    {target : String} {receiver : Option Receiver} {context : ContextId}
    {uses : List (AnnotationUse ClassRefId)} {created : List InstanceId}
    (done : createAnnotations perform target receiver context uses now = (.done created, next)) :
    MakesAll start next uses created := by
  induction uses generalizing now created with
  | nil =>
      cases done
      exact .nil
  | cons use rest ih =>
      obtain ⟨first, between, one, rest⟩ := bind_done done
      obtain ⟨others, last, more, ends⟩ := bind_done rest
      cases ends
      have makes := createAnnotation_done nested underway laid one
      have creates := createAnnotation_sparing nested use target receiver context
      have underway := underway.later ((creates (fun _ => True) now).ends underway.live one)
      have creates := (createAnnotations_sparing nested target receiver context _
        (fun _ => True) between).ends underway.live more
      exact .cons (makes.later creates.evolves.continues) (ih underway more)

/-! ## Fields -/

omit nested in
theorem fieldSlot_script {field : Field} {initializer : Option Expr} (reference : ReferenceId)
    (script : field.storage = .script initializer) :
    fieldSlot field reference = .unassigned field.type := by
  unfold fieldSlot
  rw [script]

/-- A field whose slot is there has its annotations once they were created. -/
theorem annotateField_done (underway : Underway start now) (laid : start.LaidOut)
    {className : String} {receiver : Receiver} {level : Level} {field : Field}
    {options : CreateOptions} {context : ContextId} {slot : Slot}
    (placed : (now.store (level.declarations field.access)).slot? field.name = some slot)
    (bare : slot.annotations = [])
    (script : ∀ initializer, field.storage = .script initializer →
      ∃ value, slot.content = .script value)
    (done : annotateField perform className receiver level options context field now =
      (.done (), next)) : Dressed start next options level field := by
  let store := level.declarations field.access
  unfold annotateField at done
  split at done
  · next asked =>
      obtain ⟨flag, _⟩ := Bool.and_eq_true_iff.mp asked
      obtain ⟨created, between, creates, attached⟩ := bind_done done
      have makes := createAnnotations_done nested underway laid creates
      have spares := (createAnnotations_sparing nested _ _ _ _ (fun _ => True) now).ends
        underway.live creates
      obtain ⟨later, still, persists⟩ := spares.evolves.keepsSlots store field.name slot placed
      have present : (between.store store).declares field.name = true := by
        simp [Store.declares, still]
      have attached := wrapFault_done attached
      rw [annotateSlot_of_declared created present] at attached
      cases attached
      refine ⟨{ later with annotations := created }, ?_, ?_, fun initializer held => ?_⟩
      · exact slot?_withStore_modify still _
      · unfold Field.wanted
        rw [if_pos flag]
        exact makes.later (.withStore between store _ fun _ => rfl)
      · obtain ⟨value, content⟩ := script initializer held
        exact persists.script value content
  · next unasked =>
      cases done
      refine ⟨slot, placed, ?_, script⟩
      have none : field.wanted options = [] := by
        unfold Field.wanted
        split
        · next flag => simpa [flag] using unasked
        · rfl
      rw [none, bare]
      exact .nil

/-- A field that was declared, with its annotations, has its slot. -/
theorem declareAnnotated_done (underway : Underway start now) (laid : start.LaidOut)
    {className : String} {receiver : Receiver} {level : Level} {field : Field}
    {options : CreateOptions} {context : ContextId}
    (sits : now.level? receiver.owner receiver.level = some level)
    (declared : field ∈ (now.cls level.cls).fields)
    (done : (do
      declareField className level field
      annotateField perform className receiver level options context field : Exec Unit) now =
        (.done (), next)) : Dressed start next options level field := by
  let store := level.declarations field.access
  let slot := fieldSlot field level.reference
  cases taken : (now.store store).declares field.name with
  | true =>
      rw [bind_of_failed _ (declareField_of_declared className taken)] at done
      cases done
  | false =>
      rw [bind_of_done _ (declareField_of_free className taken)] at done
      have inserted : Spares (fun _ => True) now
          (now.withStore store (·.insert field.name slot)) :=
        declareField_spares underway.live sits declared taken
      refine annotateField_done nested (underway.later inserted) laid ?_
        (fieldSlot_annotations field level.reference) (fun initializer script => ?_) done
      · rw [store_withStore,
          if_pos ⟨rfl, underway.live.2.laid.level_inside sits field.access⟩]
        exact Store.slot?_insert_same _ _ taken
      · exact ⟨none, congrArg Slot.content (fieldSlot_script level.reference script)⟩

omit nested in
/-- What the hooks of a write let through is stored as the value. -/
theorem storeValue_done {id : StoreId} {name : String} {slot later : Slot} {value : Value}
    {old current : Option Value} (script : slot.content = .script old)
    (found : (now.store id).slot? name = some later) (held : later.content = .script current)
    (done : storeValue id name slot value now = (.done (), next)) :
    ∃ slot value, (next.store id).slot? name = some slot ∧ slot.content = .script (some value) := by
  rw [storeValue_of_script value script] at done
  split at done
  · cases done
    have still : ((now.resolveBases (now.visitedByAccepts slot.type value)).store id).slot? name =
        some later := by
      rw [resolveBases_eq]
      exact found
    refine ⟨_, slot.type.widen value, slot?_withStore_modify still _, ?_⟩
    unfold Slot.write
    rw [held]
  · cases done

theorem assignStore_done (live : now.Live) {id : StoreId} {name : String} {value : Value}
    {slot : Slot} {old : Option Value} (found : (now.store id).slot? name = some slot)
    (script : slot.content = .script old)
    (done : assignStore perform id name value now = (.done (), next)) :
    ∃ slot value, (next.store id).slot? name = some slot ∧ slot.content = .script (some value) := by
  have assigned : assignSlot perform id name value now = (.done (), next) := by
    unfold assignStore orElseMissing Exec.recover at done
    rcases ends : assignSlot perform id name value now with ⟨outcome, after⟩
    rw [ends] at done
    cases outcome with
    | done result => exact done
    | exhausted => cases done
    | failed fault =>
        dsimp only at done
        split at done
        · obtain ⟨made, last, _, thrown⟩ := bind_done done
          cases made <;> cases thrown
        · cases done
  cases held : slot.immutable with
  | true =>
      rw [assignSlot_of_immutable perform value found held] at assigned
      cases assigned
  | false =>
      rw [assignSlot_of_mutable perform value found held] at assigned
      obtain ⟨result, between, hooks, stored⟩ := bind_done assigned
      have spares := (writeHooks_sparing nested id name slot value (fun _ => True) now).ends live
        hooks
      obtain ⟨later, still, persists⟩ := spares.evolves.keepsSlots id name slot found
      obtain ⟨current, content⟩ := persists.script old script
      exact storeValue_done script still content stored

end

section

variable {inner : Perform} (nested : inner.Sparing) {start now next : World}
include nested

/-- A field that was declared is assigned by its initializer. -/
theorem fillField_fills (live : now.Live) {receiver : Receiver} {level : Level}
    {options : CreateOptions} {context : ContextId} {field : Field}
    (dressed : Dressed start now options level field)
    (assigned : field.isAssigned options = true)
    (done : fillField (step inner) receiver level options context field now = (.done (), next)) :
    next.Filled level field := by
  unfold Field.isAssigned at assigned
  obtain ⟨flags, initialized⟩ := Bool.and_eq_true_iff.mp assigned
  obtain ⟨_, flag⟩ := Bool.and_eq_true_iff.mp flags
  unfold fillField at done
  rw [if_pos flag] at done
  obtain ⟨name, access, type, storage, annotations, owner⟩ := field
  cases storage with
  | host accessor => cases initialized
  | script initializer =>
      cases initializer with
      | none => cases initialized
      | some initializer =>
          unfold initializeField at done
          dsimp only at done
          rw [get_bind_apply] at done
          obtain ⟨value, between, evaluated, written⟩ := bind_done (wrapFault_done done)
          have evaluates := evaluate_sparing (step_sparing nested)
            (some ⟨context, some receiver, []⟩) initializer
          have spares := (evaluates (fun _ => True) now).ends live evaluated
          obtain ⟨slot, found, _, content⟩ := dressed.later spares
          obtain ⟨old, script⟩ := content _ rfl
          have assigns : assignStore inner (level.declarations access) name value between =
              (.done (), next) := by
            have unfolded : assignScope inner name value (.store (level.declarations access))
                between = (.done (), next) := written
            unfold assignScope at unfolded
            exact unfolded
          exact assignStore_done nested (live.later spares.evolves) found script assigns

theorem constructField_fills (underway : Underway start now) (laid : start.LaidOut)
    {className : String} {receiver : Receiver} {level : Level} {field : Field}
    {options : CreateOptions} {context : ContextId}
    (sits : now.level? receiver.owner receiver.level = some level)
    (declared : field ∈ (now.cls level.cls).fields) (assigned : field.isAssigned options = true)
    (done : constructField (step inner) className receiver level options context field now =
      (.done (), next)) : next.Filled level field := by
  have wanted : options.has field.flag = true := by
    unfold Field.isAssigned at assigned
    exact (Bool.and_eq_true_iff.mp (Bool.and_eq_true_iff.mp assigned).1).1
  rw [constructField_of_wanted wanted, ← bind_assoc] at done
  obtain ⟨_, between, dresses, fills⟩ := bind_done done
  have outer := step_sparing nested
  have dressed := declareAnnotated_done outer underway laid sits declared dresses
  have spares : Spares (fun _ => True) now between :=
    (declareAnnotated_sparingAt outer className sits declared options context).ends underway.live
      dresses
  exact fillField_fills nested (underway.later spares).live dressed assigned fills

theorem constructFields_fills (underway : Underway start now) (laid : start.LaidOut)
    {className : String} {receiver : Receiver} {level : Level} {fields : List Field}
    {options : CreateOptions} {context : ContextId}
    (sits : now.level? receiver.owner receiver.level = some level)
    (declared : ∀ field ∈ fields, field ∈ (now.cls level.cls).fields)
    (done : constructFields (step inner) className receiver level options context fields now =
      (.done (), next)) :
    ∀ field ∈ fields, field.isAssigned options = true → next.Filled level field := by
  induction fields generalizing now with
  | nil => exact fun _ member => (List.not_mem_nil member).elim
  | cons field rest ih =>
      obtain ⟨_, between, first, more⟩ := bind_done done
      have outer := step_sparing nested
      have spares : Spares (fun _ => True) now between :=
        (constructField_sparingAt outer className sits (declared field List.mem_cons_self) options
          context).ends underway.live first
      have continues := spares.evolves.continues
      have later := underway.later spares
      have sits_later := continues.level? sits
      have declared_later : ∀ other ∈ rest, other ∈ (between.cls level.cls).fields := by
        intro other member
        rw [continues.hierarchy.ask ClassDef.fields fun _ => rfl]
        exact declared other (List.mem_cons_of_mem field member)
      intro other member assigned
      rcases List.mem_cons.mp member with rfl | inside
      · have filled := constructField_fills nested underway laid sits
          (declared other List.mem_cons_self) assigned first
        have onward : Spares (fun _ => True) between next :=
          (constructFields_sparingAt outer className options context sits_later
            declared_later).ends later.live more
        exact filled.later onward
      · exact ih later sits_later declared_later more other inside assigned

/-! ## Levels -/

/-- The levels from a place on are constructed: the instances of their annotations are attached, in
order, and their fields are assigned. -/
structure World.Reached (start now : World) (id : InstanceId) (options : CreateOptions)
    (count : Nat) (uses : List (AnnotationUse ClassRefId)) : Prop where
  attached : MakesAll start now uses (now.object id).annotations
  filled : now.FilledFrom id options count

omit nested in
theorem World.Reached.later {id : InstanceId} {options : CreateOptions} {count : Nat}
    {uses : List (AnnotationUse ClassRefId)} (reached : Reached start now id options count uses)
    (inside : id.index < now.instances.size) (spares : Spares (fun _ => False) now next) :
    Reached start next id options count uses where
  attached := by
    rw [spares.objects id inside not_false]
    exact reached.attached.later spares.evolves.continues
  filled := reached.filled.later inside spares

theorem annotateLevel_reaches (underway : Underway start now) (laid : start.LaidOut)
    {id : InstanceId} {options : CreateOptions} {context : ContextId} {place count : Nat}
    {cls : ClassDef} {uses : List (AnnotationUse ClassRefId)} (inside : id.index < now.instances.size)
    (reached : Reached start now id options count uses)
    (done : annotateLevel (step inner) id options context place cls now = (.done (), next)) :
    Reached start next id options count (uses ++ cls.wanted options) := by
  have outer := step_sparing nested
  have whole := (annotateLevel_sparingAt outer id options context place cls now).ends underway.live
    done
  refine ⟨?_, reached.filled.later inside whole⟩
  unfold annotateLevel at done
  split at done
  · next asked =>
      obtain ⟨flag, _⟩ := Bool.and_eq_true_iff.mp asked
      obtain ⟨created, between, creates, attached⟩ := bind_done done
      cases attached
      have makes := createAnnotations_done outer underway laid creates
      have spares := (createAnnotations_sparing outer _ _ _ _ (fun _ => False) now).ends
        underway.live creates
      have before := reached.later inside spares
      have here := Nat.lt_of_lt_of_le inside spares.evolves.continues.instances
      have continues : between.Continues _ := .withObject between id
        (fun object => { object with annotations := object.annotations ++ created })
        fun _ => ⟨rfl, rfl⟩
      rw [object_withObject, if_pos ⟨rfl, here⟩]
      unfold ClassDef.wanted
      rw [if_pos flag]
      exact List.rel_append (before.attached.later continues) (makes.later continues)
  · next unasked =>
      cases done
      have none : cls.wanted options = [] := by
        unfold ClassDef.wanted
        split
        · next flag => simpa [flag] using unasked
        · rfl
      rw [none, List.append_nil]
      exact reached.attached

theorem constructLevel_reaches (underway : Underway start now) (laid : start.LaidOut)
    {id : InstanceId} {options : CreateOptions} {context : ContextId} {place : Nat} {level : Level}
    {uses : List (AnnotationUse ClassRefId)} (sits : now.level? id place = some level)
    (reached : Reached start now id options (place + 1) uses)
    (done : constructLevel (step inner) id options context place now = (.done (), next)) :
    Reached start next id options place (uses ++ (now.cls level.cls).wanted options) := by
  have outer := step_sparing nested
  have inside := inside_of_level? sits
  rw [constructLevel_of_some sits] at done
  obtain ⟨_, between, annotated, fields⟩ := bind_done done
  have reached := annotateLevel_reaches nested underway laid inside reached annotated
  have spares := (annotateLevel_sparingAt outer id options context place _ now).ends underway.live
    annotated
  have continues := spares.evolves.continues
  have later := underway.later spares
  have inside := Nat.lt_of_lt_of_le inside continues.instances
  have declared : ∀ field ∈ (now.cls level.cls).fields, field ∈ (between.cls level.cls).fields := by
    intro field member
    rw [continues.hierarchy.ask ClassDef.fields fun _ => rfl]
    exact member
  have sits := continues.level? sits
  let receiver : Receiver := ⟨id, place⟩
  have sparing : SparesAt (fun _ => False) (constructFields (step inner) (now.cls level.cls).name
      receiver level options context (now.cls level.cls).fields) between :=
    constructFields_sparingAt outer _ options context sits declared
  have rest := sparing.ends later.live fields
  have reached := reached.later inside rest
  refine ⟨reached.attached, fun other same field beyond sits_other member assigned => ?_⟩
  rcases Nat.eq_or_lt_of_le beyond with rfl | above
  · have onward := rest.evolves.continues
    rw [onward.level?_eq inside] at sits_other
    cases sits.symm.trans sits_other
    rw [onward.hierarchy.ask ClassDef.fields fun _ => rfl,
      continues.hierarchy.ask ClassDef.fields fun _ => rfl] at member
    have seated : between.level? receiver.owner receiver.level = some level := sits
    exact constructFields_fills nested later laid seated declared fields field member assigned
  · exact reached.filled other same field above sits_other member assigned

end

end ScriptObjects

import ScriptObjects.Proofs.Sparing

/-!
# Every request spares what is attached

The four requests, with what crosses the host boundary and what is turned into a slot on the
way.  The two places that attach something to a slot are taken as a whole: a function is put
into its slot together with its annotations, and so is a field, so that what is attached is
attached to a slot that was not there before.  A construction attaches annotations to its own
instance as well, and to no other.
-/

namespace ScriptObjects

set_option autoImplicit false

open Exec World

section

variable {perform : Perform} (nested : perform.Sparing)
include nested

/-! ## The host boundary -/

theorem wrapHost_sparing (host : HostId) : Exec.Sparing (wrapHost perform host) := by
  refine .of_get fun seen => ?_
  split
  · exact .pure _
  · next id described =>
      intro except world live
      have creatable : (CreateOptions.wrapper.has .enforceCreation ||
          (world.cls id).mode.creatable) = true := rfl
      let laid := (world.resolveBases (world.ancestors id)).allocate id
      have allocated : ∀ except, Spares except world laid := fun except => .newInstance world id
      rw [bind_of_done _ (newInstance_apply creatable), bind_apply]
      rcases bound : bindHost world.instances.next 0 host laid with ⟨outcome, between⟩
      have binds : ∀ except, Spares except world between := by
        intro except
        have given := bindHost_sparing world.instances.next 0 host except laid
          (live.later (allocated except).evolves)
        rw [bound] at given
        exact (allocated except).trans given
      cases outcome with
      | failed fault => exact binds except
      | exhausted => exact binds except
      | done result =>
          have beyond : world.instances.size ≤ world.instances.next.index := Nat.le_refl _
          have whole := nested.construct_new beyond except binds .wrapper [] live
          show Spares except world ((perform (.construct world.instances.next .wrapper []) >>=
            fun _ => pure (Value.object world.instances.next)) between).2
          rw [bind_apply]
          rcases ends : perform (.construct world.instances.next .wrapper []) between with
            ⟨outcome, last⟩
          rw [ends] at whole
          cases outcome <;> exact whole

theorem fromHost_sparing (type : ValueType) (host : HostId) :
    Exec.Sparing (fromHost perform type host) := by
  have coerced : ∀ value, Exec.Sparing (coerceBack type value) := by
    intro value
    refine .bind (.still (coerce?_leads type value) (coerce?_still type value)) fun result => ?_
    cases result with
    | some result => exact .pure _
    | none => exact .of_get fun _ => .throw _
  have taken : ∀ object : HostObject, Exec.Sparing (takeBack perform type host object) := by
    intro object
    unfold takeBack
    cases object.directValue? with
    | some value => exact .bind (.pure _) coerced
    | none => exact .bind (wrapHost_sparing nested host) coerced
  refine .bind (.ask _) fun object => .of_get fun seen => ?_
  by_cases selective : seen.marshaling = .selective
  · rw [if_pos selective]
    cases refusedCount? object with
    | some name => exact .bind (.throw _) fun _ => taken object
    | none => exact taken object
  · rw [if_neg selective]
    exact taken object

/-! ## Annotations -/

theorem createAnnotation_sparing (use : AnnotationUse ClassRefId) (target : String)
    (receiver : Option Receiver) (context : ContextId) :
    Exec.Sparing ( createAnnotation perform use target receiver context) := by
  refine .of_get fun seen => ?_
  refine .bind (.still (resolveRef?_leads use.cls) (resolveRef?_still use.cls)) fun found => ?_
  cases found with
  | none => exact .throw _
  | some id =>
      refine .wrapFault (.bind (evaluateAll_sparing nested _ use.args) fun args => ?_)
      exact instantiate_sparing nested id _ args

theorem createAnnotations_sparing (target : String) (receiver : Option Receiver)
    (context : ContextId) (uses : List (AnnotationUse ClassRefId)) :
    Exec.Sparing (createAnnotations perform target receiver context uses) := by
  induction uses with
  | nil => exact .pure _
  | cons use rest ih =>
      exact .bind (createAnnotation_sparing nested use target receiver context) fun _ =>
        .bind ih fun _ => .pure _

omit nested in
theorem newInstance_done {world allocated : World} {cls : ClassId} {options : CreateOptions}
    {created : InstanceId}
    (allocates : newInstance cls options world = (.done created, allocated)) :
    created = world.instances.next ∧
      allocated = (world.resolveBases (world.ancestors cls)).allocate cls := by
  cases creatable : options.has .enforceCreation || (world.cls cls).mode.creatable with
  | false =>
      rw [newInstance_of_forbidden creatable] at allocates
      cases allocates
  | true =>
      rw [newInstance_apply creatable] at allocates
      cases allocates
      exact ⟨rfl, rfl⟩

/-- The instance of an annotation was not there before. -/
theorem createAnnotation_new {use : AnnotationUse ClassRefId} {target : String}
    {receiver : Option Receiver} {context : ContextId} {created : InstanceId} {world after : World}
    (live : world.Live)
    (done : createAnnotation perform use target receiver context world = (.done created, after)) :
    world.instances.size ≤ created.index ∧ created.index < after.instances.size := by
  unfold createAnnotation at done
  rw [get_bind_apply] at done
  obtain ⟨found, between, resolved, rest⟩ := bind_done done
  have resolves := Sparing.still (resolveRef?_leads use.cls) (resolveRef?_still use.cls)
  have resolves := (resolves (fun _ => True) world).ends live resolved
  cases found with
  | none => cases rest
  | some id =>
      obtain ⟨args, ready, evaluated, made⟩ := bind_done (wrapFault_done rest)
      have evaluates := evaluateAll_sparing nested (some ⟨context, receiver, []⟩) use.args
      have evaluates := resolves.trans
        ((evaluates (fun _ => True) between).ends (live.later resolves.evolves) evaluated)
      obtain ⟨fresh, allocated, allocates, constructed⟩ := bind_done made
      obtain ⟨_, last, constructed, ends⟩ := bind_done constructed
      cases ends
      obtain ⟨rfl, rfl⟩ := newInstance_done allocates
      have allocates := evaluates.trans (.newInstance ready id)
      have constructs := (nested.construct ready.instances.next _ args _).ends
        (live.later allocates.evolves) constructed
      refine ⟨evaluates.evolves.continues.instances, Nat.lt_of_lt_of_le ?_
        constructs.evolves.continues.instances⟩
      have followed : (ready.resolveBases (ready.ancestors id)).instances = ready.instances :=
        (ready.resolveBases_still _).instances
      rw [(World.allocate_allocates _ id).size, followed]
      exact Nat.lt_succ_self _

/-- The instances of annotations were not there before. -/
theorem createAnnotations_new {uses : List (AnnotationUse ClassRefId)} {target : String}
    {receiver : Option Receiver} {context : ContextId} {created : List InstanceId}
    {world after : World} (live : world.Live)
    (done : createAnnotations perform target receiver context uses world = (.done created, after)) :
    ∀ id ∈ created, world.instances.size ≤ id.index ∧ id.index < after.instances.size := by
  induction uses generalizing world created with
  | nil =>
      cases done
      exact fun _ member => nomatch member
  | cons use rest ih =>
      obtain ⟨first, between, one, rest⟩ := bind_done done
      obtain ⟨others, last, more, ends⟩ := bind_done rest
      cases ends
      have creates := (createAnnotation_sparing nested use target receiver context
        (fun _ => True) world).ends live one
      have follows := (createAnnotations_sparing nested target receiver context _
        (fun _ => True) between).ends (live.later creates.evolves) more
      intro id member
      obtain rfl | member := List.mem_cons.mp member
      · obtain ⟨new, inside⟩ := createAnnotation_new nested live one
        exact ⟨new, Nat.lt_of_lt_of_le inside follows.evolves.continues.instances⟩
      · obtain ⟨new, inside⟩ := ih (live.later creates.evolves) more id member
        exact ⟨Nat.le_trans creates.evolves.continues.instances new, inside⟩

/-! ## Variables -/

omit nested in
theorem storeValue_sparingAt {except : InstanceId → Prop} {world : World} {id : StoreId}
    {name : String} {slot : Slot}
    (there : ∃ later, (world.store id).slot? name = some later ∧ slot.Persists later)
    (isMutable : slot.immutable = false) (value : Value) :
    SparesAt except (storeValue id name slot value) world := by
  have asked := coerce?_apply slot.type value world
  have follows : Spares except world
      (world.resolveBases (world.visitedByAccepts slot.type value)) := .follow world _
  cases accepted : world.accepts slot.type value with
  | false =>
      rw [if_neg (by simp [accepted])] at asked
      refine .congr (bind_of_done _ asked) follows ?_
      exact Sparing.bind (.ask _) (fun _ => .throw _) except _
  | true =>
      rw [if_pos accepted] at asked
      refine .congr (bind_of_done _ asked) follows ?_
      obtain ⟨later, found, persists⟩ := there
      obtain ⟨latest, still, again⟩ := follows.evolves.keepsSlots id name later found
      have accepts := (World.accepts_resolveBases world
        (world.visitedByAccepts slot.type value) slot.type value).trans accepted
      obtain ⟨type, content, annotations, immutable⟩ := slot
      cases content with
      | script old =>
          have written : LeadsAt (fun _ => True) (fun _ => True)
              (Exec.change (·.withStore id (·.modify name (·.write (type.widen value)))))
              (world.resolveBases (world.visitedByAccepts type value)) :=
            writeSlot_leadsAt ⟨latest, still, persists.trans again⟩ isMutable accepts
          exact .of_apply rfl (.modify (written (permits_all _) fun _ _ => trivial)
            fun slot => .write slot _)
      | host accessor reference =>
          refine Sparing.bind (.still (requireStoreAssembly_leads id)
            (requireStoreAssembly_still id)) (fun _ => ?_) except _
          refine .bind (resolveReference_sparing reference) fun host => ?_
          refine .bind (.still (toHost_leads _ _) (toHost_still _ _)) fun raw => ?_
          exact .still (accessor.write_leads host raw) (accessor.write_still host raw)

theorem writeHooks_sparing (id : StoreId) (name : String) (slot : Slot) (value : Value) :
    Exec.Sparing (writeHooks perform id name slot value) := by
  unfold writeHooks
  split
  · exact .pure _
  · exact .bind (.still (requireStoreAssembly_leads id) (requireStoreAssembly_still id)) fun _ =>
      intercept_sparing nested _ name value _

theorem readSlot_sparing (id : StoreId) (name : String) :
    Exec.Sparing (readSlot perform id name) := by
  have required : Exec.Sparing (requireStoreAssembly id) :=
    .still (requireStoreAssembly_leads id) (requireStoreAssembly_still id)
  have intercepted : ∀ (slot : Slot) (value : Value), Exec.Sparing (do
      if slot.annotations.isEmpty then return value
      requireStoreAssembly id
      intercept perform .onRead name value slot.annotations : Exec Value) := by
    intro slot value
    split
    · exact .pure _
    · exact .bind required fun _ => intercept_sparing nested _ name value _
  refine .of_get fun seen => ?_
  cases (seen.store id).slot? name with
  | none => exact .throw _
  | some slot =>
      obtain ⟨type, content, annotations, immutable⟩ := slot
      cases content with
      | script value =>
          cases value with
          | none => exact .bind (.throw _) (intercepted _)
          | some value => exact .bind (.pure _) (intercepted _)
      | host accessor reference =>
          refine .bind (resolveReference_sparing reference) fun host => ?_
          refine .bind (.still (accessor.read_leads host) (accessor.read_still host)) fun raw => ?_
          refine .bind required fun _ => ?_
          exact .bind (fromHost_sparing nested type raw) (intercepted _)

theorem assignSlot_sparing (id : StoreId) (name : String) (value : Value) :
    Exec.Sparing (assignSlot perform id name value) := by
  intro except world
  cases found : (world.store id).slot? name with
  | none => exact .of_apply (assignSlot_of_missing perform value found) (.refl world)
  | some slot =>
      cases held : slot.immutable with
      | true => exact .of_apply (assignSlot_of_immutable perform value found held) (.refl world)
      | false =>
          refine .congr (assignSlot_of_mutable perform value found held) (.refl world) ?_
          refine .bind (writeHooks_sparing nested id name slot value except world) ?_
          intro result after _ spares
          exact storeValue_sparingAt (spares.evolves.keepsSlots id name slot found) held result

/-! ## Functions as slots -/

omit nested in
/-- A function value that is new is put into a slot that is new. -/
theorem World.install_spares {except : InstanceId → Prop} {world : World} {id : StoreId}
    {function : Function} {receiver : Option Receiver}
    (offered : world.offer? id function.name = some (function, receiver))
    (free : (world.store id).declares function.name = false) :
    Spares except { world with callables := world.callables.push (.ofFunction function receiver) }
      (world.install id function receiver) := by
  have same : World.SameHierarchy world
      { world with callables := world.callables.push (.ofFunction function receiver) } :=
    .of_same rfl rfl rfl rfl
  have kept : World.offer? { world with
      callables := world.callables.push (.ofFunction function receiver) } id function.name =
        some (function, receiver) :=
    (World.offer?_congr same rfl rfl (fun _ _ _ _ _ => rfl) _).trans offered
  exact .insert (.single (.install id _ function receiver (Heap.get?_push_next _ _) kept free))
    (.inl ⟨rfl, _, rfl⟩)

/-- A function is put into its slot with its annotations, or not at all. -/
theorem installFunction_sparingAt {except : InstanceId → Prop}
    {world : World} {id : StoreId} {function : Function} {receiver : Option Receiver}
    (offered : world.offer? id function.name = some (function, receiver)) :
    SparesAt except (installFunction perform id function receiver) world := by
  let callable := world.callables.next
  let made : World :=
    { world with callables := world.callables.push (.ofFunction function receiver) }
  have pushed : Spares except world made :=
    .of_still (.single (.callable id function.name function receiver offered)) rfl rfl
  cases taken : (world.store id).declares function.name with
  | true => exact .of_apply (installFunction_of_taken perform receiver taken) pushed
  | false =>
      have same : World.SameHierarchy world made := ⟨rfl, rfl, fun _ => rfl, fun _ => rfl⟩
      have still : made.offer? id function.name = some (function, receiver) :=
        (World.offer?_congr same rfl rfl (fun _ _ _ _ _ => rfl) _).trans offered
      have known : made.callables.get? callable = some (.ofFunction function receiver) :=
        Heap.get?_push_next _ _
      have inserted : Spares except made (world.install id function receiver) :=
        World.install_spares offered taken
      by_cases plain : function.annotations = []
      · exact .of_apply (installFunction_of_plain perform receiver taken plain)
          (pushed.trans inserted)
      · intro live
        let ready : World := { world.install id function receiver with
          contexts := world.contexts.push (.fresh world.config.maxCallDepth) }
        have opening : Spares except (world.install id function receiver) ready :=
          .of_still (.single (.context _)) rfl rfl
        have waiting := pushed.trans (inserted.trans opening)
        have creates := createAnnotations_sparing nested function.label receiver
          world.contexts.next function.annotations except ready (live.later waiting.evolves)
        have ran := installFunction_of_annotated perform receiver taken plain
        rcases ends : createAnnotations perform function.label receiver world.contexts.next
          function.annotations ready with ⟨outcome, after⟩
        rw [ends] at creates
        dsimp only at creates
        have whole := waiting.trans creates
        cases outcome with
        | exhausted =>
            rw [ran.trans (attachOrWithdraw_of_exhausted perform receiver ends)]
            exact whole
        | failed fault =>
            rw [ran.trans (attachOrWithdraw_of_failed perform receiver ends)]
            have withdrawn : Evolves (fun _ => True) (fun _ => True) made
                (after.withStore id (·.erase function.name)) :=
              .withdrawn id callable function receiver (.refl made) known still taken plain
                (opening.trans creates).evolves
            have free : (made.store id).declares function.name = false := taken
            exact pushed.trans (.withdraw withdrawn free inserted (opening.trans creates))
        | done created =>
            have inside : id.index < made.stores.size := inside_of_offer? still
            have placed : ((world.install id function receiver).store id).slot? function.name =
                some (.function callable) := by
              unfold World.install
              rw [store_withStore, if_pos ⟨rfl, inside⟩]
              exact Store.slot?_insert_same _ _ taken
            obtain ⟨slot, there, _, persists⟩ := (opening.trans creates).slot placed
            have declared : (after.store id).declares function.name = true := by
              simp [Store.declares, there]
            have declares : after.Declares function :=
              .later (World.offer?_declared offered).1 whole.evolves.continues
            rw [ran.trans (attachOrWithdraw_of_done perform receiver ends declared)]
            have new := createAnnotations_new nested (live.later waiting.evolves) ends
            refine whole.adorn taken (.single (.annotate id function.name created)) fun last found => ?_
            obtain rfl : slot = last := Option.some.inj (there.symm.trans found)
            exact ⟨new, .inr ⟨⟨function, declares, rfl, plain⟩, persists.script _ rfl⟩⟩

/-! ## Lookups -/

theorem materialize_sparing (id : StoreId) (name : String) :
    Exec.Sparing (materialize perform id name) := by
  intro except world
  cases alive : world.alive with
  | false =>
      by_cases home : ∃ attached, (world.store id).home = .free attached
      · obtain ⟨attached, free⟩ := home
        exact .of_apply (materialize_of_free perform free) (.refl world)
      · have bound : ∀ attached, (world.store id).home ≠ .free attached :=
          fun attached free => home ⟨attached, free⟩
        exact .of_apply (materialize_of_dropped perform bound alive) (.refl world)
  | true =>
      have asked : Spares except world (world.askedFor id name) :=
        .of_still (.askedFor world id name) (world.askedFor_still id name).stores
          (world.askedFor_still id name).instances
      cases offered : world.offer? id name with
      | none => exact .of_apply (materialize_of_none perform alive offered) asked
      | some offer =>
          obtain ⟨function, receiver⟩ := offer
          have made := materialize_of_some perform alive offered
          by_cases living : (receiver.all fun target => (world.object target.owner).alive) = true
          · rw [if_pos living] at made
            have still := (offer?_askedFor world id name id name).trans offered
            have named := (World.offer?_declared offered).2
            subst named
            refine .congr made asked ?_
            exact (installFunction_sparingAt nested still).bind fun _ after _ _ =>
              Sparing.pure true except after
          · rw [if_neg living] at made
            exact .of_apply made asked

omit nested in
theorem orElseMissing_sparing {α : Type} (name : String) {run next : Exec α}
    (first : Exec.Sparing run) (second : Exec.Sparing next) :
    Exec.Sparing (orElseMissing name run next) := by
  refine .recover first fun fault => ?_
  split
  · exact second
  · exact .throw fault

theorem readStore_sparing (id : StoreId) (name : String) :
    Exec.Sparing (readStore perform id name) := by
  refine orElseMissing_sparing name (readSlot_sparing nested id name) ?_
  refine .bind (materialize_sparing nested id name) fun made => ?_
  cases made with
  | true => exact readSlot_sparing nested id name
  | false => exact .throw _

theorem assignStore_sparing (id : StoreId) (name : String) (value : Value) :
    Exec.Sparing (assignStore perform id name value) := by
  refine orElseMissing_sparing name (assignSlot_sparing nested id name value) ?_
  refine .bind (materialize_sparing nested id name) fun made => ?_
  cases made <;> exact .throw _

end

mutual

theorem readScope_sparing {perform : Perform} (nested : perform.Sparing) (name : String) :
    (scope : Scope) → Exec.Sparing (readScope perform name scope)
  | .store id => by
      unfold readScope
      exact readStore_sparing nested id name
  | .composite sources => by
      unfold readScope
      exact readSources_sparing nested name sources

theorem readSources_sparing {perform : Perform} (nested : perform.Sparing) (name : String) :
    (sources : List Scope) → Exec.Sparing (readSources perform name sources)
  | [] => by
      unfold readSources
      exact .throw _
  | source :: rest => by
      unfold readSources
      exact orElseMissing_sparing name (readScope_sparing nested name source)
        (readSources_sparing nested name rest)

end

mutual

theorem assignScope_sparing {perform : Perform} (nested : perform.Sparing) (name : String)
    (value : Value) : (scope : Scope) → Exec.Sparing (assignScope perform name value scope)
  | .store id => by
      unfold assignScope
      exact assignStore_sparing nested id name value
  | .composite sources => by
      unfold assignScope
      exact assignSources_sparing nested name value sources

theorem assignSources_sparing {perform : Perform} (nested : perform.Sparing) (name : String)
    (value : Value) :
    (sources : List Scope) → Exec.Sparing (assignSources perform name value sources)
  | [] => by
      unfold assignSources
      exact .throw _
  | source :: rest => by
      unfold assignSources
      exact orElseMissing_sparing name (assignScope_sparing nested name value source)
        (assignSources_sparing nested name value rest)

end

section

variable {perform : Perform} (nested : perform.Sparing)
include nested

/-! ## Construction -/

theorem initializeField_sparing (receiver : Receiver) (store : StoreId) (field : Field)
    (context : ContextId) :
    Exec.Sparing (initializeField perform receiver store field context) := by
  obtain ⟨name, access, type, storage, annotations, owner⟩ := field
  cases storage with
  | host accessor => exact .pure _
  | script initializer =>
      cases initializer with
      | none => exact .pure _
      | some initializer =>
          refine .of_get fun seen => .wrapFault ?_
          exact .bind (evaluate_sparing nested _ initializer) fun value =>
            nested.assign _ name value

theorem fillField_sparing (receiver : Receiver) (level : Level) (options : CreateOptions)
    (context : ContextId) (field : Field) :
    Exec.Sparing (fillField perform receiver level options context field) := by
  unfold fillField
  split
  · exact initializeField_sparing nested receiver _ field context
  · exact .pure _

omit nested in
/-- A slot under the name of a field of the class of its level is that of the field. -/
theorem World.Live.ofField {world : World} (live : world.Live) {owner : InstanceId} {place : Nat}
    {level : Level} {field : Field} (sits : world.level? owner place = some level)
    (declared : field ∈ (world.cls level.cls).fields) :
    world.OfField (level.declarations field.access) field.name :=
  ⟨owner, place, level.cls, field.access,
    live.2.laid.stores owner place level sits field.access, field, declared, rfl, rfl⟩

omit nested in
/-- The declaration of a field of the class of a level explains its slot. -/
theorem declareField_spares {except : InstanceId → Prop} {world : World} (live : world.Live)
    {owner : InstanceId} {place : Nat} {level : Level} {field : Field}
    (sits : world.level? owner place = some level)
    (declared : field ∈ (world.cls level.cls).fields)
    (free : (world.store (level.declarations field.access)).declares field.name = false) :
    Spares except world (world.withStore (level.declarations field.access)
      (·.insert field.name (fieldSlot field level.reference))) := by
  have evolves : Evolves (fun _ => True) (fun _ => True) world _ :=
    .single (.field owner place level field trivial sits declared free)
  have same := evolves.continues.hierarchy.ask ClassDef.fields (fun _ => rfl) level.cls
  refine .insert evolves (.inr ⟨fun attached member => ?_, .inl ?_⟩)
  · rw [fieldSlot_annotations] at member
    cases member
  · exact (live.later evolves).ofField (evolves.continues.level? sits) (by rw [same]; exact declared)

/-- A field is declared with its annotations, or is left without annotations. -/
theorem declareAnnotated_sparingAt {except : InstanceId → Prop} {world : World}
    (className : String) {receiver : Receiver} {level : Level} {field : Field}
    (sits : world.level? receiver.owner receiver.level = some level)
    (declared : field ∈ (world.cls level.cls).fields) (options : CreateOptions)
    (context : ContextId) :
    SparesAt except (do
      declareField className level field
      annotateField perform className receiver level options context field) world := by
  intro live
  cases taken : (world.store (level.declarations field.access)).declares field.name with
  | true =>
      rw [bind_of_failed _ (declareField_of_declared className taken)]
      exact .refl world
  | false =>
      rw [bind_of_done _ (declareField_of_free className taken)]
      let ready := world.withStore (level.declarations field.access)
        (·.insert field.name (fieldSlot field level.reference))
      have inserted : Spares except world ready := declareField_spares live sits declared taken
      have later := live.later inserted.evolves
      unfold annotateField
      split
      · have creates := createAnnotations_sparing nested (className ++ "." ++ field.name)
          (some receiver) context field.annotations except ready later
        rcases ends : createAnnotations perform (className ++ "." ++ field.name) (some receiver)
          context field.annotations ready with ⟨outcome, after⟩
        rw [ends] at creates
        dsimp only at creates
        have whole := inserted.trans creates
        cases outcome with
        | failed fault =>
            rw [bind_of_failed _ ends]
            exact whole
        | exhausted =>
            rw [bind_of_exhausted _ ends]
            exact whole
        | done created =>
            have inside := live.2.laid.level_inside sits field.access
            have placed : (ready.store (level.declarations field.access)).slot? field.name =
                some (fieldSlot field level.reference) := by
              rw [store_withStore, if_pos ⟨rfl, inside⟩]
              exact Store.slot?_insert_same _ _ taken
            obtain ⟨slot, there, _⟩ := creates.slots _ field.name _ placed
            have present : (after.store (level.declarations field.access)).declares field.name =
                true := by
              simp [Store.declares, there]
            rw [bind_of_done _ ends, wrapFault_of_done _ (annotateSlot_of_declared created present)]
            have new := createAnnotations_new nested later ends
            refine whole.adorn taken (.single (.annotate _ field.name created)) fun _ _ => ⟨new, ?_⟩
            exact .inl ((live.ofField sits declared).later whole.evolves.continues)
      · exact inserted

theorem constructField_sparingAt {except : InstanceId → Prop} {world : World}
    (className : String) {receiver : Receiver} {level : Level} {field : Field}
    (sits : world.level? receiver.owner receiver.level = some level)
    (declared : field ∈ (world.cls level.cls).fields) (options : CreateOptions)
    (context : ContextId) :
    SparesAt except (constructField perform className receiver level options context field)
      world := by
  cases wanted : options.has field.flag with
  | false =>
      rw [constructField_of_unwanted wanted]
      exact Sparing.pure () except world
  | true =>
      rw [constructField_of_wanted wanted, ← bind_assoc]
      exact (declareAnnotated_sparingAt nested className sits declared options context).bind
        fun _ after _ _ => fillField_sparing nested receiver level options context field except after

theorem constructFields_sparingAt {except : InstanceId → Prop} {world : World}
    (className : String) {receiver : Receiver} {level : Level} (options : CreateOptions)
    (context : ContextId) {fields : List Field}
    (sits : world.level? receiver.owner receiver.level = some level)
    (declared : ∀ field ∈ fields, field ∈ (world.cls level.cls).fields) :
    SparesAt except (constructFields perform className receiver level options context fields)
      world := by
  induction fields generalizing world with
  | nil => exact Sparing.pure () except world
  | cons field rest ih =>
      refine (constructField_sparingAt nested className sits (declared field List.mem_cons_self)
        options context).bind fun _ after _ spares => ?_
      have continues := spares.evolves.continues
      have same := continues.hierarchy.ask ClassDef.fields (fun _ => rfl) level.cls
      refine ih (continues.level? sits) fun other member => ?_
      rw [same]
      exact declared other (List.mem_cons_of_mem field member)

theorem annotateLevel_sparingAt (id : InstanceId) (options : CreateOptions) (context : ContextId)
    (place : Nat) (cls : ClassDef) (world : World) :
    SparesAt (· = id) (annotateLevel perform id options context place cls) world := by
  unfold annotateLevel
  split
  · refine (createAnnotations_sparing nested _ _ context _ _ world).bind fun created after _ _ => ?_
    exact .of_apply rfl (.withObject id (.single (.attach id created)) (absurd rfl))
  · exact Sparing.pure () _ world

theorem constructLevel_sparingAt (id : InstanceId) (options : CreateOptions)
    (context : ContextId) (place : Nat) (world : World) :
    SparesAt (· = id) (constructLevel perform id options context place) world := by
  cases sits : world.level? id place with
  | none => exact .of_apply (constructLevel_of_none sits) (.refl world)
  | some level =>
      refine .congr (constructLevel_of_some sits) (.refl world) ?_
      refine (annotateLevel_sparingAt nested id options context place _ world).bind
        fun _ after _ spares => ?_
      have continues := spares.evolves.continues
      have same := continues.hierarchy.ask ClassDef.fields (fun _ => rfl) level.cls
      exact constructFields_sparingAt nested _ options context (continues.level? sits)
        fun field member => by rw [same]; exact member

theorem constructLevels_sparingAt (id : InstanceId) (options : CreateOptions)
    (context : ContextId) (count : Nat) (world : World) :
    SparesAt (· = id) (constructLevels perform id options context count) world := by
  induction count generalizing world with
  | zero => exact Sparing.pure () _ world
  | succ count ih =>
      exact (constructLevel_sparingAt nested id options context count world).bind
        fun _ after _ _ => ih after

theorem resolveConstructor_sparing (id : InstanceId) :
    Exec.Sparing (resolveConstructor perform id) := by
  refine .of_get fun seen => ?_
  refine .bind (.still (metaLink?_leads _ _) (metaLink?_still _ _)) fun link => ?_
  cases link with
  | none => exact .of_get fun _ => .still (newPlaceholder_leads _) fun _ => {}
  | some link =>
      refine .of_get fun seen => .bind (openScope?_sparing id _) fun scope => ?_
      cases scope with
      | none => exact .throw _
      | some scope =>
          exact .bind (nested.read scope _) fun value =>
            .still (requireFunction_leads value) (requireFunction_still value)

theorem preConstruct_sparing (id : InstanceId) (context : ContextId) (args : List Value)
    (annotations : List InstanceId) :
    Exec.Sparing (preConstruct perform id context args annotations) := by
  induction annotations generalizing args with
  | nil => exact .pure _
  | cons annotation rest ih =>
      refine .bind (.still (newList_leads args) (newList_still args)) fun list => ?_
      refine .bind (hook_sparing nested context annotation _ _) fun result => ?_
      exact .of_get fun seen => ih _

theorem postConstruct_sparing (id : InstanceId) (context : ContextId) (args : List Value)
    (annotations : List InstanceId) :
    Exec.Sparing (postConstruct perform id context args annotations) := by
  induction annotations with
  | nil => exact .pure _
  | cons annotation rest ih =>
      refine .bind (.still (newList_leads args) (newList_still args)) fun list => ?_
      exact .bind (hook_sparing nested context annotation _ _) fun _ => ih

theorem callConstructor_sparing (id : InstanceId) (args : List Value) (context : ContextId) :
    Exec.Sparing (callConstructor perform id args context) := by
  refine .bind (resolveConstructor_sparing nested id) fun constructor => ?_
  refine .of_get fun seen => .of_get fun named => ?_
  have phase : Exec.Sparing (withFrame context
      (.synthetic ((named.classOf id).name ++ "." ++ MetaKey.preConstruct.methodName))
      (preConstruct perform id context args (seen.object id).annotations)) := fun except world =>
    .withFrame context _ fun after => preConstruct_sparing nested id context args _ except after
  refine .bind phase fun args => ?_
  refine .bind (nested.call constructor args context) fun _ => ?_
  exact postConstruct_sparing nested id context args _

theorem wrapConstructor_sparing (id : InstanceId) (args : List Value) (className : String)
    (context : ContextId) :
    Exec.Sparing (Exec.wrapFault (.construction className)
      (callConstructor perform id args context)) :=
  .wrapFault (callConstructor_sparing nested id args context)

omit nested in
theorem constructionContext_sparing (options : CreateOptions) :
    Exec.Sparing (constructionContext options) :=
  .still (constructionContext_leads options) (constructionContext_still options)

omit nested in
theorem markInstance_sparingAt {except : InstanceId → Prop} {id : InstanceId}
    {options : CreateOptions} (unmarked : ¬ except id → options.has .markInitialized = false)
    (world : World) :
    SparesAt except (do
      if options.has .markInitialized then
        Exec.change (·.withObject id fun object => { object with initialized := true }) :
          Exec Unit) world := by
  cases marks : options.has .markInitialized with
  | false => exact Sparing.pure () except world
  | true =>
      refine .of_apply rfl (.withObject id (.single (.mark id)) fun spared => ?_)
      cases marks.symm.trans (unmarked spared)

/-- An instance that is not excepted must not be asked to be marked. -/
theorem finishInstance_sparingAt {except : InstanceId → Prop} {id : InstanceId}
    {options : CreateOptions} (unmarked : ¬ except id → options.has .markInitialized = false)
    (args : List Value) (className : String) (context : ContextId) (world : World) :
    SparesAt except (finishInstance perform id options args className context) world := by
  have marked := fun world => markInstance_sparingAt unmarked world
  unfold finishInstance
  by_cases wanted : options.has .callConstructor = true
  · rw [if_pos wanted]
    exact (wrapConstructor_sparing nested id args className context except world).bind
      fun _ after _ _ => marked after
  · rw [if_neg wanted]
    exact marked world

theorem constructInstance_sparingAt (id : InstanceId) (options : CreateOptions)
    (args : List Value) (world : World) :
    SparesAt (· = id) (constructInstance perform id options args) world := by
  cases initialized : (world.object id).initialized with
  | true => exact .of_apply (constructInstance_of_initialized initialized) (.refl world)
  | false =>
      refine .congr (constructInstance_of_new initialized) (.refl world) ?_
      refine (constructionContext_sparing options _ world).bind fun context after _ _ => ?_
      refine (constructLevels_sparingAt nested id options context _ after).bind fun _ last _ _ => ?_
      refine finishInstance_sparingAt nested ?_ args _ context last
      exact fun other => absurd rfl other

/-! ## Calls -/

theorem forwardToBase_sparing (receiver : Receiver) (args : List Value) (context : ContextId) :
    Exec.Sparing (forwardToBase perform receiver args context) := by
  refine .of_get fun seen => ?_
  cases seen.level? receiver.owner (receiver.level + 1) with
  | none => exact .pure _
  | some base =>
      refine .bind (.still (metaLink?_leads _ _) (metaLink?_still _ _)) fun link => ?_
      cases link with
      | none => exact .pure _
      | some link =>
          refine .of_get fun seen => .bind (openScope?_sparing _ _) fun scope => ?_
          cases scope with
          | none => exact .throw _
          | some scope =>
              refine .bind (nested.read scope _) fun value => ?_
              refine .bind (.still (requireFunction_leads value) (requireFunction_still value))
                fun constructor => ?_
              exact nested.call constructor args context

theorem runBody_sparing (callable : Callable) (body : FunctionBody) (args : List Value)
    (context : ContextId) : Exec.Sparing (runBody perform callable body args context) := by
  have receiving : ∀ {α : Type} {next : Receiver → Exec α},
      (∀ receiver, Exec.Sparing (next receiver)) →
        Exec.Sparing (requireReceiver callable >>= next) := fun rest =>
    .bind (.still (requireReceiver_leads callable) (requireReceiver_still callable)) rest
  cases body with
  | script expr =>
      exact .bind (.still (liveReceiver_leads callable) (liveReceiver_still callable))
        fun receiver => evaluate_sparing nested _ expr
  | hostMethod method =>
      refine receiving fun receiver => ?_
      refine .bind (levelHost_sparing receiver) fun host => ?_
      refine .bind (.still (marshalArguments_leads _ _) (marshalArguments_still _ _)) fun args => ?_
      refine .bind (.still (method.invoke_leads host args) (method.invoke_still host args))
        fun result => ?_
      exact fromHost_sparing nested _ result
  | hostConstructor constructor =>
      refine receiving fun receiver => ?_
      refine .bind (.still (marshalArguments_leads _ _) (marshalArguments_still _ _)) fun args => ?_
      refine .bind (.still (constructor.invoke_leads args) (constructor.invoke_still args))
        fun host => ?_
      exact .bind (bindHost_sparing _ _ host) fun _ => .pure _
  | passThrough =>
      exact receiving fun receiver => forwardToBase_sparing nested receiver args context
  | abstract => exact .throw _

theorem callFunction_sparing (id : CallableId) (args : List Value) (context : ContextId) :
    Exec.Sparing (callFunction perform id args context) := by
  refine .bind (.still requireAssembly_leads requireAssembly_still) fun _ => .of_get fun seen => ?_
  refine fun except world => .withFrame context _ fun after => ?_
  cases (seen.callables.get id).function with
  | none => exact Sparing.pure _ except after
  | some function =>
      exact Sparing.bind (runBody_sparing nested _ function.body args context)
        (fun result => .still (checkReturn_leads _ result) (checkReturn_still _ result)) except after

/-! ## The machine -/

theorem step_sparing : Perform.Sparing (step perform) where
  leads := step_leads nested.leads
  call callable args context := callFunction_sparing nested callable args context
  read scope name := readScope_sparing nested name scope
  assign scope name value := assignScope_sparing nested name value scope
  construct id options args world := constructInstance_sparingAt nested id options args world

end

/-- Whatever the machine does within a budget leaves what is attached as it is. -/
theorem performUpTo_sparing (budget : Nat) : Perform.Sparing (performUpTo budget) := by
  induction budget with
  | zero =>
      exact ⟨performUpTo_leads 0, fun _ _ _ => .exhaust, fun _ _ => .exhaust,
        fun _ _ _ => .exhaust, fun _ _ _ world => Sparing.exhaust _ world⟩
  | succ budget ih => exact step_sparing ih

end ScriptObjects

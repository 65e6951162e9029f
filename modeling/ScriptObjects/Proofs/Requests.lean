import ScriptObjects.Proofs.Faults

/-!
# The requests of the machine

The four requests evolve the state: reading and writing variables, with what crosses
the host boundary and what is turned into a slot on the way; the construction
protocol; and calls.  The machine performs requests to every depth, so that whatever
it does is made of the changes listed for runs.
-/

namespace ScriptObjects

set_option autoImplicit false

open Exec

variable {may : String → Prop} {opened : InstanceId → Prop}

/-! ## The host boundary -/

theorem hostForm_leads (type : ValueType) (value : Value) :
    Leads may opened (hostForm type value) := by
  unfold hostForm
  split
  · exact .pure _
  · exact .of_get fun _ => .pure _
  all_goals exact .bind (newHost_leads _) fun _ => .pure _

theorem toHost_leads (value : Value) (type : ValueType) : Leads may opened (toHost value type) := by
  have converted : ∀ unsupported : Fault,
      Leads may opened (convertHost type value unsupported) := by
    intro unsupported
    have formed : Leads may opened (formHost type value unsupported) := by
      refine .bind (hostForm_leads type value) fun form => ?_
      cases form with
      | some host => exact .pure _
      | none => exact .throw _
    refine .bind (accepts_leads type value) fun accepted => ?_
    cases accepted with
    | true => exact formed
    | false => exact .bind (.throw _) fun _ => formed
  refine .of_get fun seen => ?_
  split
  · exact .bind (.throw _) fun _ => .of_get fun _ => converted _
  · exact .of_get fun _ => converted _

theorem bindHost_leads (id : InstanceId) (place : Nat) (host : HostId) :
    Leads may opened (bindHost id place host) := by
  intro world
  refine .of_get ?_
  cases sits : world.level? id place with
  | none => exact .of_change (.adopt id host)
  | some level =>
      exact (LeadsAt.of_change (.bindLevel id place level host sits)).bind fun _ _ _ _ =>
        .of_change (.adopt id host)

/-- Giving an instance its host object keeps it fit for construction. -/
theorem fresh_bindHost {regime : Regime may opened} {world after : World} {id : InstanceId}
    {place : Nat} (host : HostId) (fresh : regime.fresh world id)
    (bound : bindHost id place host world = (.done (), after)) : regime.fresh after id := by
  simp only [bindHost, get_bind_apply] at bound
  cases sits : world.level? id place with
  | none =>
      rw [sits] at bound
      cases bound
      exact regime.adopt host fresh
  | some level =>
      rw [sits] at bound
      cases bound
      exact regime.adopt host (regime.bindLevel host sits fresh)

theorem requireStoreAssembly_leads (id : StoreId) :
    Leads may opened (requireStoreAssembly id) := by
  refine .of_get fun seen => ?_
  split
  · exact .throw _
  · exact requireAssembly_leads

/-- The levels of an instance that exists are where they were. -/
theorem World.Continues.level? {before after : World} (continues : before.Continues after)
    {id : InstanceId} {place : Nat} {level : Level} (sits : before.level? id place = some level) :
    after.level? id place = some level := by
  have old : id.index < before.instances.size := by
    apply Nat.lt_of_not_le
    intro beyond
    unfold World.level? World.object Heap.get at sits
    rw [Heap.get?_eq_none _ beyond] at sits
    cases sits
  unfold World.level? at sits ⊢
  rw [(continues.objects id old).2]
  exact sits

section

variable {regime : Regime may opened} {perform other : Perform} (nested : perform.Tracks regime other)
include nested

theorem wrapHost_tracks (host : HostId) :
    Tracks regime (wrapHost perform host) (wrapHost other host) := by
  refine .of_get fun seen => ?_
  split
  · exact .pure _
  · next id described =>
      intro world permits opens
      refine TracksAt.bind (.own (newInstance_leads id .wrapper world))
        (fun created after ends _ => ?_) permits opens
      have creatable : (CreateOptions.wrapper.has .enforceCreation ||
          (world.cls id).mode.creatable) = true := rfl
      rw [newInstance_apply creatable] at ends
      cases ends
      have isOpen : opened world.instances.next := opens _ (Nat.le_refl _)
      refine TracksAt.bind (.own (bindHost_leads _ 0 host _)) fun _ after ends _ => ?_
      have fresh := fresh_bindHost host (regime.allocate world id) ends
      exact TracksAt.bind (nested.construct isOpen fresh .wrapper []) fun _ last _ _ =>
        Tracks.pure _ last

theorem fromHost_tracks (type : ValueType) (host : HostId) :
    Tracks regime (fromHost perform type host)
      (fromHost other type host) := by
  have coerced : ∀ value, Leads may opened (coerceBack type value) := by
    intro value
    refine .bind (coerce?_leads type value) fun result => ?_
    cases result with
    | some result => exact .pure _
    | none => exact .of_get fun _ => .throw _
  have taken : ∀ object : HostObject, Tracks regime (takeBack perform type host object)
      (takeBack other type host object) := by
    intro object
    unfold takeBack
    cases object.directValue? with
    | some value => exact .own (.bind (.pure _) coerced)
    | none => exact .bind (wrapHost_tracks nested host) fun value => .own (coerced value)
  refine .after (.ask _) fun object => .of_get fun seen => ?_
  by_cases selective : seen.marshaling = .selective
  · rw [if_pos selective, if_pos selective]
    cases refusedCount? object with
    | some name => exact .after (.throw _) fun _ => taken object
    | none => exact taken object
  · rw [if_neg selective, if_neg selective]
    exact taken object

/-! ## Annotations -/

theorem createAnnotation_tracks {use : AnnotationUse ClassRefId}
    (permitted : DeclareOnly may use.args) (target : String) (receiver : Option Receiver)
    (context : ContextId) :
    Tracks regime ( createAnnotation perform use target receiver context)
      ( createAnnotation other use target receiver context) := by
  refine .of_get fun seen => .after (resolveRef?_leads use.cls) fun found => ?_
  cases found with
  | none => exact .throw _
  | some id =>
      refine .wrapFault (.bind (evaluateAll_tracks nested _ use.args permitted) fun args => ?_)
      exact instantiate_tracks nested id _ args

theorem createAnnotations_tracks (target : String) (receiver : Option Receiver)
    (context : ContextId) {uses : List (AnnotationUse ClassRefId)}
    (permitted : DeclareOnly may (annotationBodies uses)) :
    Tracks regime (createAnnotations perform target receiver context uses)
      (createAnnotations other target receiver context uses) := by
  induction uses with
  | nil => exact .pure _
  | cons use rest ih =>
      have here : DeclareOnly may use.args :=
        permitted.of_subset fun body inside => List.mem_append_left _ inside
      have later : DeclareOnly may (annotationBodies rest) :=
        permitted.of_subset fun body inside => List.mem_append_right _ inside
      refine .bind (createAnnotation_tracks nested here target receiver context) fun _ => ?_
      exact .bind (ih later) fun _ => .pure _

end

theorem annotationBodies_among {ρ : Type} (function : FunctionDecl ρ) :
    ∀ body ∈ annotationBodies function.annotations, body ∈ function.bodies := by
  intro body inside
  unfold FunctionDecl.bodies
  split
  · exact List.mem_cons_of_mem _ inside
  · exact inside

theorem annotationBodies_among_field {ρ : Type} (field : FieldDecl ρ) :
    ∀ body ∈ annotationBodies field.annotations, body ∈ field.bodies := by
  intro body inside
  unfold FieldDecl.bodies
  split
  · exact List.mem_cons_of_mem _ inside
  · exact inside

/-! ## Variables -/

theorem annotateSlot_leads (id : StoreId) (name : String) (annotations : List InstanceId) :
    Leads may opened (annotateSlot id name annotations) := by
  refine .of_get fun seen => ?_
  split
  · exact .change fun _ => .annotate id name annotations
  · exact .bind (.throw _) fun _ => .change fun _ => .annotate id name annotations

/-- A value that was accepted is written to a slot that takes it. -/
theorem writeSlot_leadsAt {world : World} {id : StoreId} {name : String} {slot : Slot}
    {value : Value} (there : ∃ later, (world.store id).slot? name = some later ∧ slot.Persists later)
    (isMutable : slot.immutable = false) (accepted : world.accepts slot.type value = true) :
    LeadsAt may opened
      (Exec.change (·.withStore id (·.modify name (·.write (slot.type.widen value))))) world := by
  obtain ⟨later, found, persists⟩ := there
  have accepted : world.accepts later.type value = true := by rw [persists.type, accepted]
  have written : Change may opened world _ :=
    .write id name later value found (persists.immutable.trans isMutable) accepted
  rw [persists.type] at written
  exact .of_change written

theorem storeValue_leadsAt {world : World} {id : StoreId} {name : String} {slot : Slot}
    (there : ∃ later, (world.store id).slot? name = some later ∧ slot.Persists later)
    (isMutable : slot.immutable = false) (value : Value) :
    LeadsAt may opened (storeValue id name slot value) world := by
  refine .bind (coerce?_leads slot.type value world) fun result after ends evolves => ?_
  rw [coerce?_apply] at ends
  cases accepted : world.accepts slot.type value with
  | false =>
      simp only [accepted, Bool.false_eq_true, if_false] at ends
      cases ends
      exact Leads.bind (.ask _) (fun _ => .throw _) _
  | true =>
      simp only [accepted, if_true] at ends
      cases ends
      obtain ⟨later, found, persists⟩ := there
      obtain ⟨latest, still, again⟩ := evolves.keepsSlots id name later found
      have accepts := (World.accepts_resolveBases world
        (world.visitedByAccepts slot.type value) slot.type value).trans accepted
      obtain ⟨type, content, annotations, immutable⟩ := slot
      cases content with
      | script old =>
          exact writeSlot_leadsAt ⟨latest, still, persists.trans again⟩ isMutable accepts
      | host accessor reference =>
          refine Leads.bind (requireStoreAssembly_leads id) (fun _ => ?_) _
          refine .bind (resolveReference_leads reference) fun host => ?_
          exact .bind (toHost_leads _ _) fun raw => accessor.write_leads host raw

/-! ## Functions as slots -/

section

variable {regime : Regime may opened} {perform other : Perform} (nested : perform.Tracks regime other)
include nested

theorem attachAnnotations_tracks {function : Function} (permitted : DeclareOnly may function.bodies)
    (id : StoreId) (receiver : Option Receiver) (context : ContextId) :
    Tracks regime (attachAnnotations perform id function receiver context)
      (attachAnnotations other id function receiver context) := by
  have inside := permitted.of_subset (annotationBodies_among function)
  refine .bind (createAnnotations_tracks nested _ receiver context inside) fun created => ?_
  exact .own (annotateSlot_leads id function.name created)

theorem installFunction_tracksAt {world : World} {id : StoreId} {function : Function}
    {receiver : Option Receiver}
    (offered : world.offer? id function.name = some (function, receiver)) :
    TracksAt regime (installFunction perform id function receiver)
      (installFunction other id function receiver) world := by
  let callable := world.callables.next
  let made : World :=
    { world with callables := world.callables.push (.ofFunction function receiver) }
  have pushed : Evolves may opened world made :=
    .single (.callable id function.name function receiver offered)
  have same : World.SameHierarchy world made := ⟨rfl, rfl, fun _ => rfl, fun _ => rfl⟩
  have still : made.offer? id function.name = some (function, receiver) :=
    (World.offer?_congr same rfl rfl (fun _ _ _ _ _ => rfl) _).trans offered
  have known : made.callables.get? callable = some (.ofFunction function receiver) :=
    Heap.get?_push_next _ _
  cases taken : (world.store id).declares function.name with
  | true =>
      exact .of_apply pushed (installFunction_of_taken perform receiver taken)
        (installFunction_of_taken other receiver taken)
  | false =>
      have inserted : Evolves may opened world (world.install id function receiver) :=
        .change pushed (.install id callable function receiver known still taken)
      by_cases plain : function.annotations = []
      · exact .of_apply inserted (installFunction_of_plain perform receiver taken plain)
          (installFunction_of_plain other receiver taken plain)
      · let withContext : World := { world.install id function receiver with
          contexts := world.contexts.push (.fresh world.config.maxCallDepth) }
        have opening : Evolves may opened (world.install id function receiver) withContext :=
          .single (.context _)
        have ready := inserted.trans opening
        intro permits opens
        have tracks := attachAnnotations_tracks nested (permits.offered offered) id receiver
          world.contexts.next withContext (ready.permits permits) (opens.later ready.continues)
        unfold AgreesAt
        rw [installFunction_of_annotated perform receiver taken plain,
          installFunction_of_annotated other receiver taken plain]
        refine ⟨?_, fun holds => tracks.2.recover _ (regime.evolves holds ready)⟩
        have attached := tracks.1
        unfold attachOrWithdraw Exec.recover
        rcases ends : attachAnnotations perform id function receiver world.contexts.next
          withContext with ⟨outcome, after⟩
        rw [ends] at attached
        cases outcome with
        | done result => exact ready.trans attached
        | failed fault =>
            exact .withdrawn id callable function receiver pushed known still taken plain
              (opening.trans attached)
        | exhausted => exact ready.trans attached

end

/-! ## Lookups -/

/-- Two ways to perform requests agree on what lookups nest: the hooks of annotations, the instances
that host objects are wrapped in, and the annotations of functions. -/
structure Perform.LooksUpAlike (regime : Regime may opened) (perform other : Perform) : Prop where
  hooks : ∀ key, key = .onRead ∨ key = .onWrite → ∀ name value annotations,
    Exec.Tracks regime (intercept perform key name value annotations)
      (intercept other key name value annotations)
  hosts : ∀ type host, Exec.Tracks regime (fromHost perform type host) (fromHost other type host)
  installs : ∀ {world : World} {id : StoreId} {function : Function} {receiver : Option Receiver},
    world.offer? id function.name = some (function, receiver) →
    TracksAt regime (installFunction perform id function receiver)
      (installFunction other id function receiver) world

theorem Perform.Tracks.looksUp {regime : Regime may opened} {perform other : Perform}
    (nested : perform.Tracks regime other) : perform.LooksUpAlike regime other where
  hooks key _ name value annotations := intercept_tracks nested key name value annotations
  hosts type host := fromHost_tracks nested type host
  installs offered := installFunction_tracksAt nested offered

section

variable {regime : Regime may opened} {perform other : Perform}
  (alike : perform.LooksUpAlike regime other)
include alike

theorem readSlot_tracks (id : StoreId) (name : String) :
    Tracks regime (readSlot perform id name)
      (readSlot other id name) := by
  have intercepted : ∀ (slot : Slot) (value : Value), Tracks regime (do
      if slot.annotations.isEmpty then return value
      requireStoreAssembly id
      intercept perform .onRead name value slot.annotations : Exec Value)
      (do
      if slot.annotations.isEmpty then return value
      requireStoreAssembly id
      intercept other .onRead name value slot.annotations : Exec Value) := by
    intro slot value
    split
    · exact .pure _
    · exact .after (requireStoreAssembly_leads id) fun _ => alike.hooks _ (.inl rfl) name value _
  refine .of_get fun seen => ?_
  cases (seen.store id).slot? name with
  | none => exact .throw _
  | some slot =>
      obtain ⟨type, content, annotations, immutable⟩ := slot
      cases content with
      | script value =>
          cases value with
          | none => exact .after (.throw _) (intercepted _)
          | some value => exact .after (.pure _) (intercepted _)
      | host accessor reference =>
          refine .after (resolveReference_leads reference) fun host => ?_
          refine .after (accessor.read_leads host) fun raw => ?_
          refine .after (requireStoreAssembly_leads id) fun _ => ?_
          exact .bind (alike.hosts type raw) (intercepted _)

theorem writeHooks_tracks (id : StoreId) (name : String) (slot : Slot) (value : Value) :
    Tracks regime (writeHooks perform id name slot value)
      (writeHooks other id name slot value) := by
  unfold writeHooks
  split
  · exact .pure _
  · exact .after (requireStoreAssembly_leads id) fun _ => alike.hooks _ (.inr rfl) name value _

theorem assignSlot_tracks (id : StoreId) (name : String) (value : Value) :
    Tracks regime (assignSlot perform id name value) (assignSlot other id name value) := by
  intro world
  cases found : (world.store id).slot? name with
  | none =>
      exact .of_apply (.refl world) (assignSlot_of_missing perform value found)
        (assignSlot_of_missing other value found)
  | some slot =>
      cases held : slot.immutable with
      | true =>
          exact .of_apply (.refl world) (assignSlot_of_immutable perform value found held)
            (assignSlot_of_immutable other value found held)
      | false =>
          refine .congr (.refl world) (assignSlot_of_mutable perform value found held)
            (assignSlot_of_mutable other value found held) ?_
          refine (writeHooks_tracks alike id name slot value world).bind ?_
          intro result after _ evolves
          exact .own (storeValue_leadsAt (evolves.keepsSlots id name slot found) held result)

omit alike in
theorem Evolves.askedFor (world : World) (id : StoreId) (name : String) :
    Evolves may opened world (world.askedFor id name) := by
  unfold World.askedFor
  split
  · split
    · exact .refl world
    · exact .resolveBases world _
  · exact .refl world
  · exact .refl world

theorem materialize_tracks (id : StoreId) (name : String) :
    Tracks regime (materialize perform id name) (materialize other id name) := by
  intro world
  cases alive : world.alive with
  | false =>
      by_cases home : ∃ attached, (world.store id).home = .free attached
      · obtain ⟨attached, free⟩ := home
        exact .of_apply (.refl world) (materialize_of_free perform free)
          (materialize_of_free other free)
      · have bound : ∀ attached, (world.store id).home ≠ .free attached :=
          fun attached free => home ⟨attached, free⟩
        exact .of_apply (.refl world) (materialize_of_dropped perform bound alive)
          (materialize_of_dropped other bound alive)
  | true =>
      have asked : Evolves may opened world (world.askedFor id name) := .askedFor world id name
      cases offered : world.offer? id name with
      | none =>
          exact .of_apply asked (materialize_of_none perform alive offered)
            (materialize_of_none other alive offered)
      | some offer =>
          obtain ⟨function, receiver⟩ := offer
          have one := materialize_of_some perform alive offered
          have two := materialize_of_some other alive offered
          by_cases living : (receiver.all fun target => (world.object target.owner).alive) = true
          · rw [if_pos living] at one two
            have still := (offer?_askedFor world id name id name).trans offered
            have named := (World.offer?_declared offered).2
            subst named
            refine .congr asked one two ?_
            exact (alike.installs still).bind fun _ after _ _ =>
              Tracks.pure true after
          · rw [if_neg living] at one two
            exact .of_apply asked one two

/-! ## Stores and scopes -/

omit alike in
theorem orElseMissing_tracks {α : Type} (name : String) {run next later last : Exec α}
    (first : Tracks regime run later) (second : Tracks regime next last) :
    Tracks regime (orElseMissing name run next) (orElseMissing name later last) := by
  refine .recover first fun fault => ?_
  split
  · exact second
  · exact .throw fault

theorem readStore_tracks (id : StoreId) (name : String) :
    Tracks regime (readStore perform id name)
      (readStore other id name) := by
  refine orElseMissing_tracks name (readSlot_tracks alike id name) ?_
  refine .bind (materialize_tracks alike id name) fun made => ?_
  cases made with
  | true => exact readSlot_tracks alike id name
  | false => exact .throw _

theorem assignStore_tracks (id : StoreId) (name : String) (value : Value) :
    Tracks regime (assignStore perform id name value)
      (assignStore other id name value) := by
  refine orElseMissing_tracks name (assignSlot_tracks alike id name value) ?_
  refine .bind (materialize_tracks alike id name) fun made => ?_
  cases made <;> exact .throw _

end

mutual

theorem readScope_tracks {regime : Regime may opened} {perform other : Perform}
    (alike : perform.LooksUpAlike regime other) (name : String) :
    (scope : Scope) → Tracks regime (readScope perform name scope)
      (readScope other name scope)
  | .store id => by
      unfold readScope
      exact readStore_tracks alike id name
  | .composite sources => by
      unfold readScope
      exact readSources_tracks alike name sources

theorem readSources_tracks {regime : Regime may opened} {perform other : Perform}
    (alike : perform.LooksUpAlike regime other) (name : String) :
    (sources : List Scope) → Tracks regime (readSources perform name sources)
      (readSources other name sources)
  | [] => by
      unfold readSources
      exact .throw _
  | source :: rest => by
      unfold readSources
      exact orElseMissing_tracks name (readScope_tracks alike name source)
        (readSources_tracks alike name rest)

end

mutual

theorem assignScope_tracks {regime : Regime may opened} {perform other : Perform}
    (alike : perform.LooksUpAlike regime other) (name : String) (value : Value) :
    (scope : Scope) → Tracks regime (assignScope perform name value scope)
      (assignScope other name value scope)
  | .store id => by
      unfold assignScope
      exact assignStore_tracks alike id name value
  | .composite sources => by
      unfold assignScope
      exact assignSources_tracks alike name value sources

theorem assignSources_tracks {regime : Regime may opened} {perform other : Perform}
    (alike : perform.LooksUpAlike regime other) (name : String) (value : Value) :
    (sources : List Scope) → Tracks regime (assignSources perform name value sources)
      (assignSources other name value sources)
  | [] => by
      unfold assignSources
      exact .throw _
  | source :: rest => by
      unfold assignSources
      exact orElseMissing_tracks name (assignScope_tracks alike name value source)
        (assignSources_tracks alike name value rest)

end

section

variable {regime : Regime may opened} {perform other : Perform} (nested : perform.Tracks regime other)
include nested

/-! ## Construction -/

theorem initializeField_tracks {field : Field} (permitted : DeclareOnly may field.bodies)
    (receiver : Receiver) (store : StoreId) (context : ContextId) :
    Tracks regime (initializeField perform receiver store field context)
      (initializeField other receiver store field context) := by
  obtain ⟨name, access, type, storage, annotations, owner⟩ := field
  cases storage with
  | host accessor => exact .pure _
  | script initializer =>
      cases initializer with
      | none => exact .pure _
      | some initializer =>
          have inside : ∀ name ∈ initializer.declaredNames, may name := by
            intro name declared
            exact permitted name (Expr.mem_declaredNamesOfAll.mpr
              ⟨initializer, List.mem_cons_self, declared⟩)
          refine .of_get fun seen => .wrapFault ?_
          exact .bind (evaluate_tracks nested _ initializer inside) fun value =>
            nested.assign _ name value

omit nested in
theorem declareField_leadsAt {world : World} {owner : InstanceId} {place : Nat}
    (className : String) {level : Level} {field : Field} (isOpen : opened owner)
    (sits : world.level? owner place = some level)
    (declared : field ∈ (world.cls level.cls).fields) :
    LeadsAt may opened (declareField className level field) world := by
  intro permits opens
  have slot : LeadsAt may opened (insertSlot (level.declarations field.access) field.name
      (fieldSlot field level.reference)) world :=
    insertSlot_leadsAt fun free => .field owner place level field isOpen sits declared free
  have slot := slot permits opens
  unfold declareField Exec.wrapFault
  rcases ends : insertSlot (level.declarations field.access) field.name
    (fieldSlot field level.reference) world with ⟨outcome, after⟩
  rw [ends] at slot
  cases outcome <;> exact slot

theorem annotateField_tracks {field : Field} (permitted : DeclareOnly may field.bodies)
    (className : String) (receiver : Receiver) (level : Level) (options : CreateOptions)
    (context : ContextId) :
    Tracks regime (annotateField perform className receiver level options context field)
      (annotateField other className receiver level options context field) := by
  have inside := permitted.of_subset (annotationBodies_among_field field)
  unfold annotateField
  split
  · refine .bind (createAnnotations_tracks nested _ _ context inside) fun created => ?_
    exact .wrapFault (.own (annotateSlot_leads _ _ _))
  · exact .pure _

theorem fillField_tracks {field : Field} (permitted : DeclareOnly may field.bodies)
    (receiver : Receiver) (level : Level) (options : CreateOptions) (context : ContextId) :
    Tracks regime (fillField perform receiver level options context field)
      (fillField other receiver level options context field) := by
  unfold fillField
  split
  · exact initializeField_tracks nested permitted receiver _ context
  · exact .pure _

theorem constructField_tracksAt {world : World} {className : String} {receiver : Receiver}
    {level : Level} {field : Field} (isOpen : opened receiver.owner)
    (sits : world.level? receiver.owner receiver.level = some level)
    (declared : field ∈ (world.cls level.cls).fields) (options : CreateOptions)
    (context : ContextId) :
    TracksAt regime (constructField perform className receiver level options context field)
      (constructField other className receiver level options context field) world := by
  intro permits opens
  have permitted : DeclareOnly may field.bodies := permits.field declared
  cases wanted : options.has field.flag with
  | false =>
      rw [constructField_of_unwanted wanted, constructField_of_unwanted wanted]
      exact Tracks.pure () world permits opens
  | true =>
      rw [constructField_of_wanted wanted, constructField_of_wanted wanted]
      refine TracksAt.bind (.own (declareField_leadsAt className isOpen sits declared))
        (fun _ after _ _ => ?_) permits opens
      refine Tracks.bind (annotateField_tracks nested permitted className receiver level options
        context) (fun _ => ?_) after
      exact fillField_tracks nested permitted receiver level options context

theorem constructFields_tracksAt {className : String} {receiver : Receiver} {level : Level}
    (isOpen : opened receiver.owner) (options : CreateOptions) (context : ContextId)
    {fields : List Field} {world : World}
    (sits : world.level? receiver.owner receiver.level = some level)
    (declared : ∀ field ∈ fields, field ∈ (world.cls level.cls).fields) :
    TracksAt regime (constructFields perform className receiver level options context fields)
      (constructFields other className receiver level options context fields) world := by
  induction fields generalizing world with
  | nil => exact Tracks.pure () world
  | cons field rest ih =>
      refine (constructField_tracksAt nested isOpen sits (declared field List.mem_cons_self)
        options context).bind fun _ after _ evolves => ?_
      have same := evolves.continues.hierarchy.ask ClassDef.fields (fun _ => rfl) level.cls
      refine ih (evolves.continues.level? sits) fun other member => ?_
      rw [same]
      exact declared other (List.mem_cons_of_mem field member)

theorem annotateLevel_tracks {cls : ClassDef}
    (permitted : DeclareOnly may (annotationBodies cls.annotations)) (id : InstanceId)
    (options : CreateOptions) (context : ContextId) (place : Nat) :
    Tracks regime (annotateLevel perform id options context place cls)
      (annotateLevel other id options context place cls) := by
  unfold annotateLevel
  split
  · exact .bind (createAnnotations_tracks nested _ _ context permitted) fun created =>
      .own (.change fun _ => .attach id created)
  · exact .pure _

theorem constructLevel_tracks {id : InstanceId} (isOpen : opened id) (options : CreateOptions)
    (context : ContextId) (place : Nat) :
    Tracks regime (constructLevel perform id options context place)
      (constructLevel other id options context place) := by
  intro world permits opens
  cases sits : world.level? id place with
  | none =>
      exact TracksAt.of_apply (.refl world) (constructLevel_of_none sits)
        (constructLevel_of_none sits) permits opens
  | some level =>
      have permitted : DeclareOnly may (annotationBodies (world.cls level.cls).annotations) :=
        (permits.classes level.cls).of_subset fun body inside =>
          List.mem_append_left _ (List.mem_append_left _ inside)
      refine TracksAt.congr (.refl world) (constructLevel_of_some sits)
        (constructLevel_of_some sits) ?_ permits opens
      refine TracksAt.bind (annotateLevel_tracks nested permitted id options context place world)
        fun _ after _ evolves => ?_
      have same := evolves.continues.hierarchy.ask ClassDef.fields (fun _ => rfl) level.cls
      refine constructFields_tracksAt nested isOpen options context
        (evolves.continues.level? sits) fun field member => ?_
      rw [same]
      exact member

theorem constructLevels_tracks {id : InstanceId} (isOpen : opened id) (options : CreateOptions)
    (context : ContextId) (place : Nat) :
    Tracks regime (constructLevels perform id options context place)
      (constructLevels other id options context place) := by
  induction place with
  | zero => exact .pure _
  | succ place ih =>
      exact .bind (constructLevel_tracks nested isOpen options context place) fun _ => ih

theorem resolveConstructor_tracks (id : InstanceId) :
    Tracks regime (resolveConstructor perform id)
      (resolveConstructor other id) := by
  refine .of_get fun seen => .after (metaLink?_leads _ _) fun link => ?_
  cases link with
  | none => exact .of_get fun _ => .own (newPlaceholder_leads _)
  | some link =>
      refine .of_get fun seen => .after (openScope?_leads id _) fun scope => ?_
      cases scope with
      | none => exact .throw _
      | some scope => exact .bind (nested.read scope _) fun value => .own (requireFunction_leads value)

theorem preConstruct_tracks (id : InstanceId) (context : ContextId) (args : List Value)
    (annotations : List InstanceId) :
    Tracks regime (preConstruct perform id context args annotations)
      (preConstruct other id context args annotations) := by
  induction annotations generalizing args with
  | nil => exact .pure _
  | cons annotation rest ih =>
      refine .after (newList_leads args) fun list => ?_
      refine .bind (hook_tracks nested context annotation _ _) fun result => ?_
      exact .of_get fun seen => ih _

theorem postConstruct_tracks (id : InstanceId) (context : ContextId) (args : List Value)
    (annotations : List InstanceId) :
    Tracks regime (postConstruct perform id context args annotations)
      (postConstruct other id context args annotations) := by
  induction annotations with
  | nil => exact .pure _
  | cons annotation rest ih =>
      refine .after (newList_leads args) fun list => ?_
      exact .bind (hook_tracks nested context annotation _ _) fun _ => ih

theorem callConstructor_tracks {context : ContextId} (pushes : regime.PushesOn context)
    (id : InstanceId) (args : List Value) :
    Tracks regime (callConstructor perform id args context)
      (callConstructor other id args context) := by
  refine .bind (resolveConstructor_tracks nested id) fun constructor => ?_
  refine .of_get fun seen => .of_get fun named => ?_
  refine .bind (.withFrame context _ (fun lax => lax) pushes
    (preConstruct_tracks nested id context args _)) fun args => ?_
  refine .bind (nested.call constructor args context) fun _ => ?_
  exact postConstruct_tracks nested id context args _

omit nested in
theorem markInstance_leads (id : InstanceId) (options : CreateOptions) :
    Leads may opened (do
      if options.has .markInitialized then
        Exec.change (·.withObject id fun object => { object with initialized := true }) :
          Exec Unit) := by
  split
  · exact .change fun _ => .mark id
  · exact .pure _

theorem finishInstance_tracks {context : ContextId} (pushes : regime.PushesOn context)
    (id : InstanceId) (options : CreateOptions) (args : List Value) (className : String) :
    Tracks regime (finishInstance perform id options args className context)
      (finishInstance other id options args className context) := by
  have marked : Leads may opened _ := markInstance_leads id options
  unfold finishInstance
  by_cases wanted : options.has .callConstructor = true
  · rw [if_pos wanted, if_pos wanted]
    exact .bind (.wrapFault (callConstructor_tracks nested pushes id args)) fun _ => .own marked
  · rw [if_neg wanted, if_neg wanted]
    exact .own marked

omit nested in
theorem constructionContext_leads (options : CreateOptions) :
    Leads may opened (constructionContext options) := by
  unfold constructionContext
  split
  · exact .pure _
  · exact newConfiguredContext_leads

theorem constructInstance_tracks (pushes : regime.Pushes) {id : InstanceId} (isOpen : opened id)
    (options : CreateOptions) (args : List Value) :
    Tracks regime (constructInstance perform id options args)
      (constructInstance other id options args) := by
  intro world
  cases initialized : (world.object id).initialized with
  | true =>
      exact .of_apply (.refl world) (constructInstance_of_initialized initialized)
        (constructInstance_of_initialized initialized)
  | false =>
      refine .congr (.refl world) (constructInstance_of_new initialized)
        (constructInstance_of_new initialized) ?_
      refine Tracks.after (constructionContext_leads options) (fun context => ?_) world
      refine .bind (constructLevels_tracks nested isOpen options context _) fun _ => ?_
      exact finishInstance_tracks nested pushes id options args _

/-! ## Calls -/

omit nested in
theorem liveReceiver_leads (callable : Callable) : Leads may opened (liveReceiver callable) := by
  unfold liveReceiver
  split
  · exact .pure _
  · refine .of_get fun seen => ?_
    split
    · exact .pure _
    · exact .bind (.throw _) fun _ => .pure _

omit nested in
theorem requireReceiver_leads (callable : Callable) :
    Leads may opened (requireReceiver callable) := by
  refine .bind (liveReceiver_leads callable) fun receiver => ?_
  cases receiver with
  | none => exact .throw _
  | some receiver => exact .pure _

omit nested in
theorem marshalArguments_leads (params : List ValueType) (args : List Value) :
    Leads may opened (marshalArguments params args) := by
  have handed : ∀ pairs, Leads may opened (hostArguments pairs) := by
    intro pairs
    induction pairs with
    | nil => exact .pure _
    | cons pair rest ih => exact .bind (toHost_leads _ _) fun _ => .bind ih fun _ => .pure _
  exact .bind (checkArity_leads _ _) fun _ => handed _

omit nested in
theorem levelHost_leads (receiver : Receiver) : Leads may opened (levelHost receiver) := by
  have found : Leads may opened (levelReference receiver) := by
    refine .of_get fun seen => ?_
    split
    · exact .pure _
    · exact .throw _
  exact .bind found fun reference => resolveReference_leads reference

theorem forwardToBase_tracks (receiver : Receiver) (args : List Value) (context : ContextId) :
    Tracks regime (forwardToBase perform receiver args context)
      (forwardToBase other receiver args context) := by
  refine .of_get fun seen => ?_
  cases seen.level? receiver.owner (receiver.level + 1) with
  | none => exact .pure _
  | some base =>
      refine .after (metaLink?_leads _ _) fun link => ?_
      cases link with
      | none => exact .pure _
      | some link =>
          refine .of_get fun seen => .after (openScope?_leads _ _) fun scope => ?_
          cases scope with
          | none => exact .throw _
          | some scope =>
              refine .bind (nested.read scope _) fun value => ?_
              refine .after (requireFunction_leads value) fun constructor => ?_
              exact nested.call constructor args context

theorem runBody_tracks (callable : Callable) {function : Function}
    (permitted : DeclareOnly may function.bodies) (args : List Value) (context : ContextId) :
    Tracks regime (runBody perform callable function.body args context)
      (runBody other callable function.body args context) := by
  obtain ⟨name, access, role, returns, body, annotations, owner⟩ := function
  cases body with
  | script expr =>
      have inside : ∀ name ∈ expr.declaredNames, may name := by
        intro name declared
        exact permitted name (Expr.mem_declaredNamesOfAll.mpr
          ⟨expr, List.mem_cons_self, declared⟩)
      exact .after (liveReceiver_leads callable) fun receiver =>
        evaluate_tracks nested _ expr inside
  | hostMethod method =>
      refine .after (requireReceiver_leads callable) fun receiver => ?_
      refine .after (levelHost_leads receiver) fun host => ?_
      refine .after (marshalArguments_leads _ _) fun args => ?_
      exact .after (method.invoke_leads host args) fun result => fromHost_tracks nested _ result
  | hostConstructor constructor =>
      refine .after (requireReceiver_leads callable) fun receiver => ?_
      refine .after (marshalArguments_leads _ _) fun args => ?_
      refine .after (constructor.invoke_leads args) fun host => ?_
      exact .after (bindHost_leads _ _ host) fun _ => .pure _
  | passThrough =>
      exact .after (requireReceiver_leads callable) fun receiver =>
        forwardToBase_tracks nested receiver args context
  | abstract => exact .throw _

omit nested in
theorem checkReturn_leads (returns : ValueType) (result : Value) :
    Leads may opened (checkReturn returns result) := by
  have coerced : Leads may opened (coerceReturn returns result) := by
    refine .bind (coerce?_leads returns result) fun stored => ?_
    cases stored with
    | some stored => exact .pure _
    | none => exact .bind (.ask _) fun _ => .throw _
  refine .of_get fun seen => ?_
  split
  · exact .pure _
  · exact coerced

/-- What a call does is compared in the regime of the states with its frame. -/
theorem callFunction_tracks {outer : Regime may opened} (excuses : regime.lax → outer.lax)
    (id : CallableId) (args : List Value) (context : ContextId)
    (enter : ∀ {world : World} {frame : Frame} {deeper : Context}, outer.holds world →
      (world.context context).push? frame = .ok deeper →
        regime.holds (world.withContext context fun _ => deeper)) :
    Tracks outer (callFunction perform id args context) (callFunction other id args context) := by
  refine .after requireAssembly_leads fun _ world permits opens => ?_
  refine Tracks.withFrame context _ excuses enter ?_ world permits opens
  cases held : (world.callables.get id).function with
  | none => exact .pure _
  | some function =>
      have permitted := permits.callables id function held
      exact .bind (runBody_tracks nested _ permitted args context) fun result =>
        .own (checkReturn_leads _ result)

/-! ## The machine -/

theorem step_tracks (pushes : regime.Pushes) {request : Request}
    (isOpen : ∀ id options args, request = .construct id options args → opened id) :
    Tracks regime (step perform request) (step other request) := by
  cases request with
  | call callable args context =>
      exact callFunction_tracks nested (fun lax => lax) callable args context pushes
  | read scope name => exact readScope_tracks nested.looksUp name scope
  | assign scope name value => exact assignScope_tracks nested.looksUp name value scope
  | construct id options args =>
      exact constructInstance_tracks nested pushes (isOpen id options args rfl) options args

end

theorem step_leads {perform : Perform} (leads : perform.Leads) : Perform.Leads (step perform) :=
  fun may opened _ isOpen => (step_tracks (leads.tracks may opened) Regime.idle_pushes isOpen).leads

/-- Whatever the machine does within a budget is made of the changes that are listed for runs. -/
theorem performUpTo_leads (budget : Nat) : Perform.Leads (performUpTo budget) := by
  induction budget with
  | zero =>
      intro may opened request _
      exact .exhaust
  | succ budget ih => exact step_leads ih

end ScriptObjects

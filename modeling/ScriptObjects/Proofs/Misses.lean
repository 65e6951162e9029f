import ScriptObjects.Proofs.Fields

/-!
# A store that knows a name never misses it

A composite goes on to its next source when a source reports that the name is not
declared.  Once the registry was validated, and while all instances have all levels, a
store that has a slot of the name, or stands for a function of it, never reports that.
The hooks of annotations may do what they like on the way: their own lookups concern
functions that are there, and what their bodies raise is reported as the failure of a
hook.  The annotations of a function are created when its slot is there already, and
what is raised meanwhile is reported as a failure to attach them.

The one source of false reports is left to be excluded by hypothesis: a marshaler that
answers with a missing variable of the very name.
-/

namespace ScriptObjects

set_option autoImplicit false

open Exec

namespace World

/-- A store has a slot of a name, or stands for a function of it. -/
def Knows (world : World) (store : StoreId) (name : String) : Prop :=
  (world.store store).declares name = true ∨ ∃ offer, world.offer? store name = some offer

/-- The marshaler does not report a name as missing. -/
def Trusts (world : World) (name : String) : Prop :=
  world.marshaling = .selective → ∀ object, refusedCount? object ≠ some name

theorem Trusts.of_standard {world : World} (standard : world.marshaling = .standard)
    (name : String) : world.Trusts name := by
  intro selective
  rw [standard] at selective
  cases selective

theorem Trusts.later {name : String} {before after : World} (trusts : before.Trusts name)
    (continues : before.Continues after) : after.Trusts name :=
  fun selective => trusts (continues.marshaling.symm.trans selective)

theorem Declares.earlier {before after : World} {function : Function}
    (declares : after.Declares function) (continues : before.Continues after) :
    before.Declares function := by
  obtain global | ⟨id, member⟩ := declares
  · left
    rw [continues.functions] at global
    exact global
  · right
    rw [continues.hierarchy.ask ClassDef.functions fun _ => rfl] at member
    exact ⟨id, member⟩

end World

/-! ## Going on to the next source -/

section

variable {α : Type} {name : String} {run next : Exec α} {world after : World}

theorem orElseMissing_of_done {result : α} (ends : run world = (.done result, after)) :
    orElseMissing name run next world = (.done result, after) := by
  unfold orElseMissing Exec.recover
  rw [ends]

theorem orElseMissing_of_missing
    (ends : run world = (.failed (.lookup (.notDeclared name)), after)) :
    orElseMissing name run next world = next after := by
  unfold orElseMissing Exec.recover
  rw [ends]
  simp [Fault.isMiss, LookupFault.notDeclared]

theorem orElseMissing_of_other
    (other : ∀ fault last, run world = (.failed fault, last) → fault.isMiss name = false) :
    orElseMissing name run next world = run world := by
  unfold orElseMissing Exec.recover
  rcases ends : run world with ⟨outcome, last⟩
  cases outcome with
  | done result => rfl
  | failed fault =>
      dsimp only
      rw [other fault last ends]
      rfl
  | exhausted => rfl

end

/-! ## Runs that pass -/

namespace Exec

variable {α β : Type}

/-- From a validated state, a run does not report a name as missing. -/
def PassesAt (name : String) (run : Exec α) (world : World) : Prop :=
  world.Ready → world.Trusts name → ∀ fault after, run world = (.failed fault, after) →
    fault.isMiss name = false

namespace PassesAt

variable {name : String} {world : World}

theorem of_foreign {run : Exec α} (foreign : FaultsIn Fault.Foreign run) :
    PassesAt name run world :=
  fun _ _ fault after ends => (foreign world fault after ends).isMiss name

theorem throw {fault : Fault} (other : fault.isMiss name = false) :
    PassesAt name (throw fault : Exec α) world := by
  intro _ _ raised after ends
  cases ends
  exact other

theorem pure (result : α) : PassesAt name (pure result : Exec α) world :=
  fun _ _ _ _ ends => nomatch ends

theorem of_get {next : World → Exec β} (second : PassesAt name (next world) world) :
    PassesAt name ((get : Exec World) >>= next) world :=
  second

theorem bind {run : Exec α} {next : α → Exec β} (leads : LeadsFreely run)
    (first : PassesAt name run world)
    (second : ∀ result after, run world = (.done result, after) → Proceeds world after →
      PassesAt name (next result) after) : PassesAt name (run >>= next) world := by
  intro ready trusts fault last ends
  obtain raised | ⟨result, after, done, later⟩ := bind_failed ends
  · exact first ready trusts fault last raised
  · have proceeds := leads.proceeds world
    rw [done] at proceeds
    exact second result after done proceeds (ready.proceed proceeds)
      (trusts.later (ready.continues proceeds)) fault last later

/-- Where a name is not the one in question, a run may go on to another when it is missing. -/
theorem orElseMissing {label : String} {run next : Exec α} (leads : LeadsFreely run)
    (first : PassesAt name run world)
    (second : label ≠ name → ∀ after, Proceeds world after → PassesAt name next after) :
    PassesAt name (ScriptObjects.orElseMissing label run next) world := by
  intro ready trusts fault last ends
  unfold ScriptObjects.orElseMissing Exec.recover at ends
  have proceeds := leads.proceeds world
  rcases ended : run world with ⟨outcome, after⟩
  rw [ended] at ends proceeds
  cases outcome with
  | done result => cases ends
  | failed raised =>
      have other := first ready trusts raised after ended
      dsimp only at ends
      split at ends
      · next missing =>
          have differs : label ≠ name := by
            rintro rfl
            rw [other] at missing
            cases missing
          exact second differs after proceeds (ready.proceed proceeds)
            (trusts.later (ready.continues proceeds)) fault last ends
      · cases ends
        exact other
  | exhausted => cases ends

end PassesAt

end Exec

/-! ## Hooks -/

/-- A way to perform requests is such that lookups in stores that know the name do not miss it. -/
def Perform.Reads (perform : Perform) (name : String) : Prop :=
  ∀ world store label, (label = name → world.Knows store label) →
    PassesAt name (perform (.read (.store store) label)) world

/-- The store from which a meta-function is fetched knows it. -/
theorem World.Ready.knows_link {world : World} (ready : world.Ready) {id : InstanceId}
    {link : MetaLink} (links : world.Links (world.object id).cls link) {level : Level}
    (sits : world.level? id ((world.levelOf? id link.owner.hash).getD 0) = some level) :
    world.Knows (level.declarations link.access) link.key.methodName := by
  have chain := ready.whole id (World.inside_of_level? sits)
  have begins : (world.object id).levels.map Level.cls <+: world.ancestors (world.object id).cls :=
    chain ▸ List.prefix_rfl
  obtain ⟨place, declarer, leads⟩ := links.leadsTo fun member => World.level_of_member chain
  rw [leads.levelOf?_eq begins ready.sound.registered, Option.getD_some, leads.sits] at sits
  obtain rfl : declarer = level := Option.some.inj sits
  exact .inr ⟨_, leads.offered begins ready.sound⟩

/-- Asking a class for its meta-functions keeps its table and walks to some bases. -/
theorem World.keepMetaTable_eq (world : World) (id : ClassId) :
    world.keepMetaTable id = { world with
      classes := (world.keepMetaTable id).classes
      classRefs := (world.keepMetaTable id).classRefs } := by
  unfold World.keepMetaTable
  split
  · rfl
  · rw [World.resolveBases_eq]
    rfl

/-- What follows the fetching of the function of a hook reports no name as missing. -/
theorem callFetched_foreign (perform : Perform) (context : ContextId) (key : MetaKey)
    (args : List Value) {scope : Scope} (value : (Request.read scope key.methodName).Answer) :
    FaultsIn Fault.Foreign (match value with
      | .function callable => do
          let result ← Exec.wrapFault (.hookFailed key) (perform (.call callable args context))
          return some (← castReturn key result)
      | other => do throw (.hookNotCallable key (← typeNameOf other)) : Exec (Option Value)) := by
  split
  · refine .bind (.wrapFault _ fun _ _ same => nomatch same) fun result => ?_
    refine .bind ?_ fun _ => .pure _
    unfold castReturn
    split
    · exact .pure _
    · exact .bind (.ask _) fun _ => .throw fun _ same => nomatch same
  · exact .bind (.ask _) fun _ => .throw fun _ same => nomatch same

section

variable {perform : Perform} {name : String} (nested : perform.Leads)
  (reads : perform.Reads name)
include nested reads

theorem hook_passes (context : ContextId) (id : InstanceId) (key : MetaKey) (args : List Value)
    (world : World) : PassesAt name (hook perform context id key args) world := by
  intro start trusts
  refine PassesAt.of_get (.bind (metaLink?_leads _ key) (fun _ _ _ _ ends => nomatch ends) ?_)
    start trusts
  intro found after asked proceeds
  cases found with
  | none => exact .pure _
  | some link =>
      have link_found : (world.metaTable (world.object id).cls).get? key = some link :=
        Outcome.done.inj (Prod.mk.inj asked).1
      have kept : world.keepMetaTable (world.object id).cls = after := (Prod.mk.inj asked).2
      obtain ⟨keyed, links⟩ := start.sound.registered.links link_found
      have continues := start.continues proceeds
      have same : (after.object id).cls = (world.object id).cls := by
        rw [← kept, World.keepMetaTable_eq]
        rfl
      have later : after.Links (after.object id).cls link := by
        rw [same]
        exact links.transfer continues.hierarchy
      intro ready
      refine PassesAt.of_get (.bind (openScope?_leads id _) (fun _ _ fault last ends => ?_) ?_)
        ready
      · cases sits : after.level? id ((after.levelOf? id link.owner.hash).getD 0) with
        | none =>
            rw [openScope?_of_none sits] at ends
            cases ends
        | some level =>
            rw [openScope?_declarations sits rfl] at ends
            cases ends
      · intro scope opened ends _
        cases sits : after.level? id ((after.levelOf? id link.owner.hash).getD 0) with
        | none =>
            rw [openScope?_of_none sits] at ends
            cases ends
            exact .throw rfl
        | some level =>
            rw [openScope?_declarations sits rfl] at ends
            cases ends
            have knows := ready.knows_link later sits
            rw [keyed] at knows
            refine .bind ((nested.tracks _ _).read _ _).leads (reads _ _ _ fun _ => knows)
              fun value _ _ _ => .of_foreign (callFetched_foreign perform context key args value)

theorem intercept_passes (key : MetaKey) (label : String) (value : Value)
    (annotations : List InstanceId) (world : World) :
    PassesAt name (intercept perform key label value annotations) world := by
  induction annotations generalizing value world with
  | nil => exact .pure _
  | cons annotation rest ih =>
      refine .bind ((hook_tracks (nested.tracks _ _) _ annotation key _).leads)
        (hook_passes nested reads _ annotation key _ world) fun result after _ _ => ?_
      cases result with
      | none => exact ih value after
      | some result => exact ih result after

/-! ## Slots -/

omit nested reads in
theorem fromHost_passes (constructs : ∀ id options args,
    FaultsIn Fault.Foreign (perform (.construct id options args))) (type : ValueType)
    (host : HostId) (world : World) : PassesAt name (fromHost perform type host) world := by
  have coerced : ∀ value, FaultsIn Fault.Foreign (coerceBack type value) := by
    intro value
    refine .bind (coerce?_foreign type value) fun result => ?_
    cases result with
    | some result => exact .pure _
    | none => exact .of_get fun _ => .throw fun _ same => nomatch same
  have taken : ∀ object : HostObject,
      FaultsIn Fault.Foreign (takeBack perform type host object) := by
    intro object
    unfold takeBack
    cases object.directValue? with
    | some value => exact .bind (.pure _) coerced
    | none => exact .bind (wrapHost_foreign perform constructs host) coerced
  intro ready trusts
  refine PassesAt.bind (.ask _) (.of_foreign (.ask _)) (fun object after _ proceeds => ?_)
    ready trusts
  refine .of_get ?_
  by_cases selective : after.marshaling = .selective
  · rw [if_pos selective]
    cases refused : refusedCount? object with
    | none => exact .of_foreign (taken object)
    | some other =>
        have differs : other ≠ name := by
          rintro rfl
          exact trusts.later (ready.continues proceeds) selective object refused
        refine .bind (.throw _) (.throw ?_) fun _ _ ends => nomatch ends
        simp [Fault.isMiss, LookupFault.notDeclared, differs]
  · rw [if_neg selective]
    exact .of_foreign (taken object)

theorem readSlot_passes (constructs : ∀ id options args,
    FaultsIn Fault.Foreign (perform (.construct id options args))) (store : StoreId)
    (label : String) (world : World)
    (known : label = name → (world.store store).declares label = true) :
    PassesAt name (readSlot perform store label) world := by
  have intercepted : ∀ (slot : Slot) (value : Value) (after : World), PassesAt name (do
      if slot.annotations.isEmpty then return value
      requireStoreAssembly store
      intercept perform .onRead label value slot.annotations : Exec Value) after := by
    intro slot value after
    split
    · exact .pure _
    · exact .bind (requireStoreAssembly_leads store)
        (.of_foreign (requireStoreAssembly_foreign store)) fun _ later _ _ =>
          intercept_passes nested reads _ label value _ later
  refine .of_get ?_
  cases found : (world.store store).slot? label with
  | none =>
      refine .throw ?_
      have differs : label ≠ name := by
        intro same
        have declared := known same
        simp [Store.declares, found] at declared
      simp [Fault.isMiss, LookupFault.notDeclared, differs]
  | some slot =>
      obtain ⟨type, content, annotations, immutable⟩ := slot
      cases content with
      | script value =>
          cases value with
          | none =>
              refine .bind (.throw _) (.throw rfl) fun _ _ ends => ?_
              cases ends
          | some value => exact .bind (.pure _) (.pure _) fun _ after _ _ => intercepted _ _ after
      | host accessor reference =>
          refine .bind (resolveReference_leads reference)
            (.of_foreign (resolveReference_foreign reference)) fun host _ _ _ => ?_
          refine .bind (accessor.read_leads host)
            (.of_foreign (accessor.read_foreign host)) fun raw _ _ _ => ?_
          refine .bind (requireStoreAssembly_leads store)
            (.of_foreign (requireStoreAssembly_foreign store)) fun _ _ _ _ => ?_
          exact .bind ((fromHost_tracks (nested.tracks _ _) type raw).leads)
            (fromHost_passes constructs type raw _) fun _ after _ _ => intercepted _ _ after

theorem assignSlot_passes (store : StoreId) (label : String) (value : Value) (world : World)
    (known : label = name → (world.store store).declares label = true) :
    PassesAt name (assignSlot perform store label value) world := by
  cases found : (world.store store).slot? label with
  | none =>
      have differs : label ≠ name := by
        intro same
        have declared := known same
        simp [Store.declares, found] at declared
      intro _ _ fault after ends
      rw [assignSlot_of_missing perform value found] at ends
      cases ends
      simp [Fault.isMiss, LookupFault.notDeclared, differs]
  | some slot =>
      cases held : slot.immutable with
      | true =>
          intro _ _ fault after ends
          rw [assignSlot_of_immutable perform value found held] at ends
          cases ends
          rfl
      | false =>
          unfold PassesAt
          rw [assignSlot_of_mutable perform value found held]
          have hooked : PassesAt name (writeHooks perform store label slot value) world := by
            unfold writeHooks
            split
            · exact .pure _
            · exact .bind (requireStoreAssembly_leads store)
                (.of_foreign (requireStoreAssembly_foreign store)) fun _ later _ _ =>
                  intercept_passes nested reads _ label value _ later
          refine PassesAt.bind
            (writeHooks_tracks (nested.tracks _ _).looksUp store label slot value).leads hooked
            fun result after _ _ => ?_
          unfold storeValue
          refine .bind (coerce?_leads _ _) (.of_foreign (coerce?_foreign _ _)) fun stored _ _ _ => ?_
          cases stored with
          | none =>
              exact .bind (.ask _) (.of_foreign (.ask _)) fun _ _ _ _ => .throw rfl
          | some stored =>
              refine .of_foreign ?_
              cases slot.content with
              | script old => exact .change _
              | host accessor reference =>
                  refine .bind (requireStoreAssembly_foreign store) fun _ => ?_
                  refine .bind (resolveReference_foreign reference) fun host => ?_
                  exact .bind (toHost_foreign _ _) fun raw => accessor.write_foreign host raw

/-! ## Functions as slots -/

omit nested reads in
theorem World.declares_install {world : World} {store : StoreId} {function : Function}
    (receiver : Option Receiver) (inside : store.index < world.stores.size)
    (free : (world.store store).declares function.name = false) :
    ((world.install store function receiver).store store).slot? function.name =
      some (.function world.callables.next) := by
  unfold World.install
  rw [World.store_withStore, if_pos ⟨rfl, inside⟩]
  exact Store.slot?_insert_same _ _ free

omit nested reads in
/-- A slot that is there stays there during a run. -/
theorem declares_later {α : Type} {run : Exec α} (leads : LeadsFreely run) {world : World}
    {store : StoreId} {label : String} (declared : (world.store store).declares label = true) :
    ((run world).2.store store).declares label = true := by
  obtain ⟨slot, found⟩ := Option.isSome_iff_exists.mp declared
  have evolves := leads world world.permits_all fun _ _ => trivial
  obtain ⟨later, still, _⟩ := evolves.keepsSlots store label slot found
  exact Option.isSome_iff_exists.mpr ⟨later, still⟩

omit reads in
/-- Where the slot of a function is there, only its annotations can fail to be created. -/
theorem attachAnnotations_foreign {store : StoreId} {function : Function}
    {receiver : Option Receiver} {context : ContextId} {world after : World} {fault : Fault}
    (declared : (world.store store).declares function.name = true)
    (ends : attachAnnotations perform store function receiver context world =
      (.failed fault, after)) : fault.Foreign := by
  obtain raised | ⟨created, between, done, later⟩ := bind_failed ends
  · exact (createAnnotations_distant perform _ receiver context _ world fault after raised).foreign
  · have leads : LeadsFreely (createAnnotations perform function.label receiver context
        function.annotations) :=
      (createAnnotations_tracks (nested.tracks _ _) _ receiver context (declareOnly_all _)).leads
    have still := declares_later leads declared
    rw [done] at still
    rw [annotateSlot_of_declared created still] at later
    cases later

omit reads in
/-- The annotations of a slot could not be created, or the slot is still there. -/
theorem attachOrWithdraw_ends {store : StoreId} {function : Function} {receiver : Option Receiver}
    {context : ContextId} {world after : World}
    (declared : (world.store store).declares function.name = true) :
    (∀ fault, attachOrWithdraw perform store function receiver context world =
      (.failed fault, after) → fault.Foreign) ∧
    (attachOrWithdraw perform store function receiver context world = (.done (), after) →
      (after.store store).declares function.name = true) := by
  have leads : LeadsFreely (attachAnnotations perform store function receiver context) :=
    (attachAnnotations_tracks (nested.tracks _ _) (declareOnly_all _) store receiver context).leads
  have still := declares_later leads declared
  unfold attachOrWithdraw Exec.recover
  rcases first : attachAnnotations perform store function receiver context world with
    ⟨outcome, last⟩
  rw [first] at still
  cases outcome with
  | done result => exact ⟨fun _ ends => (nomatch ends), fun ends => by cases ends; exact still⟩
  | failed raised =>
      refine ⟨fun fault ends => ?_, fun ends => nomatch ends⟩
      cases ends
      exact attachAnnotations_foreign nested declared first
  | exhausted => exact ⟨fun _ ends => (nomatch ends), fun ends => nomatch ends⟩

omit reads in
/-- How turning a function into a slot ends: the name was taken, the annotations could not be
created, or the slot is there. -/
theorem installFunction_ends {store : StoreId} {function : Function} (receiver : Option Receiver)
    {world after : World} (inside : store.index < world.stores.size) :
    (∀ fault, installFunction perform store function receiver world = (.failed fault, after) →
      ∀ name, fault.isMiss name = false) ∧
    (installFunction perform store function receiver world = (.done (), after) →
      (after.store store).declares function.name = true) := by
  cases free : (world.store store).declares function.name with
  | true =>
      rw [installFunction_of_taken perform receiver free]
      refine ⟨fun fault ends name => ?_, fun ends => ?_⟩ <;> cases ends
      rfl
  | false =>
      have there : ((world.install store function receiver).store store).declares function.name =
          true := by
        simp [Store.declares, World.declares_install receiver inside free]
      by_cases plain : function.annotations = []
      · rw [installFunction_of_plain perform receiver free plain]
        refine ⟨fun fault ends => ?_, fun ends => ?_⟩ <;> cases ends
        exact there
      · rw [installFunction_of_annotated perform receiver free plain]
        refine ⟨fun fault raised name => ?_, fun ends => ?_⟩
        · exact ((attachOrWithdraw_ends nested (by exact there)).1 fault raised).isMiss name
        · exact (attachOrWithdraw_ends nested (by exact there)).2 ends

omit reads in
/-- What a store stands for is a slot after it was looked up, or the reason why not is no miss. -/
theorem materialize_of_offer {world after : World} (alive : world.alive = true) {store : StoreId}
    {label : String} {offer : Function × Option Receiver}
    (offered : world.offer? store label = some offer) :
    (∀ fault, materialize perform store label world = (.failed fault, after) →
      ∀ name, fault.isMiss name = false) ∧
    ∀ found, materialize perform store label world = (.done found, after) →
      found = true ∧ (after.store store).declares label = true := by
  obtain ⟨function, receiver⟩ := offer
  obtain ⟨_, rfl⟩ := World.offer?_declared offered
  have inside := World.inside_of_offer?
    ((offer?_askedFor world store function.name store function.name).trans offered)
  rw [materialize_of_some perform alive offered]
  split
  · refine ⟨fun fault ends name => ?_, fun found ends => ?_⟩
    · obtain raised | ⟨_, _, _, later⟩ := bind_failed ends
      · exact (installFunction_ends nested receiver inside).1 fault raised name
      · cases later
    · obtain ⟨_, between, installed, later⟩ := bind_done ends
      cases later
      exact ⟨rfl, (installFunction_ends nested receiver inside).2 installed⟩
  · refine ⟨fun fault ends name => ?_, fun found ends => ?_⟩ <;> cases ends
    rfl

omit nested reads in
/-- What a store stands for becomes a slot at once where it is not annotated. -/
theorem materialize_of_plain (perform : Perform) {world : World} (ready : world.Ready)
    {store : StoreId} {label : String} {function : Function} {receiver : Option Receiver}
    (offered : world.offer? store label = some (function, receiver))
    (free : (world.store store).declares label = false) (plain : function.annotations = [])
    (living : (receiver.all fun target => (world.object target.owner).alive) = true) :
    materialize perform store label world = (.done true, world.install store function receiver) := by
  have named : function.name = label := (World.offer?_declared offered).2
  subst named
  rw [materialize_of_some perform ready.alive offered, ready.bases.askedFor, if_pos living,
    bind_of_done _ (installFunction_of_plain perform receiver free plain)]
  rfl

omit reads in
theorem materialize_passes (store : StoreId) (label : String) (world : World) :
    PassesAt name (materialize perform store label) world := by
  intro ready trusts fault after ends
  cases offered : world.offer? store label with
  | some offer => exact (materialize_of_offer nested ready.alive offered).1 fault ends name
  | none =>
      cases home : (world.store store).home with
      | free attached =>
          rw [materialize_of_free perform home] at ends
          cases ends
      | level | root =>
          rw [materialize_of_none perform ready.alive offered] at ends
          cases ends

/-! ## Stores -/

omit nested reads in
theorem readSlot_of_missing (perform : Perform) {world : World} {store : StoreId} {label : String}
    (missing : (world.store store).slot? label = none) :
    readSlot perform store label world = (.failed (.lookup (.notDeclared label)), world) := by
  simp only [readSlot, get_bind_apply, missing, throw_apply]

omit nested reads in
theorem isMiss_notDeclared {label other : String} (differs : label ≠ other) :
    (Fault.lookup (.notDeclared label)).isMiss other = false := by
  simp [Fault.isMiss, LookupFault.notDeclared, differs]

omit reads in
/-- The second attempt at a lookup, after what the store stands for was turned into a slot. -/
theorem retry_passes {α : Type} {store : StoreId} {label : String} {next : Exec α} {world : World}
    (known : label = name → ∃ offer, world.offer? store label = some offer)
    (second : ∀ after, (label = name → (after.store store).declares label = true) →
      PassesAt name next after) :
    PassesAt name (do
      if ← materialize perform store label then next
      else throw (.lookup (.notDeclared label)) : Exec α) world := by
  intro ready
  have leads : LeadsFreely (materialize perform store label) :=
    (materialize_tracks (nested.tracks _ _).looksUp store label).leads
  refine PassesAt.bind leads (materialize_passes nested store label world)
    (fun found after ends _ => ?_) ready
  have slotted : label = name → found = true ∧ (after.store store).declares label = true := by
    intro same
    obtain ⟨offer, offered⟩ := known same
    exact (materialize_of_offer nested ready.alive offered).2 found ends
  cases found with
  | true => exact second after fun same => (slotted same).2
  | false => exact .throw (isMiss_notDeclared fun same => nomatch (slotted same).1)

omit reads in
/-- A lookup in a store that knows the name does not miss it, if its attempts at the slot do not
where the slot is there. -/
theorem lookup_passes {α : Type} {store : StoreId} {label : String} {attempt next : Exec α}
    {world : World} (leads : LeadsFreely attempt)
    (first : (label = name → (world.store store).declares label = true) →
      PassesAt name attempt world)
    (missing : (world.store store).slot? label = none →
      attempt world = (.failed (.lookup (.notDeclared label)), world))
    (second : ∀ after, (label = name → (after.store store).declares label = true) →
      PassesAt name next after)
    (known : label = name → world.Knows store label) :
    PassesAt name (orElseMissing label attempt do
      if ← materialize perform store label then next
      else throw (.lookup (.notDeclared label)) : Exec α) world := by
  by_cases declared : label = name → (world.store store).declares label = true
  · refine .orElseMissing leads (first declared) fun differs after _ => ?_
    exact retry_passes nested (fun same => absurd same differs) second
  · obtain ⟨same, free⟩ := Classical.not_imp.mp declared
    have offered := (known same).resolve_left free
    unfold PassesAt
    rw [orElseMissing_of_missing (missing (by simpa [Store.declares] using free))]
    exact retry_passes nested (fun _ => offered) second

theorem readStore_passes (constructs : ∀ id options args,
    FaultsIn Fault.Foreign (perform (.construct id options args))) (store : StoreId)
    (label : String) (world : World) (known : label = name → world.Knows store label) :
    PassesAt name (readStore perform store label) world :=
  lookup_passes nested ((readSlot_tracks (nested.tracks _ _).looksUp store label).leads)
    (readSlot_passes nested reads constructs store label world) (readSlot_of_missing perform)
    (readSlot_passes nested reads constructs store label) known

theorem assignStore_passes (store : StoreId) (label : String) (value : Value) (world : World)
    (known : label = name → world.Knows store label) :
    PassesAt name (assignStore perform store label value) world :=
  lookup_passes nested ((assignSlot_tracks (nested.tracks _ _).looksUp store label value).leads)
    (assignSlot_passes nested reads store label value world) (assignSlot_of_missing perform value)
    (fun _ _ => .throw rfl) known

end

/-! ## The machine -/

/-- Within every budget, a store that knows a name does not miss it. -/
theorem performUpTo_reads (name : String) (budget : Nat) :
    Perform.Reads (performUpTo budget) name := by
  induction budget with
  | zero => exact fun _ _ _ _ => .of_foreign .exhaust
  | succ budget ih =>
      intro world store label known
      exact readStore_passes (performUpTo_leads budget) ih (performUpTo_construct_foreign budget)
        store label world known

end ScriptObjects

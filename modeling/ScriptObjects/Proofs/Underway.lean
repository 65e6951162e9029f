import ScriptObjects.Proofs.Tracing

/-!
# While a construction is under way

What a construction relies on from its start to its end.  A class keeps its meta-functions and a
reference its class; the stores that were empty at the start hold nothing but plain slots and
slots that the declarations explain; and the instances that are constructed on the way are new.
So the function of a hook is looked up without running a body, unless it is annotated itself.
-/

namespace ScriptObjects

set_option autoImplicit false

open Exec

/-! ## Classes keep their meta-functions -/

theorem World.SameHierarchy.metaTable {first second : World} (same : SameHierarchy first second)
    {id : ClassId} (kept : (second.cls id).metaTable = (first.cls id).metaTable) :
    second.metaTable id = first.metaTable id := by
  unfold World.metaTable
  rw [kept, same.buildMetaTable]

theorem Change.metaTable_eq {may : String → Prop} {opened : InstanceId → Prop} {first second : World}
    (change : Change may opened first second) (id : ClassId) :
    second.metaTable id = first.metaTable id := by
  obtain same | ⟨missing, rfl⟩ := change.metaTable_cases id
  · exact change.continues.hierarchy.metaTable same
  · unfold World.metaTable
    rw [missing, World.cls_withClass]
    split
    · rfl
    · rw [missing]
      exact change.continues.hierarchy.buildMetaTable id

theorem Evolves.metaTable {may : String → Prop} {opened : InstanceId → Prop} {first second : World}
    (evolves : Evolves may opened first second) (id : ClassId) :
    second.metaTable id = first.metaTable id := by
  refine evolves.lift (motive := fun first second => second.metaTable id = first.metaTable id)
    (fun _ => rfl) (fun one two => two.trans one) (fun change => change.metaTable_eq id) ?_ ?_
  · intro second third context frame deeper _ inside
    have pushed := World.Continues.withContext second context fun _ => deeper
    have popped := World.Continues.withContext third context
      (·.truncate (second.context context).depth)
    exact (popped.hierarchy.metaTable rfl).trans (inside.trans (pushed.hierarchy.metaTable rfl))
  · intro second third store callable function receiver _ _ _ inside
    have inserted := World.Continues.withStore second store
      (·.insert function.name (.function callable)) fun _ => rfl
    have erased := World.Continues.withStore third store (·.erase function.name) fun _ => rfl
    exact (erased.hierarchy.metaTable rfl).trans (inside.trans (inserted.hierarchy.metaTable rfl))

theorem Evolves.size_classRefs {may : String → Prop} {opened : InstanceId → Prop}
    {first second : World} (evolves : Evolves may opened first second) :
    second.classRefs.size = first.classRefs.size :=
  evolves.lift (motive := fun first second => second.classRefs.size = first.classRefs.size)
    (fun _ => rfl) (fun one two => two.trans one) Change.size_classRefs
    (fun _ inside => inside) (fun _ _ _ inside => inside)

/-- A reference stands for the class it stood for. -/
theorem Evolves.target? {may : String → Prop} {opened : InstanceId → Prop} {first second : World}
    (evolves : Evolves may opened first second) (reference : ClassRefId) :
    second.target? reference = first.target? reference := by
  have continues := evolves.continues
  by_cases inside : reference.index < first.classRefs.size
  · exact continues.targets reference inside
  · have beyond := Nat.le_of_not_lt inside
    have later : second.classRefs.size ≤ reference.index := by
      rw [evolves.size_classRefs]
      exact beyond
    unfold World.target? Heap.get
    rw [Heap.get?_eq_none _ beyond, Heap.get?_eq_none _ later, continues.alive]
    simp only [continues.hierarchy.findClass?]

namespace World

/-! ## Tidy stores -/

/-- Every slot of a store is plain, or the declarations explain what it is, and what is attached to
it was made when there were so many instances already. -/
def Tidy (world : World) (since : Nat) (store : StoreId) : Prop :=
  ∀ name slot, (world.store store).slot? name = some slot →
    slot.Plain ∨ world.Adorns since store name slot

theorem Tidy.later {before after : World} {except : InstanceId → Prop} {since : Nat}
    {store : StoreId} (tidy : before.Tidy since store) (earlier : since ≤ before.instances.size)
    (spares : Spares except before after) : after.Tidy since store := by
  intro name slot found
  obtain ⟨old, there⟩ | explained := spares.fresh store name slot found
  · obtain ⟨later, still, stays, persists⟩ := spares.slot there
    obtain rfl : later = slot := Option.some.inj (still.symm.trans found)
    obtain plain | adorns := tidy name old there
    · exact .inl (plain.later stays persists)
    · exact .inr (adorns.later spares.evolves.continues stays persists (Nat.le_refl _))
  · exact explained.imp_right fun adorns =>
      adorns.later (.refl after) (.refl slot) (.refl slot) earlier

/-! ## A construction under way -/

/-- What holds from the start of a construction on. -/
structure Underway (start now : World) : Prop where
  live : now.Live
  continues : start.Continues now
  tables : ∀ id, now.metaTable id = start.metaTable id
  targets : ∀ reference, now.target? reference = start.target? reference
  tidy : ∀ store, (∀ name, (start.store store).slot? name = none) →
    now.Tidy start.instances.size store
  whole : AddsWhole start now

namespace Underway

variable {start now next : World}

theorem refl (live : start.Live) : Underway start start where
  live := live
  continues := .refl start
  tables _ := rfl
  targets _ := rfl
  tidy store empty name slot found := by
    rw [empty name] at found
    cases found
  whole := .of_size rfl

theorem later {except : InstanceId → Prop} (underway : Underway start now)
    (spares : Spares except now next) : Underway start next where
  live := underway.live.later spares.evolves
  continues := underway.continues.trans spares.evolves.continues
  tables id := (spares.evolves.metaTable id).trans (underway.tables id)
  targets reference := (spares.evolves.target? reference).trans (underway.targets reference)
  tidy store empty := (underway.tidy store empty).later underway.continues.instances spares
  whole := underway.whole.trans spares.evolves.continues
    (spares.evolves.proceeds.addsWhole underway.live.1 underway.live.2)

theorem withContext (underway : Underway start now) (id : ContextId)
    (change : Context → Context) : Underway start (now.withContext id change) where
  live := ⟨underway.live.1, underway.live.2.withContext underway.live.1 id change⟩
  continues := underway.continues.trans (.withContext now id change)
  tables other :=
    (SameHierarchy.metaTable (Continues.withContext now id change).hierarchy rfl).trans
      (underway.tables other)
  targets := underway.targets
  tidy store empty name slot found := (underway.tidy store empty name slot found).imp_right
    fun adorns => adorns.later (.withContext now id change) (.refl slot) (.refl slot) (Nat.le_refl _)
  whole := underway.whole.trans (.withContext now id change) (.of_size rfl)

end Underway

/-! ## New instances -/

/-- An instance is whole, and its stores were empty at the start. -/
structure Newcomer (start now : World) (id : InstanceId) : Prop where
  inside : id.index < now.instances.size
  chain : (now.object id).levels.map Level.cls = now.ancestors (now.object id).cls
  empty : ∀ place level, now.level? id place = some level → ∀ tier name,
    (start.store (level.declarations tier)).slot? name = none

theorem Newcomer.later {start now next : World} {id : InstanceId}
    (newcomer : Newcomer start now id) (continues : now.Continues next) :
    Newcomer start next id where
  inside := Nat.lt_of_lt_of_le newcomer.inside continues.instances
  chain := by
    obtain ⟨cls, levels⟩ := continues.objects id newcomer.inside
    rw [cls, levels, continues.hierarchy.ancestors]
    exact newcomer.chain
  empty place level sits := by
    rw [continues.level?_eq newcomer.inside] at sits
    exact newcomer.empty place level sits

/-- The stores of an instance that was not there at the start were not there either. -/
theorem Underway.empty_of_new {start now : World} (underway : Underway start now)
    (laid : start.LaidOut) {id : InstanceId} (new : start.instances.size ≤ id.index)
    {place : Nat} {level : Level} (sits : now.level? id place = some level) (tier : Access)
    (name : String) : (start.store (level.declarations tier)).slot? name = none := by
  cases found : (start.store (level.declarations tier)).slot? name with
  | none => rfl
  | some slot =>
      have old := inside_of_slot? found
      have home := underway.live.2.laid.stores id place level sits tier
      rw [underway.continues.homes _ old] at home
      obtain ⟨same, there, _⟩ := laid.homes _ id place level.cls tier home
      exact absurd (inside_of_level? there) (Nat.not_lt_of_le new)

/-- A freshly allocated instance is whole and has nothing yet. -/
theorem newInstance_fresh {world allocated : World} {cls : ClassId} {options : CreateOptions}
    {created : InstanceId}
    (allocates : newInstance cls options world = (.done created, allocated)) :
    Newcomer allocated allocated created ∧ (allocated.object created).cls = cls ∧
      (allocated.object created).annotations = [] ∧
      (allocated.object created).initialized = false := by
  obtain ⟨pristine, same⟩ := newInstance_pristine allocates
  obtain ⟨rfl, rfl⟩ := newInstance_done allocates
  have fresh := allocate_allocates (world.resolveBases (world.ancestors cls)) cls
  have instances : (world.resolveBases (world.ancestors cls)).instances = world.instances :=
    (world.resolveBases_still _).instances
  have stores := fresh.stores
  obtain ⟨levels, object, _⟩ := fresh.object
  rw [instances] at object stores
  refine ⟨⟨pristine.inside, pristine.chain, fun place level sits tier name => ?_⟩, same, ?_, ?_⟩
  · rw [(stores place level sits tier).2]
    rfl
  · rw [object]
    rfl
  · rw [object]
    rfl

/-! ## Lookups that run no body -/

/-- No function of a name is annotated. -/
def Unadorned (world : World) (name : String) : Prop :=
  ∀ function, world.Declares function → function.name = name → function.annotations = []

theorem Unadorned.later {before after : World} {name : String} (unadorned : before.Unadorned name)
    (continues : before.Continues after) : after.Unadorned name :=
  fun function declares => unadorned function (declares.earlier continues)

end World

section

variable {world : World} {id : StoreId} {name : String} (one other : Perform)

/-- A store turns no function into a slot under a name that it declares. -/
theorem materialize_agrees (plain : ∀ function receiver,
      world.offer? id name = some (function, receiver) →
        function.annotations = [] ∨ (world.store id).declares name = true) :
    materialize one id name world = materialize other id name world := by
  cases alive : world.alive with
  | false =>
      by_cases home : ∃ attached, (world.store id).home = .free attached
      · obtain ⟨attached, free⟩ := home
        rw [materialize_of_free one free, materialize_of_free other free]
      · have bound : ∀ attached, (world.store id).home ≠ .free attached :=
          fun attached free => home ⟨attached, free⟩
        rw [materialize_of_dropped one bound alive, materialize_of_dropped other bound alive]
  | true =>
      cases offered : world.offer? id name with
      | none => rw [materialize_of_none one alive offered, materialize_of_none other alive offered]
      | some offer =>
          obtain ⟨function, receiver⟩ := offer
          have named := (World.offer?_declared offered).2
          have kept : (world.askedFor id name).store id = world.store id :=
            congrArg (fun heap => Heap.get heap id) (world.askedFor_still id name).stores
          have installs : installFunction one id function receiver (world.askedFor id name) =
              installFunction other id function receiver (world.askedFor id name) := by
            cases taken : ((world.askedFor id name).store id).declares function.name with
            | true =>
                rw [installFunction_of_taken one receiver taken,
                  installFunction_of_taken other receiver taken]
            | false =>
                have none : function.annotations = [] := by
                  refine (plain function receiver offered).resolve_right fun declared => ?_
                  rw [kept, named, declared] at taken
                  cases taken
                rw [installFunction_of_plain one receiver taken none,
                  installFunction_of_plain other receiver taken none]
          rw [materialize_of_some one alive offered, materialize_of_some other alive offered,
            bind_apply, bind_apply, installs]

/-- A function without annotations is a slot once it was turned into one. -/
theorem slot?_of_materialized (perform : Perform) {after : World}
    (missing : (world.store id).slot? name = none)
    (plain : ∀ function receiver, world.offer? id name = some (function, receiver) →
      function.annotations = [])
    (made : materialize perform id name world = (.done true, after)) :
    ∃ callable, (after.store id).slot? name = some (.function callable) := by
  cases alive : world.alive with
  | false =>
      by_cases home : ∃ attached, (world.store id).home = .free attached
      · obtain ⟨attached, free⟩ := home
        rw [materialize_of_free perform free] at made
        cases made
      · have bound : ∀ attached, (world.store id).home ≠ .free attached :=
          fun attached free => home ⟨attached, free⟩
        rw [materialize_of_dropped perform bound alive] at made
        cases made
  | true =>
      cases offered : world.offer? id name with
      | none =>
          rw [materialize_of_none perform alive offered] at made
          cases made
      | some offer =>
          obtain ⟨function, receiver⟩ := offer
          obtain ⟨_, rfl⟩ := World.offer?_declared offered
          rw [materialize_of_some perform alive offered] at made
          split at made
          · have still := (offer?_askedFor world id function.name id function.name).trans offered
            have free : ((world.askedFor id function.name).store id).declares function.name =
                false := by
              have kept : (world.askedFor id function.name).store id = world.store id :=
                congrArg (fun heap => Heap.get heap id) (world.askedFor_still id function.name).stores
              rw [kept]
              simp [Store.declares, missing]
            rw [bind_of_done _ (installFunction_of_plain perform receiver free
              (plain function receiver offered))] at made
            cases made
            exact ⟨_, World.declares_install receiver (World.inside_of_offer? still) free⟩
          · cases made

/-- What a store answers plainly it answers without performing any request. -/
theorem readStore_agrees (plain : world.AnswersPlainly name id) :
    readStore one id name world = readStore other id name world := by
  unfold World.AnswersPlainly at plain
  cases found : (world.store id).slot? name with
  | some slot =>
      rw [found] at plain
      obtain ⟨none, value, content⟩ := plain
      rw [World.readStore_of_script one found none content,
        World.readStore_of_script other found none content]
  | none =>
      rw [found] at plain
      have agrees := materialize_agrees one other fun function receiver offered =>
        .inl (plain function receiver offered)
      rw [World.readStore_of_missing one found, World.readStore_of_missing other found]
      rcases made : materialize other id name world with ⟨outcome, after⟩
      rw [made] at agrees
      cases outcome with
      | failed fault => rw [bind_of_failed _ agrees, bind_of_failed _ made]
      | exhausted => rw [bind_of_exhausted _ agrees, bind_of_exhausted _ made]
      | done answer =>
          rw [bind_of_done _ agrees, bind_of_done _ made]
          cases answer with
          | false => rw [if_neg Bool.false_ne_true, if_neg Bool.false_ne_true]
          | true =>
              obtain ⟨callable, slot⟩ := slot?_of_materialized other found plain made
              rw [if_pos rfl, if_pos rfl, World.readSlot_of_function one slot rfl rfl,
                World.readSlot_of_function other slot rfl rfl]

end

/-! ## Where hooks are looked up -/

namespace World

/-- The function of a link sits on the level at which its owner is looked for. -/
theorem Registered.level_of_link {world : World} (registered : world.Registered) {id : InstanceId}
    (chain : (world.object id).levels.map Level.cls = world.ancestors (world.object id).cls)
    {link : MetaLink} (links : world.Links (world.object id).cls link) {level : Level}
    (sits : world.level? id ((world.levelOf? id link.owner.hash).getD 0) = some level) :
    link.function ∈ (world.cls level.cls).functions := by
  obtain ⟨place, own, leads⟩ := links.leadsTo fun member => level_of_member chain
  rw [leads.levelOf?_eq (chain ▸ List.prefix_rfl) registered, Option.getD_some] at sits
  cases leads.sits.symm.trans sits
  exact leads.declared

/-- A slot of a level is no field of the name of a function of its class: the members of a class
have different names. -/
theorem Sound.not_ofField {world : World} (sound : world.Sound) {id : InstanceId} {place : Nat}
    {level : Level} (sits : world.level? id place = some level) {function : Function}
    (declared : function ∈ (world.cls level.cls).functions) (access : Access) :
    ¬ world.OfField (level.declarations access) function.name := by
  rintro ⟨owner, place, cls, tier, home, field, member, same, _⟩
  rw [sound.laid.stores id _ level sits access] at home
  cases home
  exact sound.registered.name_ne member declared same.symm

/-- The name of a function of a level of a new instance is answered there without running a body, as
long as no function of the name is annotated. -/
theorem Underway.answers_level {start now : World} (underway : Underway start now)
    {id : InstanceId} (newcomer : Newcomer start now id) {place : Nat} {level : Level}
    (sits : now.level? id place = some level) {function : Function}
    (declared : function ∈ (now.cls level.cls).functions)
    (unadorned : now.Unadorned function.name) (access : Access) :
    now.AnswersPlainly function.name (level.declarations access) := by
  unfold AnswersPlainly
  cases found : (now.store (level.declarations access)).slot? function.name with
  | none =>
      intro other receiver offered
      obtain ⟨declares, named⟩ := offer?_declared offered
      exact unadorned other declares named
  | some slot =>
      obtain plain | adorns := underway.tidy _ (newcomer.empty _ level sits access) _ slot found
      · exact plain
      · obtain field | ⟨⟨other, declares, same, annotated⟩, _⟩ := adorns.declared
        · exact absurd field (underway.live.2.not_ofField sits declared access)
        · exact absurd (unadorned other declares same) annotated

/-- Where a new instance declares a meta-function, it answers without running a body, as long as no
function of the name is annotated. -/
theorem Underway.answers_hook {start now next : World} (underway : Underway start now)
    {id : InstanceId} (newcomer : Newcomer start now id) {key : MetaKey}
    (unadorned : start.Unadorned key.methodName) {scope : Scope}
    (asked : hookScope? id key now = (.done (some scope), next)) :
    ∃ store, scope = .store store ∧ next.AnswersPlainly key.methodName store := by
  unfold hookScope? at asked
  rw [get_bind_apply] at asked
  obtain ⟨found, between, linked, opened⟩ := bind_done asked
  have spares : Spares (fun _ => True) now between := by
    have asks : Exec.Sparing (Exec.metaLink? (now.object id).cls key) :=
      .still (metaLink?_leads _ key) (metaLink?_still _ key)
    have spares := asks (fun _ => True) now underway.live
    rw [linked] at spares
    exact spares
  cases found with
  | none => cases opened
  | some link =>
      have link_found : (now.metaTable (now.object id).cls).get? key = some link :=
        Outcome.done.inj (Prod.mk.inj linked).1
      obtain ⟨keyed, links⟩ := underway.live.2.registered.links link_found
      have underway := underway.later spares
      have continues := spares.evolves.continues
      have registered := underway.live.2.registered
      obtain ⟨cls, _⟩ := continues.objects id newcomer.inside
      have newcomer := newcomer.later continues
      have links : between.Links (between.object id).cls link := by
        rw [cls]
        exact links.transfer continues.hierarchy
      dsimp only at opened
      rw [get_bind_apply] at opened
      cases sits : between.level? id ((between.levelOf? id link.owner.hash).getD 0) with
      | none =>
          rw [bind_of_done _ (openScope?_of_none sits)] at opened
          cases opened
      | some level =>
          rw [bind_of_done _ (openScope?_declarations sits rfl)] at opened
          cases opened
          refine ⟨level.declarations link.access, rfl, ?_⟩
          have declared := registered.level_of_link newcomer.chain links sits
          have named : link.function.name = key.methodName := by
            obtain ⟨_, _, _, named, _⟩ := links
            rw [named, keyed]
          have unadorned := unadorned.later underway.continues
          rw [← named] at unadorned ⊢
          exact underway.answers_level newcomer sits declared unadorned link.access

end World

end ScriptObjects

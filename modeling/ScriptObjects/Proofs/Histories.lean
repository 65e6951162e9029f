import ScriptObjects.Proofs.Layout
import ScriptObjects.Session

/-!
# Histories

A session is a history of what runs do, of what the host does directly, and of
definitions.  Between definitions a state proceeds to another through the changes of
runs and of the host; every state on the way counts, also in the middle of a run,
while frames are pushed and slots of functions wait for their annotations.

Every state that a session reaches while the assembly is there is sound: its registry
keeps its promises and its instances are laid out.
-/

namespace ScriptObjects

set_option autoImplicit false

/-! ## What the host does, and what opens and closes in the middle of a run -/

/-- A function that is declared on a class or on the assembly. -/
def World.Declares (world : World) (function : Function) : Prop :=
  function ∈ world.functions ∨ ∃ id, function ∈ (world.cls id).functions

theorem World.Declares.later {before after : World} {function : Function}
    (declares : before.Declares function) (continues : before.Continues after) :
    after.Declares function := by
  obtain global | ⟨id, member⟩ := declares
  · left
    rw [continues.functions]
    exact global
  · right
    refine ⟨id, ?_⟩
    rw [continues.hierarchy.ask ClassDef.functions fun _ => rfl]
    exact member

/-- One change of the state that the host makes, or that a run makes when it enters or leaves a
part of its own. -/
inductive HostChange (world : World) : World → Prop
  | context (id : ContextId) (update : Context → Context) :
      HostChange world (world.withContext id update)
  | withdraw (store : StoreId) (function : Function) (declared : world.Declares function)
      (annotated : function.annotations ≠ [])
      (held : ∀ slot, (world.store store).slot? function.name = some slot →
        slot.immutable = true) :
      HostChange world (world.withStore store (·.erase function.name))
  | declare (store : StoreId) (name : String) (slot : Slot) (isMutable : slot.immutable = false)
      (free : (world.store store).declares name = false) :
      HostChange world (world.withStore store (·.insert name slot))
  | freeStore (attached : Bool) :
      HostChange world { world with stores := world.stores.push (.empty (.free attached)) }
  | reference (reference : HostReference) :
      HostChange world { world with references := world.references.push reference }
  | classRef (name : String) (target : Option ClassId)
      (sound : ∀ id ∈ target, world.findClass? name = some id) :
      HostChange world { world with classRefs := world.classRefs.push ⟨name, target⟩ }
  | bindReference (id : ReferenceId) (host : HostId) :
      HostChange world (world.bindReference id host)
  | drop (id : InstanceId) :
      HostChange world (world.withObject id fun object => { object with alive := false })
  | bindings (entries : List (String × Binding)) :
      HostChange world { world with bindings := entries }
  | heldFrames (entries : List (String × HeldFrame)) :
      HostChange world { world with heldFrames := entries }
  | log (entries : List Snapshot) :
      HostChange world { world with log := entries }

namespace HostChange

variable {first second : World}

theorem continues (change : HostChange first second) (registered : first.Registered) :
    first.Continues second := by
  cases change with
  | context id update => exact .withContext first id update
  | withdraw store | declare store => exact .withStore first store _ fun _ => rfl
  | drop id => exact .withObject first id _ fun _ => ⟨rfl, rfl⟩
  | freeStore attached =>
      exact {
        stores := by simp
        homes := fun id old => congrArg Store.home (Heap.get_push_of_lt first.stores _ old) }
  | classRef name target sound =>
      refine registered.withRefs (by simp) fun reference old => ?_
      exact Heap.get_push_of_lt first.classRefs _ old
  | reference | bindReference | bindings | heldFrames | log => exact {}

theorem laidOut (change : HostChange first second) (registered : first.Registered)
    (laid : first.LaidOut) : second.LaidOut := by
  have continues := change.continues registered
  have same : ∀ {store name} {slot : Slot}, (first.store store).slot? name = some slot →
      slot.immutable = true → (∃ old, (first.store store).slot? name = some old ∧
        old.immutable = true ∧ slot.type = old.type ∧ slot.content = old.content) ∨
      ∃ function receiver, second.HoldsFunction slot function receiver ∧
        first.offer? store name = some (function, receiver) :=
    fun found held => .inl ⟨_, found, held, rfl, rfl⟩
  cases change with
  | context id update => exact laid.withContext id update
  | withdraw store function => exact laid.erase store _
  | declare store name slot isMutable free =>
      refine laid.keep continues (Heap.size_modify ..) rfl fun other label there found held => ?_
      exact same (World.slot?_insert_mutable isMutable found held) held
  | freeStore attached => exact laid.freeStore continues
  | drop id =>
      exact laid.keep continues rfl (Heap.size_modify ..) fun _ _ _ found held => same found held
  | reference | classRef | bindReference | bindings | heldFrames | log =>
      exact laid.keep continues rfl rfl fun _ _ _ found held => same found held

theorem sound (change : HostChange first second) (alive : first.alive = true)
    (sound : first.Sound) : second.Sound := by
  have continues := change.continues sound.registered
  refine ⟨sound.registered.later alive continues ?_ ?_,
    change.laidOut sound.registered sound.laid⟩
  · intro reference target beyond cached
    cases change with
    | classRef name known meant =>
        rw [Heap.get_push] at cached ⊢
        split at cached
        · next newest =>
            rw [if_pos newest]
            exact (continues.hierarchy.findClass? name).trans (meant target cached)
        · have inside := World.Continues.inside_of_remembered (by rw [cached]; rfl)
          exact absurd inside (Nat.not_lt_of_le beyond)
    | context | withdraw | declare | freeStore | reference | bindReference | drop | bindings
    | heldFrames | log =>
        have inside := World.Continues.inside_of_remembered
          (show (first.classRefs.get reference).target.isSome from cached ▸ rfl)
        exact absurd inside (Nat.not_lt_of_le beyond)
  · intro id table kept
    cases change <;> exact .inl kept

end HostChange

/-! ## Proceeding from state to state -/

/-- The state proceeds to another while nothing is defined and the assembly stays. -/
inductive Proceeds : World → World → Prop
  | refl (world : World) : Proceeds world world
  | run {first second third : World} (before : Proceeds first second)
      (change : Change (fun _ => True) (fun _ => True) second third) : Proceeds first third
  | host {first second third : World} (before : Proceeds first second)
      (change : HostChange second third) : Proceeds first third

namespace Proceeds

variable {first second third : World}

theorem trans (before : Proceeds first second) (after : Proceeds second third) :
    Proceeds first third := by
  induction after with
  | refl => exact before
  | run _ change ih => exact .run ih change
  | host _ change ih => exact .host ih change

theorem sound_continues (proceeds : Proceeds first second) (alive : first.alive = true)
    (sound : first.Sound) : second.Sound ∧ first.Continues second := by
  induction proceeds with
  | refl => exact ⟨sound, .refl _⟩
  | run _ change ih =>
      obtain ⟨between, continues⟩ := ih
      exact ⟨change.sound (continues.alive.trans alive) between, continues.trans change.continues⟩
  | host _ change ih =>
      obtain ⟨between, continues⟩ := ih
      exact ⟨change.sound (continues.alive.trans alive) between,
        continues.trans (change.continues between.registered)⟩

end Proceeds

theorem Change.widen {may : String → Prop} {opened : InstanceId → Prop} {first second : World}
    (change : Change may opened first second) :
    Change (fun _ => True) (fun _ => True) first second := by
  cases change with
  | table table => exact .table table
  | setTable id update => exact .setTable id update
  | host object => exact .host object
  | setHost id object same => exact .setHost id object same
  | context limit => exact .context limit
  | touch reference => exact .touch reference
  | metaTable id missing => exact .metaTable id missing
  | placeholder className => exact .placeholder className
  | callable store name function receiver offered =>
      exact .callable store name function receiver offered
  | install store callable function receiver made offered free =>
      exact .install store callable function receiver made offered free
  | declare store name type _ free => exact .declare store name type trivial free
  | field owner place level field _ sits declared free =>
      exact .field owner place level field trivial sits declared free
  | write store name slot value found isMutable accepted =>
      exact .write store name slot value found isMutable accepted
  | annotate store name annotations => exact .annotate store name annotations
  | bindFallback reference host unbound described =>
      exact .bindFallback reference host unbound described
  | bindLevel id place level host sits => exact .bindLevel id place level host sits
  | adopt id host => exact .adopt id host
  | allocate id => exact .allocate id
  | openView id view alive => exact .openView id view alive
  | attach id created => exact .attach id created
  | mark id => exact .mark id
  | save name value => exact .save name value
  | record snapshot => exact .record snapshot

/-- A run proceeds through its changes, and through what it opens and closes on the way. -/
theorem Evolves.proceeds {may : String → Prop} {opened : InstanceId → Prop} {first second : World}
    (evolves : Evolves may opened first second) : Proceeds first second := by
  induction evolves with
  | refl world => exact .refl world
  | change _ last ih => exact .run ih last.widen
  | @framed first second third context frame deeper before pushed inside ih later =>
      exact .host ((Proceeds.host ih (.context context fun _ => deeper)).trans later)
        (.context context _)
  | @withdrawn first second third store callable function receiver before made offered free
      annotated inside ih later =>
      have installed : Change (fun _ => True) (fun _ => True) second _ :=
        .install store callable function receiver made offered free
      refine .host ((Proceeds.run ih installed).trans later) (.withdraw store function ?_ annotated ?_)
      · have installs := World.Continues.withStore second store
          (·.insert function.name (.function callable)) fun _ => rfl
        have declared : second.Declares function := (World.offer?_declared offered).1
        exact declared.later (installs.trans inside.continues)
      · intro slot found
        have there : ((second.withStore store (·.insert function.name (.function callable))).store
            store).slot? function.name = some (.function callable) := by
          rw [World.store_withStore, if_pos ⟨rfl, World.inside_of_offer? offered⟩]
          exact Store.slot?_insert_same _ _ free
        obtain ⟨last, still, persists⟩ := inside.keepsSlots store function.name _ there
        rw [found] at still
        cases still
        exact persists.immutable

/-! ## Variables stay -/

/-- Every slot that is not a function of the first state is there in the second. -/
def World.KeepsVariables (before after : World) : Prop :=
  ∀ id name slot, (before.store id).slot? name = some slot → slot.immutable = false →
    ∃ later, (after.store id).slot? name = some later ∧ slot.Persists later

theorem World.KeepsSlots.variables {before after : World} (keeps : before.KeepsSlots after) :
    before.KeepsVariables after :=
  fun id name slot found _ => keeps id name slot found

theorem HostChange.keepsVariables {first second : World} (change : HostChange first second) :
    first.KeepsVariables second := by
  cases change with
  | declare store name slot => exact (World.KeepsSlots.insert first store name slot).variables
  | withdraw store function declared annotated held =>
      intro id name slot found isMutable
      refine ⟨slot, ?_, .refl slot⟩
      rw [World.store_withStore]
      split
      · next both =>
          obtain ⟨rfl, _⟩ := both
          rw [Store.slot?_erase]
          split
          · next same =>
              subst same
              rw [held slot found] at isMutable
              cases isMutable
          · exact found
      · exact found
  | freeStore attached =>
      have keeps : first.KeepsSlots
          { first with stores := first.stores.push (.empty (.free attached)) } :=
        .of_same fun id old => Heap.get_push_of_lt first.stores _ old
      exact keeps.variables
  | context | reference | classRef | bindReference | drop | bindings | heldFrames | log =>
      exact (World.KeepsSlots.refl first).variables

theorem Proceeds.keepsVariables {first second : World} (proceeds : Proceeds first second) :
    first.KeepsVariables second := by
  induction proceeds with
  | refl => exact (World.KeepsSlots.refl _).variables
  | run _ change ih =>
      intro id name slot found isMutable
      obtain ⟨between, there, persists⟩ := ih id name slot found isMutable
      obtain ⟨later, still, again⟩ := change.keepsSlots id name between there
      exact ⟨later, still, persists.trans again⟩
  | host _ change ih =>
      intro id name slot found isMutable
      obtain ⟨between, there, persists⟩ := ih id name slot found isMutable
      obtain ⟨later, still, again⟩ :=
        change.keepsVariables id name between there (persists.immutable.trans isMutable)
      exact ⟨later, still, persists.trans again⟩

/-! ## Definitions -/

namespace World

theorem levelFunction?_inside {world : World} {cls : ClassId} {tier : Access} {name : String}
    {function : Function} (found : world.levelFunction? cls tier name = some function) :
    cls.index < world.classes.size := by
  apply Nat.lt_of_not_le
  intro beyond
  have empty : world.cls cls = default := by
    unfold World.cls Heap.get
    rw [Heap.get?_eq_none _ beyond]
    rfl
  simp only [levelFunction?, nearest?, ancestors_beyond beyond, List.findSome?_cons, empty] at found
  split at found <;> cases found

/-- Where all levels of an instance are registered, more definitions change no place of theirs. -/
theorem Extends.levelOf? {before after : World} (grows : before.Extends after)
    (instances : after.instances = before.instances) {owner : InstanceId}
    (known : ∀ level ∈ (before.object owner).levels, level.cls.index < before.classes.size)
    (hash : TypeHash) : after.levelOf? owner hash = before.levelOf? owner hash := by
  have objects : after.object owner = before.object owner := congrArg (·.get owner) instances
  unfold World.levelOf?
  rw [objects]
  generalize (before.object owner).levels = levels at known
  induction levels with
  | nil => rfl
  | cons level rest ih =>
      have later := ih fun other member => known other (List.mem_cons_of_mem level member)
      rw [List.findIdx?_cons, List.findIdx?_cons, later,
        grows.cls level.cls (known level List.mem_cons_self)]

/-- What a store offers it goes on offering when more is defined. -/
theorem Extends.offer? {before after : World} (grows : before.Extends after)
    (laid : before.LaidOut) (instances : after.instances = before.instances)
    (stores : after.stores = before.stores) {store : StoreId} {name : String}
    {offer : Function × Option Receiver} (offered : before.offer? store name = some offer) :
    after.offer? store name = some offer := by
  have home : (after.store store).home = (before.store store).home :=
    congrArg (fun heap => (heap.get store).home) stores
  unfold World.offer? at offered ⊢
  rw [home]
  cases sits : (before.store store).home with
  | free attached =>
      rw [sits] at offered
      cases offered
  | level owner place cls tier =>
      rw [sits] at offered
      obtain ⟨function, found, rfl⟩ := Option.map_eq_some_iff.mp offered
      have inside := levelFunction?_inside found
      obtain ⟨level, there, same, _⟩ := laid.homes store owner place cls tier sits
      have known : ∀ level ∈ (before.object owner).levels,
          level.cls.index < before.classes.size := by
        obtain all | single := laid.known owner
        · exact all
        · intro other member
          have there := List.mem_of_getElem? there
          obtain ⟨only, levels⟩ := List.length_eq_one_iff.mp
            (Nat.le_antisymm single (List.length_pos_of_mem there))
          rw [levels, List.mem_singleton] at member there
          rw [member, ← there, same]
          exact inside
      have bound : after.boundLevel owner place function =
          before.boundLevel owner place function := by
        unfold boundLevel
        simp only [grows.levelOf? instances known]
      simp only [grows.levelFunction? inside found, Option.map_some, bound]
  | root tier =>
      rw [sits] at offered
      obtain ⟨function, found, rfl⟩ := Option.map_eq_some_iff.mp offered
      rw [Option.filter_eq_some_iff] at found
      simp only [grows.function? found.1, Option.filter_some, found.2, if_true, Option.map_some]

/-- Definitions keep the layout. -/
theorem LaidOut.grow {before after : World} (laid : before.LaidOut) (grows : before.Extends after)
    (instances : after.instances = before.instances) (stores : after.stores = before.stores)
    (callables : after.callables = before.callables) : after.LaidOut := by
  have store : ∀ id, after.store id = before.store id := fun id => congrArg (·.get id) stores
  have object : ∀ id, after.object id = before.object id := fun id => congrArg (·.get id) instances
  have level : ∀ id place, after.level? id place = before.level? id place := by
    intro id place
    unfold World.level?
    rw [object]
  refine ⟨?_, ?_, ?_, ?_, ?_⟩
  · intro tier
    rw [store]
    exact laid.roots tier
  · intro id place found sits tier
    rw [level] at sits
    rw [store]
    exact laid.stores id place found sits tier
  · intro id owner place cls tier home
    rw [store] at home
    rw [level]
    exact laid.homes id owner place cls tier home
  · intro id name slot found held
    rw [store] at found
    obtain ⟨function, receiver, ⟨callable, typed, content, made⟩, offered⟩ :=
      laid.functions id name slot found held
    refine ⟨function, receiver, ⟨callable, typed, content, ?_⟩,
      grows.offer? laid instances stores offered⟩
    rw [callables]
    exact made
  · intro id
    rw [object]
    obtain all | single := laid.known id
    · exact .inl fun found member => Nat.lt_of_lt_of_le (all found member) grows.size
    · exact .inr single

theorem Sound.enlists {before after : World} (sound : before.Sound) (alive : before.alive = true)
    (enlists : Enlists before after) : after.Sound := by
  have grows := enlists.extends_ alive sound.registered
  have rest := enlists.rest
  refine ⟨enlists.registered alive sound.registered, sound.laid.grow grows ?_ ?_ ?_⟩ <;> rw [rest]

/-! ## Sessions -/

theorem sound_initial (config : Config) (marshaling : MarshalRules) :
    (initial config marshaling).Sound where
  registered :=
    { filed := {
        order := rfl
        names := fun _ id => iff_of_false nofun fun found => Nat.not_lt_zero id.index found.1
        hosts := fun _ id => iff_of_false nofun fun found => Nat.not_lt_zero id.index found.1 }
      hashes := fun id inside => absurd inside (Nat.not_lt_zero id.index)
      owners := fun _ _ member => (List.not_mem_nil member).elim
      members := fun _ => List.nodup_nil
      baseRefs := fun _ _ based => nomatch based
      remembered := fun _ _ cached => nomatch cached
      grounded := fun id inside => absurd inside (Nat.not_lt_zero id.index)
      tables := fun _ _ kept => nomatch kept }
  laid := by
    have stores : ∀ id : StoreId,
        (∃ tier, (initial config marshaling).store id = .empty (.root tier)) ∨
          (initial config marshaling).store id = default := by
      rintro ⟨_ | _ | _ | index⟩
      · exact .inl ⟨.global, rfl⟩
      · exact .inl ⟨.internal, rfl⟩
      · exact .inl ⟨.localOnly, rfl⟩
      · exact .inr rfl
    refine ⟨fun tier => by cases tier <;> rfl, fun _ _ _ sits => (nomatch sits), ?_, ?_,
      fun _ => .inr (Nat.zero_le 1)⟩
    · intro id owner place cls tier home
      obtain ⟨root, same⟩ | same := stores id <;> rw [same] at home <;> cases home
    · intro id name slot found _
      obtain ⟨root, same⟩ | same := stores id <;> rw [same] at found <;> cases found

/-- A session on a living assembly goes on from one state to another: through runs and what the host
does at any moment, and through classes and functions that the registry accepts. -/
inductive GoesOn : World → World → Prop
  | start (world : World) : GoesOn world world
  | proceed {first second third : World} (before : GoesOn first second)
      (proceeds : Proceeds second third) : GoesOn first third
  | enlist {first second third : World} (before : GoesOn first second)
      (enlists : Enlists second third) : GoesOn first third

theorem GoesOn.trans {first second third : World} (one : GoesOn first second)
    (two : GoesOn second third) : GoesOn first third := by
  induction two with
  | start => exact one
  | proceed _ proceeds ih => exact .proceed ih proceeds
  | enlist _ enlists ih => exact .enlist ih enlists

/-- A declaration may be accepted or refused. -/
theorem GoesOn.request {first second : World} (before : GoesOn first second)
    {request : Registering Unit} (atomic : Atomic request)
    (enlists : ∀ {after}, request.run second = (.ok (), after) → Enlists second after) :
    GoesOn first (request.run second).2 := by
  rcases ends : request.run second with ⟨answer, after⟩
  cases answer with
  | ok => exact .enlist before (enlists ends)
  | error refusal => exact atomic second after refusal ends ▸ before

theorem GoesOn.define {first second : World} (spec : ClassSpec) (before : GoesOn first second) :
    GoesOn first ((World.define spec).run second).2 :=
  before.request (define_atomic spec) .define

/-- A session leads to the state while the assembly is there. -/
def Reachable (world : World) : Prop :=
  ∃ config marshaling, GoesOn (.initial config marshaling) world

namespace Reachable

variable {first second : World}

theorem initial (config : Config) (marshaling : MarshalRules) :
    Reachable (.initial config marshaling) := ⟨config, marshaling, .start _⟩

theorem goesOn (before : Reachable first) (goes : GoesOn first second) : Reachable second := by
  obtain ⟨config, marshaling, began⟩ := before
  exact ⟨config, marshaling, began.trans goes⟩

theorem proceed (before : Reachable first) (proceeds : Proceeds first second) : Reachable second :=
  before.goesOn (.proceed (.start first) proceeds)

theorem enlist (before : Reachable first) (enlists : Enlists first second) : Reachable second :=
  before.goesOn (.enlist (.start first) enlists)

theorem define (spec : ClassSpec) (before : Reachable first) :
    Reachable ((World.define spec).run first).2 :=
  before.goesOn (.define spec (.start first))

theorem defineFunction (spec : FunctionDecl String) (before : Reachable first) :
    Reachable ((World.defineFunction spec).run first).2 :=
  before.goesOn (.request (.start first) (defineFunction_atomic spec) .defineFunction)

/-- What holds at the start of every session, and is kept by each of its steps, holds in all its
states. -/
@[elab_as_elim]
theorem induct {motive : (world : World) → Reachable world → Prop}
    (initial : ∀ config marshaling, motive _ (initial config marshaling))
    (proceed : ∀ {first second : World} (before : Reachable first) (proceeds : Proceeds first second),
      motive first before → motive second (before.proceed proceeds))
    (enlist : ∀ {first second : World} (before : Reachable first) (enlists : Enlists first second),
      motive first before → motive second (before.enlist enlists))
    {world : World} (reachable : Reachable world) : motive world reachable := by
  obtain ⟨config, marshaling, goes⟩ := reachable
  induction goes with
  | start => exact initial config marshaling
  | proceed before proceeds ih => exact proceed ⟨config, marshaling, before⟩ proceeds ih
  | enlist before enlists ih => exact enlist ⟨config, marshaling, before⟩ enlists ih

/-- Every state of a session is sound. -/
theorem sound {world : World} (reachable : Reachable world) :
    world.alive = true ∧ world.Sound := by
  induction reachable using induct with
  | initial config marshaling => exact ⟨rfl, sound_initial config marshaling⟩
  | proceed _ proceeds ih =>
      obtain ⟨alive, sound⟩ := ih
      obtain ⟨later, continues⟩ := proceeds.sound_continues alive sound
      exact ⟨continues.alive.trans alive, later⟩
  | enlist _ enlists ih =>
      obtain ⟨alive, sound⟩ := ih
      exact ⟨enlists.alive.trans alive, sound.enlists alive enlists⟩

end Reachable

end World

end ScriptObjects

import ScriptObjects.Proofs.Isolation

/-!
# Names that are free for fields

Before a level of an instance is initialized, the names of its fields are free in its
stores, except that a function may already have been looked up under one of them.
Where no body declares variables, nothing but the construction itself ever takes such
a name: what runs on the way only adds functions to the stores of the instance.

So a field can be refused in one way only.  A class declares it under the name and
the tier of a function that it inherits, and the function was looked up first.
-/

namespace ScriptObjects

set_option autoImplicit false

open Exec

/-! ## What explains a refusal -/

namespace World

/-- Whether a class has a field under the name and the tier of a function that it inherits. -/
def hidesFunction (world : World) (id : ClassId) (name : String) : Bool :=
  (world.cls id).fields.any fun field =>
    field.name = name && field.access ≠ .localOnly &&
      (world.properAncestors id).any fun base =>
        (world.cls base).functions.any fun function =>
          function.name = name && function.access = field.access

/-- Whether the declarations explain the fault of a construction: where a field could not be
declared, its name was taken, and its class hides a function by it. -/
def explains (world : World) (id : ClassId) : Fault → Bool
  | .declaration className name cause =>
      cause = .alreadyDeclared name && (world.ancestors id).any fun member =>
        (world.cls member).name = className && world.hidesFunction member name
  | _ => true

theorem explains_of_distant (world : World) (id : ClassId) {fault : Fault}
    (distant : fault.Distant) : world.explains id fault = true := by
  cases fault with
  | declaration className field cause => exact absurd rfl (distant.undeclaring className field cause)
  | _ => rfl

theorem walk_succ (world : World) {fuel : Nat} {seen : List TypeHash} {start : Option ClassId}
    {member : ClassId} (met : member ∈ world.walk fuel seen start) :
    member ∈ world.walk (fuel + 1) seen start := by
  induction fuel generalizing seen start with
  | zero => exact (List.not_mem_nil met).elim
  | succ fuel ih =>
      cases start with
      | none => exact (List.not_mem_nil met).elim
      | some id =>
          rw [walk] at met ⊢
          split at met
          · exact (List.not_mem_nil met).elim
          · next new =>
              rw [if_neg new]
              rcases List.mem_cons.mp met with rfl | later
              · exact List.mem_cons_self
              · exact List.mem_cons_of_mem _ (ih later)

/-- A class on a chain is its first class or a base of it. -/
theorem properAncestors_of_ancestors {world : World} {id member : ClassId}
    (met : member ∈ world.ancestors id) (differs : member ≠ id) :
    member ∈ world.properAncestors id := by
  unfold ancestors at met
  rw [walk, if_neg List.not_mem_nil] at met
  rcases List.mem_cons.mp met with same | later
  · exact absurd same differs
  · exact world.walk_succ later

/-- No variable has the name of a field on a level; a function may. -/
def Vacant (world : World) (level : Level) (field : Field) : Prop :=
  ∀ slot, (world.store (level.declarations field.access)).slot? field.name = some slot →
    slot.immutable = true

/-- A field and a function of one class have different names. -/
theorem Registered.name_ne {world : World} (registered : world.Registered) {id : ClassId}
    {field : Field} {function : Function} (one : field ∈ (world.cls id).fields)
    (two : function ∈ (world.cls id).functions) : function.name ≠ field.name := by
  intro same
  have disjoint := (List.nodup_append.mp (registered.members id)).2.2
  exact disjoint field.name (List.mem_map_of_mem one) function.name (List.mem_map_of_mem two)
    same.symm

/-- Where a name that is free for a field is taken, it is taken by an inherited function. -/
theorem hidesFunction_of_taken {world : World} (sound : world.Sound) {id : InstanceId}
    {place : Nat} {level : Level} (sits : world.level? id place = some level) {field : Field}
    (declared : field ∈ (world.cls level.cls).fields) (vacant : world.Vacant level field)
    (taken : (world.store (level.declarations field.access)).declares field.name = true) :
    world.hidesFunction level.cls field.name = true := by
  obtain ⟨slot, found⟩ := Option.isSome_iff_exists.mp taken
  obtain ⟨function, receiver, _, offered⟩ := sound.laid.functions _ _ slot found (vacant slot found)
  have home := sound.laid.stores id place level sits field.access
  unfold offer? at offered
  rw [home] at offered
  obtain ⟨given, nearest, _⟩ := Option.map_eq_some_iff.mp offered
  unfold levelFunction? at nearest
  dsimp only at nearest
  split at nearest
  · obtain ⟨member, named, _⟩ := mem_of_acceptedFunction? nearest
    exact absurd named (sound.registered.name_ne declared member)
  · next shared =>
      obtain ⟨base, met, answer⟩ := nearest?_eq_some nearest
      obtain ⟨member, named, accepted⟩ := mem_of_acceptedFunction? answer
      have differs : base ≠ level.cls := by
        rintro rfl
        exact sound.registered.name_ne declared member named
      unfold hidesFunction
      simp only [List.any_eq_true, Bool.and_eq_true, decide_eq_true_eq] at accepted ⊢
      exact ⟨field, declared, ⟨rfl, shared⟩, base, properAncestors_of_ancestors met differs, given,
        member, named, accepted⟩

end World

/-! ## Runs take no names -/

/-- A change of a run takes no name that is free for a field of an instance that is not open. -/
theorem Change.vacant {opened : InstanceId → Prop} {first second : World}
    (change : Change (fun _ => False) opened first second) (laid : first.LaidOut)
    {id : InstanceId} {place : Nat} {level : Level} {field : Field} (closed : ¬ opened id)
    (sits : first.level? id place = some level) (vacant : first.Vacant level field) :
    second.Vacant level field := by
  intro slot found
  cases change with
  | install store callable function =>
      obtain old | ⟨_, _, rfl⟩ := World.slot?_inserted found
      · exact vacant slot old
      · rfl
  | declare store name type permitted => exact permitted.elim
  | field owner other there new isOpen reached =>
      obtain old | ⟨same, _, _⟩ := World.slot?_inserted found
      · exact vacant slot old
      · have here := laid.stores id place level sits field.access
        rw [same, laid.stores owner other there reached new.access] at here
        have owners := (StoreHome.level.inj here).1
        exact absurd (owners ▸ isOpen) closed
  | write store name old value there isMutable =>
      obtain before | ⟨rfl, changed⟩ := World.slot?_withStore found
      · exact vacant slot before
      · rw [Store.slot?_modify] at changed
        split at changed
        · next named =>
            subst named
            rw [vacant old there] at isMutable
            cases isMutable
        · exact vacant slot changed
  | annotate store name annotations =>
      obtain before | ⟨rfl, changed⟩ := World.slot?_withStore found
      · exact vacant slot before
      · rw [Store.slot?_modify] at changed
        split at changed
        · next named =>
            subst named
            obtain ⟨old, there, rfl⟩ := Option.map_eq_some_iff.mp changed
            exact vacant old there
        · exact vacant slot changed
  | allocate cls =>
      rw [(World.allocate_allocates first cls).old _ (laid.level_inside sits _)] at found
      exact vacant slot found
  | touch reference =>
      rw [World.touchRef_eq] at found
      exact vacant slot found
  | metaTable | placeholder | callable | adopt | openView | attach | mark | table | setTable
  | host | setHost | context | bindFallback | bindLevel | save | record =>
      exact vacant slot found

/-- A run takes no name that is free for a field of an instance that is not open. -/
theorem Evolves.vacant {opened : InstanceId → Prop} {first second : World}
    (evolves : Evolves (fun _ => False) opened first second) (alive : first.alive = true)
    (sound : first.Sound) {id : InstanceId} {place : Nat} {level : Level} {field : Field}
    (closed : ¬ opened id) (sits : first.level? id place = some level)
    (vacant : first.Vacant level field) : second.Vacant level field := by
  induction evolves with
  | refl => exact vacant
  | change before last ih =>
      exact last.vacant (before.sound alive sound).laid closed (before.continues.level? sits)
        (ih alive sound sits vacant)
  | @framed first second third context frame deeper before pushed inside ih later =>
      have alive_there := before.continues.alive.trans alive
      exact later alive_there ((before.sound alive sound).withContext alive_there context _)
        (before.continues.level? sits) (ih alive sound sits vacant)
  | @withdrawn first second third store callable function receiver before made offered free
      annotated inside ih later =>
      have alive_there := before.continues.alive.trans alive
      have sound_there := before.sound alive sound
      have installed : Change (fun _ => False) opened second _ :=
        .install store callable function receiver made offered free
      have between := installed.vacant sound_there.laid closed (before.continues.level? sits)
        (ih alive sound sits vacant)
      have still := later alive_there (installed.sound alive_there sound_there)
        (before.continues.level? sits) between
      intro slot found
      obtain old | ⟨rfl, changed⟩ := World.slot?_withStore found
      · exact still slot old
      · rw [Store.slot?_erase] at changed
        split at changed
        · cases changed
        · exact still slot changed

/-! ## Quiet states -/

namespace World

/-- The assembly is there, and no body declares variables. -/
structure Quiet (world : World) : Prop where
  alive : world.alive = true
  sound : world.Sound
  permits : world.Permits fun _ => False

theorem Quiet.evolves {opened : InstanceId → Prop} {before after : World} (quiet : before.Quiet)
    (evolves : Evolves (fun _ => False) opened before after) : after.Quiet :=
  ⟨evolves.continues.alive.trans quiet.alive, evolves.sound quiet.alive quiet.sound,
    evolves.permits quiet.permits⟩

theorem Quiet.withContext {world : World} (quiet : world.Quiet) (id : ContextId)
    (update : Context → Context) : (world.withContext id update).Quiet :=
  ⟨quiet.alive, quiet.sound.withContext quiet.alive id update,
    ⟨quiet.permits.classes, quiet.permits.functions, quiet.permits.callables⟩⟩

/-- An instance on which no field was declared: its levels follow the chain of its class, and the
names of all its fields are free. -/
structure Pristine (world : World) (id : InstanceId) : Prop where
  inside : id.index < world.instances.size
  chain : (world.object id).levels.map Level.cls = world.ancestors (world.object id).cls
  vacant : ∀ place level, world.level? id place = some level →
    ∀ field ∈ (world.cls level.cls).fields, world.Vacant level field

/-- While an instance is constructed, the names of the fields that are left on its current level
and of all fields of the levels below are free. -/
structure Awaits (start : World) (id : InstanceId) (place : Nat) (fields : List Field)
    (world : World) : Prop where
  continues : start.Continues world
  quiet : world.Quiet
  current : ∀ level, start.level? id place = some level →
    ∀ field ∈ fields, world.Vacant level field
  below : ∀ lower < place, ∀ level, start.level? id lower = some level →
    ∀ field ∈ (start.cls level.cls).fields, world.Vacant level field

/-- A run that does not construct the instance keeps the names free. -/
theorem Awaits.evolves {start world after : World} {id : InstanceId} {place : Nat}
    {fields : List Field} (awaits : start.Awaits id place fields world)
    (evolves : Evolves (fun _ => False) (· ≠ id) world after) :
    start.Awaits id place fields after where
  continues := awaits.continues.trans evolves.continues
  quiet := awaits.quiet.evolves evolves
  current level sits field member :=
    evolves.vacant awaits.quiet.alive awaits.quiet.sound (fun differs => differs rfl)
      (awaits.continues.level? sits) (awaits.current level sits field member)
  below lower less level sits field member :=
    evolves.vacant awaits.quiet.alive awaits.quiet.sound (fun differs => differs rfl)
      (awaits.continues.level? sits) (awaits.below lower less level sits field member)

/-- Declaring a field takes no other name that is free for a field of the instance. -/
theorem Vacant.declare {world : World} (laid : world.LaidOut) {id : InstanceId}
    {place lower : Nat} {level other : Level} (sits : world.level? id place = some level)
    (there : world.level? id lower = some other) {field new : Field}
    (apart : lower ≠ place ∨ new.name ≠ field.name) (vacant : world.Vacant other new)
    (inserted : Slot) :
    (world.withStore (level.declarations field.access)
      (·.insert field.name inserted)).Vacant other new := by
  intro slot found
  obtain old | ⟨same, named, _⟩ := World.slot?_inserted found
  · exact vacant slot old
  · have here := laid.stores id place level sits field.access
    rw [← same, laid.stores id lower other there new.access] at here
    have places := (StoreHome.level.inj here).2.1
    obtain differs | differs := apart
    · exact absurd places differs
    · exact absurd named differs

theorem Continues.hidesFunction {before after : World} (continues : before.Continues after)
    (id : ClassId) (name : String) : after.hidesFunction id name = before.hidesFunction id name := by
  have functions := fun base =>
    continues.hierarchy.ask ClassDef.functions (fun _ => rfl) base
  have fields := continues.hierarchy.ask ClassDef.fields (fun _ => rfl) id
  unfold World.hidesFunction
  rw [fields, continues.hierarchy.properAncestors]
  simp only [functions]

end World

/-! ## Runs that keep a promise -/

namespace Exec

variable {α β : Type}

/-- A run from a state ends in an allowed fault, or in a state with a property. -/
def Meets (allowed : Fault → Prop) (holds : World → Prop) (run : Exec α) (world : World) : Prop :=
  (∀ fault after, run world = (.failed fault, after) → allowed fault) ∧
    ∀ result after, run world = (.done result, after) → holds after

namespace Meets

variable {allowed : Fault → Prop} {holds later : World → Prop}

theorem bind {run : Exec α} {next : α → Exec β} {world : World}
    (first : Meets allowed holds run world)
    (second : ∀ result after, holds after → Meets allowed later (next result) after) :
    Meets allowed later (run >>= next) world := by
  refine ⟨fun fault after ends => ?_, fun result after ends => ?_⟩
  · obtain raised | ⟨value, between, one, two⟩ := bind_failed ends
    · exact first.1 fault after raised
    · exact (second value between (first.2 value between one)).1 fault after two
  · obtain ⟨value, between, one, two⟩ := bind_done ends
    exact (second value between (first.2 value between one)).2 result after two

theorem pure (result : α) {world : World} (there : holds world) :
    Meets allowed holds (pure result : Exec α) world :=
  ⟨fun _ _ ends => (nomatch ends), fun _ _ ends => by cases ends; exact there⟩

theorem congr {run other : Exec α} {world : World} (same : run world = other world)
    (meets : Meets allowed holds other world) : Meets allowed holds run world := by
  unfold Meets
  rw [same]
  exact meets

end Meets

end Exec

/-! ## The construction protocol -/

section

variable {perform : Perform} (nested : perform.Leads) {start world : World} {id : InstanceId}
  (inside : id.index < start.instances.size) {place : Nat} {fields : List Field}
  {allowed : Fault → Prop}

include inside in
/-- What a construction does besides declaring fields keeps names free. -/
theorem World.Awaits.meets {α : Type} {run : Exec α}
    (awaits : start.Awaits id place fields world)
    (distant : ∀ fault, fault.Distant → allowed fault)
    (leads : Leads (fun _ => False) (· ≠ id) run) (faults : FaultsIn Fault.Distant run) :
    Meets allowed (start.Awaits id place fields) run world := by
  have evolves := leads world awaits.quiet.permits fun other beyond same => by
    subst same
    exact Nat.not_lt_of_le (Nat.le_trans awaits.continues.instances beyond) inside
  refine ⟨fun fault after ends => distant fault (faults world fault after ends), ?_⟩
  intro result after ends
  rw [ends] at evolves
  exact awaits.evolves evolves

/-- A field is declared under its name, or the declarations explain why not. -/
theorem declareField_meets {level : Level} {field : Field} {rest : List Field}
    (awaits : start.Awaits id place (field :: rest) world)
    (sits : start.level? id place = some level)
    (chained : level.cls ∈ start.ancestors (start.object id).cls)
    (declared : field ∈ (start.cls level.cls).fields)
    (distinct : ((field :: rest).map FieldDecl.name).Nodup) :
    Meets (fun fault => start.explains (start.object id).cls fault = true)
      (fun after => start.Awaits id place rest after ∧
        (after.store (level.declarations field.access)).declares field.name = true)
      (declareField (start.cls level.cls).name level field) world := by
  have there := awaits.continues.level? sits
  have vacant := awaits.current level sits field List.mem_cons_self
  have known : field ∈ (world.cls level.cls).fields := by
    rw [awaits.continues.hierarchy.ask ClassDef.fields fun _ => rfl]
    exact declared
  cases taken : (world.store (level.declarations field.access)).declares field.name with
  | true =>
      have refused := declareField_of_declared (start.cls level.cls).name taken
      have hides := World.hidesFunction_of_taken awaits.quiet.sound there known vacant taken
      rw [awaits.continues.hidesFunction] at hides
      unfold Meets
      rw [refused]
      refine ⟨fun fault after ends => ?_, fun _ _ ends => (nomatch ends)⟩
      cases ends
      unfold World.explains
      simp only [Bool.and_eq_true, decide_eq_true_eq, List.any_eq_true]
      exact ⟨trivial, level.cls, chained, rfl, hides⟩
  | false =>
      let slot := fieldSlot field level.reference
      have accepted := declareField_of_free (start.cls level.cls).name taken
      have laid := awaits.quiet.sound.laid
      have change : Change (fun _ => False) (fun _ => True) world _ :=
        .field id place level field trivial there known taken
      unfold Meets
      rw [accepted]
      refine ⟨fun _ _ ends => (nomatch ends), fun result after ends => ?_⟩
      cases ends
      refine ⟨⟨awaits.continues.trans change.continues, awaits.quiet.evolves (.single change),
        ?_, ?_⟩, ?_⟩
      · intro same sits_same other member
        have again := awaits.current same sits_same other (List.mem_cons_of_mem field member)
        refine again.declare laid there (awaits.continues.level? sits_same) (.inr fun named => ?_) slot
        rw [List.map_cons, List.nodup_cons] at distinct
        exact distinct.1 (named ▸ List.mem_map_of_mem member)
      · intro lower less other sits_other new member
        have again := awaits.below lower less other sits_other new member
        exact again.declare laid there (awaits.continues.level? sits_other)
          (.inl (Nat.ne_of_lt less)) slot
      · have found := Store.slot?_insert_same
          (world.store (level.declarations field.access)) slot taken
        unfold Store.declares
        rw [World.store_withStore, if_pos ⟨rfl, laid.level_inside there _⟩, found]
        rfl

include nested inside

/-- The annotations of a field find it declared. -/
theorem annotateField_meets {level : Level} {field : Field} (options : CreateOptions)
    (context : ContextId) (awaits : start.Awaits id place fields world)
    (distant : ∀ fault, fault.Distant → allowed fault)
    (member : field ∈ (start.cls level.cls).fields)
    (declared : (world.store (level.declarations field.access)).declares field.name = true)
    (className : String) :
    Meets allowed (start.Awaits id place fields)
      (annotateField perform className ⟨id, place⟩ level options context field) world := by
  have permitted : DeclareOnly (fun _ => False) field.bodies := by
    refine @World.Permits.field _ _ awaits.quiet.permits level.cls _ ?_
    rw [awaits.continues.hierarchy.ask ClassDef.fields fun _ => rfl]
    exact member
  unfold annotateField
  split
  · have leads : Leads (fun _ => False) (· ≠ id) (createAnnotations perform
        (className ++ "." ++ field.name) (some ⟨id, place⟩) context field.annotations) :=
      (createAnnotations_tracks (nested.tracks _ _) _ _ context
        (permitted.of_subset (annotationBodies_among_field field))).leads
    have faults := createAnnotations_distant perform (className ++ "." ++ field.name)
      (some ⟨id, place⟩) context field.annotations
    have evolves := leads world awaits.quiet.permits fun other beyond same => by
      subst same
      exact Nat.not_lt_of_le (Nat.le_trans awaits.continues.instances beyond) inside
    refine @Meets.bind _ _ _ (fun after => start.Awaits id place fields after ∧
      (after.store (level.declarations field.access)).declares field.name = true) _ _ _ _
      ⟨fun fault after ends => distant fault (faults world fault after ends), ?_⟩ ?_
    · intro created after ends
      rw [ends] at evolves
      obtain ⟨slot, found⟩ := Option.isSome_iff_exists.mp declared
      obtain ⟨later, still, _⟩ := evolves.keepsSlots _ _ slot found
      refine ⟨awaits.evolves evolves, ?_⟩
      unfold Store.declares
      rw [still]
      rfl
    · intro created after both
      obtain ⟨awaits, declared⟩ := both
      have attached : (annotateSlot (level.declarations field.access) field.name created).wrapFault
          (declarationFault className field.name) after =
            (.done (), after.withStore (level.declarations field.access)
              (·.modify field.name fun slot => { slot with annotations := created })) := by
        unfold Exec.wrapFault
        rw [annotateSlot_of_declared created declared]
      unfold Meets
      rw [attached]
      refine ⟨fun _ _ ends => (nomatch ends), fun result last ends => ?_⟩
      cases ends
      exact awaits.evolves (.single (.annotate (level.declarations field.access) field.name created))
  · exact .pure () awaits

theorem constructField_meets {level : Level} {field : Field} {rest : List Field}
    (options : CreateOptions) (context : ContextId)
    (awaits : start.Awaits id place (field :: rest) world)
    (sits : start.level? id place = some level)
    (chained : level.cls ∈ start.ancestors (start.object id).cls)
    (declared : field ∈ (start.cls level.cls).fields)
    (distinct : ((field :: rest).map FieldDecl.name).Nodup) :
    Meets (fun fault => start.explains (start.object id).cls fault = true)
      (start.Awaits id place rest)
      (constructField perform (start.cls level.cls).name ⟨id, place⟩ level options context field)
      world := by
  have distant : ∀ fault : Fault, fault.Distant →
      start.explains (start.object id).cls fault = true :=
    fun _ => start.explains_of_distant _
  cases wanted : options.has field.flag with
  | false =>
      rw [constructField_of_unwanted wanted]
      exact .pure () ⟨awaits.continues, awaits.quiet,
        fun level sits other member =>
          awaits.current level sits other (List.mem_cons_of_mem field member), awaits.below⟩
  | true =>
      rw [constructField_of_wanted wanted]
      refine (declareField_meets awaits sits chained declared distinct).bind
        fun _ after both => ?_
      refine (annotateField_meets nested inside options context both.1 distant declared both.2
        _).bind fun _ last awaits => ?_
      have permitted : DeclareOnly (fun _ => False) field.bodies := by
        refine @World.Permits.field _ _ awaits.quiet.permits level.cls _ ?_
        rw [awaits.continues.hierarchy.ask ClassDef.fields fun _ => rfl]
        exact declared
      exact awaits.meets inside distant
        (fillField_tracks (nested.tracks _ _) permitted ⟨id, place⟩ level options context).leads
        (fillField_distant perform ⟨id, place⟩ level options context field)

theorem constructFields_meets {level : Level} (options : CreateOptions) (context : ContextId)
    (awaits : start.Awaits id place fields world) (sits : start.level? id place = some level)
    (chained : level.cls ∈ start.ancestors (start.object id).cls)
    (declared : ∀ field ∈ fields, field ∈ (start.cls level.cls).fields)
    (distinct : (fields.map FieldDecl.name).Nodup) :
    Meets (fun fault => start.explains (start.object id).cls fault = true)
      (start.Awaits id place [])
      (constructFields perform (start.cls level.cls).name ⟨id, place⟩ level options context fields)
      world := by
  induction fields generalizing world with
  | nil => exact .pure () awaits
  | cons field rest ih =>
      have later : (rest.map FieldDecl.name).Nodup := by
        rw [List.map_cons, List.nodup_cons] at distinct
        exact distinct.2
      exact (constructField_meets nested inside options context awaits sits chained
        (declared field List.mem_cons_self) distinct).bind fun _ after awaits =>
          ih awaits (fun other member => declared other (List.mem_cons_of_mem field member)) later

/-- A level is constructed while the names of its fields and of those below it are free. -/
theorem constructLevel_meets (options : CreateOptions) (context : ContextId)
    (sound : start.Sound)
    (chain : (start.object id).levels.map Level.cls = start.ancestors (start.object id).cls)
    (awaits : start.Awaits id (place + 1) [] world) :
    Meets (fun fault => start.explains (start.object id).cls fault = true)
      (start.Awaits id place []) (constructLevel perform id options context place) world := by
  have lower : ∀ {after}, start.Awaits id (place + 1) [] after → start.Awaits id place [] after :=
    fun awaits => ⟨awaits.continues, awaits.quiet,
      fun _ _ _ member => (List.not_mem_nil member).elim,
      fun lower less => awaits.below lower (Nat.lt_succ_of_lt less)⟩
  cases sits : start.level? id place with
  | none =>
      have beyond : world.level? id place = none := by
        rw [awaits.continues.level?_eq inside, sits]
      exact .congr (constructLevel_of_none beyond) (.pure () (lower awaits))
  | some level =>
      have there := awaits.continues.level? sits
      have chained : level.cls ∈ start.ancestors (start.object id).cls := by
        rw [← chain]
        exact List.mem_map_of_mem (List.mem_of_getElem? sits)
      have named := awaits.continues.hierarchy.name level.cls
      have fields := awaits.continues.hierarchy.ask ClassDef.fields (fun _ => rfl) level.cls
      have permitted : DeclareOnly (fun _ => False)
          (annotationBodies (world.cls level.cls).annotations) :=
        (awaits.quiet.permits.classes level.cls).of_subset fun body inside =>
          List.mem_append_left _ (List.mem_append_left _ inside)
      refine .congr (constructLevel_of_some there) ?_
      rw [named, fields]
      have leads : Leads (fun _ => False) (· ≠ id)
          (annotateLevel perform id options context place (world.cls level.cls)) :=
        (annotateLevel_tracks (nested.tracks _ _) permitted id options context place).leads
      refine (awaits.meets inside (fun _ => start.explains_of_distant _) leads
        (annotateLevel_distant perform id options context place _)).bind fun _ after awaits => ?_
      refine constructFields_meets nested inside options context ⟨awaits.continues, awaits.quiet,
        ?_, (lower awaits).below⟩ sits chained (fun _ member => member) ?_
      · intro other same
        rw [sits] at same
        cases same
        exact awaits.below place (Nat.lt_succ_self place) level sits
      · exact (List.nodup_append.mp (sound.registered.members level.cls)).1

theorem constructLevels_meets (options : CreateOptions) (context : ContextId)
    (sound : start.Sound)
    (chain : (start.object id).levels.map Level.cls = start.ancestors (start.object id).cls)
    (awaits : start.Awaits id place [] world) :
    Meets (fun fault => start.explains (start.object id).cls fault = true)
      (start.Awaits id 0 []) (constructLevels perform id options context place) world := by
  induction place generalizing world with
  | zero => exact .pure () awaits
  | succ place ih =>
      exact (constructLevel_meets nested inside options context sound chain awaits).bind
        fun _ after awaits => ih awaits

omit inside in
/-- The construction of an instance on which no field was declared ends in no fault of a
declaration but those that the declarations explain. -/
theorem constructInstance_explained {options : CreateOptions} {args : List Value} {fault : Fault}
    {after : World} (quiet : world.Quiet) (pristine : world.Pristine id)
    (ends : constructInstance perform id options args world = (.failed fault, after)) :
    world.explains (world.object id).cls fault = true := by
  have distant : ∀ fault : Fault, fault.Distant →
      world.explains (world.object id).cls fault = true :=
    fun _ => world.explains_of_distant _
  have awaits : world.Awaits id (world.object id).levels.length [] world :=
    ⟨.refl world, quiet, fun _ _ _ member => (List.not_mem_nil member).elim,
      fun lower _ level sits field member => pristine.vacant lower level sits field member⟩
  cases initialized : (world.object id).initialized with
  | true =>
      rw [constructInstance_of_initialized initialized] at ends
      cases ends
      rfl
  | false =>
      rw [constructInstance_of_new initialized] at ends
      have whole := (awaits.meets pristine.inside distant (constructionContext_leads options)
        (constructionContext_distant options)).bind fun context between awaits =>
          (constructLevels_meets nested pristine.inside options context quiet.sound pristine.chain
            awaits).bind fun _ between awaits =>
              awaits.meets pristine.inside distant
                (finishInstance_tracks (nested.tracks _ _) Regime.idle_pushes id options args
                  (world.classOf id).name).leads
                (finishInstance_distant perform id options args (world.classOf id).name context)
      exact whole.1 fault after ends

end

end ScriptObjects

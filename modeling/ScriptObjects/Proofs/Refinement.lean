import ScriptObjects.Proofs.Resolution

/-!
# Lookups refine static resolution

Lookups are lazy: a store asks its class for a function only when the name is asked
for, keeps the answer as a slot, and thereby changes what later lookups run into.  None
of this can be observed.  Whatever a session does once the registry is complete and was
validated, a lookup through a composite scope of an instance finds what the walk over
the declarations means.
-/

namespace ScriptObjects

set_option autoImplicit false

open Exec

namespace World

/-! ## The walk is static -/

section

variable {before after : World} (continues : before.Continues after)
include continues

theorem Continues.acceptedField? (id : ClassId) (name : String) (accepts : Field → Bool) :
    (after.cls id).acceptedField? name accepts = (before.cls id).acceptedField? name accepts :=
  continues.hierarchy.ask (fun cls => cls.acceptedField? name accepts) (fun _ => rfl) id

theorem Continues.acceptedFunction? (id : ClassId) (name : String) (accepts : Function → Bool) :
    (after.cls id).acceptedFunction? name accepts =
      (before.cls id).acceptedFunction? name accepts :=
  continues.hierarchy.ask (fun cls => cls.acceptedFunction? name accepts) (fun _ => rfl) id

theorem Continues.functionAlong? (tier : Access) (name : String) (members : List ClassId)
    (place : Nat) :
    after.functionAlong? tier name place members = before.functionAlong? tier name place members := by
  induction members generalizing place with
  | nil => rfl
  | cons id rest ih =>
      rw [World.functionAlong?, World.functionAlong?, continues.acceptedFunction?, ih]

theorem Continues.memberAt? (tier : Access) (name : String) (place : Nat) (members : List ClassId) :
    after.memberAt? tier name place members = before.memberAt? tier name place members := by
  cases members with
  | nil => rfl
  | cons id rest =>
      rw [World.memberAt?, World.memberAt?, continues.acceptedField?, continues.functionAlong?]

theorem Continues.memberAlong? (access : Access) (name : String) (members : List ClassId)
    (place : Nat) :
    after.memberAlong? access name place members =
      before.memberAlong? access name place members := by
  induction members generalizing place with
  | nil => rfl
  | cons id rest ih =>
      rw [World.memberAlong?, World.memberAlong?, continues.memberAt?, continues.memberAt?, ih]

/-- No run and nothing that the host does changes what a name means along a chain. -/
theorem Continues.member? (chain : List ClassId) (view : Viewpoint) (name : String) :
    after.member? chain view name = before.member? chain view name := by
  unfold World.member?
  simp only [continues.memberAt?, continues.memberAlong?]

end

end World

/-! ## Lookups after lookups -/

/-- A request of any kind proceeds, a lookup like any other. -/
theorem performUpTo_proceeds (budget : Nat) (request : Request) (world : World) :
    Proceeds world (performUpTo budget request world).2 :=
  LeadsFreely.proceeds (performUpTo_leads budget _ _ request fun _ _ _ _ => trivial) world

namespace World

/-- A scope that was opened as a composite of an instance of a settled session. -/
theorem Settled.opened_eq {world opened : World} (settled : world.Settled) {id : InstanceId}
    {view : Viewpoint} {scope : Scope} (composite : view.mode ≠ .declarations)
    (opens : openScope? id view world = (.done (some scope), opened)) :
    scope = compositeScope (world.object id).levels view true := by
  cases sits : world.level? id view.level with
  | none =>
      rw [openScope?_of_none sits] at opens
      cases opens
  | some level =>
      rw [openScope?_composite sits composite, settled.alive, Bool.or_true] at opens
      cases opens
      rfl

/-- The past of a scope of an instance.  The registry was completed and validated, and nothing was
defined since then; the instance, whose classes were registered, was constructed with standard
options, at any time before or after that; and then the scope was opened on it.  Whether the hashes
of the class names are distinct, and whether instances that are older than the validation have all
levels of their chains, is left open. -/
structure Viewing (world : World) (id : InstanceId) (view : Viewpoint) (scope : Scope) where
  defined : World
  start : World
  before : World
  after : World
  asked : World
  opened : World
  budget : Nat
  options : CreateOptions
  args : List Value
  reachable : Reachable defined
  valid : validate.run defined = (.ok (), start)
  since : Proceeds start asked
  begun : Reachable before
  inside : id.index < before.instances.size
  registered : ∀ level ∈ (before.object id).levels, level.cls.index < before.classes.size
  standard : options.flags = .standard
  constructed : performUpTo budget (.construct id options args) before = (.done (), after)
  kept : GoesOn after asked
  opens : openScope? id view asked = (.done (some scope), opened)
  later : Proceeds opened world

namespace Viewing

variable {world : World} {id : InstanceId} {view : Viewpoint} {scope : Scope}

/-- Whatever happens but definitions, the scope is still there to be looked through. -/
def proceed {after : World} (viewing : Viewing world id view scope)
    (proceeds : Proceeds world after) : Viewing after id view scope :=
  { viewing with later := viewing.later.trans proceeds }

variable (viewing : Viewing world id view scope)

section

include viewing

theorem valid_start : viewing.start.alive = true ∧ viewing.start.Sound ∧
    viewing.start.RemembersBases := by
  obtain ⟨alive, sound⟩ := viewing.reachable.sound
  obtain ⟨follows, bases⟩ := validate_ok sound.registered viewing.valid
  obtain ⟨later, continues⟩ := follows.proceeds.sound_continues alive sound
  exact ⟨continues.alive.trans alive, later, bases⟩

theorem onward : Proceeds viewing.asked world := by
  have opening := LeadsFreely.proceeds (openScope?_leads id view) viewing.asked
  rw [viewing.opens] at opening
  exact opening.trans viewing.later

/-- The state is one of a session. -/
theorem reached : Reachable world := by
  obtain ⟨_, sound⟩ := viewing.reachable.sound
  obtain ⟨follows, _⟩ := validate_ok sound.registered viewing.valid
  exact .proceed viewing.reachable
    (follows.proceeds.trans (viewing.since.trans viewing.onward))

/-- The declarations are still those that were validated. -/
theorem continues : viewing.start.Continues world := by
  obtain ⟨alive, sound, _⟩ := viewing.valid_start
  exact ((viewing.since.trans viewing.onward).sound_continues alive sound).2

/-- The walk finds the same in the declarations as they were validated. -/
theorem meaning?_eq (name : String) :
    world.meaning? (world.object id).cls view name =
      (viewing.start.member? (viewing.start.ancestors (world.object id).cls) view name).or
        (world.root? view.access name) := by
  rw [meaning?, viewing.continues.hierarchy.ancestors, viewing.continues.member?]

/-- What the construction left is there when the scope is opened. -/
theorem furnished : viewing.asked.Furnished id := by
  obtain ⟨alive, sound⟩ := viewing.begun.sound
  have constructs := performUpTo_proceeds viewing.budget
    (.construct id viewing.options viewing.args) viewing.before
  rw [viewing.constructed] at constructs
  have continues := (constructs.sound_continues alive sound).2
  have furnished : viewing.after.Furnished id := by
    refine ⟨Nat.lt_of_lt_of_le viewing.inside continues.instances, ?_, ?_⟩
    · rw [(continues.objects id viewing.inside).2, continues.hierarchy.size]
      exact viewing.registered
    · exact performUpTo_construct_fields alive sound viewing.inside viewing.standard
        viewing.constructed
  exact furnished.goesOn (viewing.begun.proceed constructs) viewing.kept

variable (distinct : viewing.start.DistinctHashes) (whole : viewing.start.Whole)
include distinct whole

theorem settled_asked : viewing.asked.Settled :=
  (Settled.of_validate viewing.reachable viewing.valid distinct whole).proceed viewing.since

theorem settled : world.Settled :=
  (viewing.settled_asked distinct whole).proceed viewing.onward

theorem known (only : world.OnlyFields id) : world.Constructed id := by
  have asked := viewing.settled_asked distinct whole
  have furnished := viewing.furnished.later asked.alive asked.sound viewing.onward
  exact ⟨furnished.inside, furnished.fields, only⟩

theorem scope_eq (composite : view.mode ≠ .declarations) :
    scope = compositeScope (world.object id).levels view true := by
  have asked := viewing.settled_asked distinct whole
  have continues := (viewing.onward.sound_continues asked.alive asked.sound).2
  rw [asked.opened_eq composite viewing.opens, (continues.objects id viewing.furnished.inside).2]

end

/-- Another scope may be opened on the instance at any time. -/
def reopen {other : Viewpoint} {found : Scope} {after : World}
    (opens : openScope? id other world = (.done (some found), after)) :
    Viewing after id other found :=
  { viewing with
    asked := world
    opened := after
    since := viewing.since.trans viewing.onward
    kept := .proceed viewing.kept viewing.onward
    opens := opens
    later := .refl after }

end Viewing

/-- The functions of a living instance are bound to it, and those of the roots to nothing. -/
theorem answerOf_living {world : World} {id : InstanceId} (living : (world.object id).alive = true)
    {meant : Option Meaning} {function : Function} {receiver : Option Receiver}
    (found : meant.map (world.answerOf id) = some (.function function receiver)) :
    (receiver.all fun target => (world.object target.owner).alive) = true := by
  obtain ⟨meaning, _, same⟩ := Option.map_eq_some_iff.mp found
  cases meaning with
  | field | rootVariable => cases same
  | function place function =>
      cases same
      exact living
  | rootFunction function =>
      cases same
      rfl

theorem Viewing.reaches {world : World} {id : InstanceId} {view : Viewpoint} {scope : Scope}
    (viewing : Viewing world id view scope) (composite : view.mode ≠ .declarations)
    (distinct : viewing.start.DistinctHashes) (whole : viewing.start.Whole)
    (only : world.OnlyFields id) {name : String} (trusts : world.Trusts name) :
    world.Reaches scope name
      ((world.meaning? (world.object id).cls view name).map (world.answerOf id)) := by
  have settled := viewing.settled distinct whole
  have answer := answerIn?_compositeScope settled (viewing.known distinct whole only) view name
  rw [← viewing.scope_eq distinct whole composite] at answer
  rw [← answer]
  exact World.reaches settled trusts scope

/-! ## Small sessions -/

/-- A class of fields and functions without annotations. -/
def bareClass (name : String) (base : Option String) (fields : List (FieldDecl String))
    (functions : List (FunctionDecl String)) : ClassSpec :=
  ⟨name, .ordinary, base, fields, functions, [], none, none⟩

def bareField (name : String) (initializer : Option Expr) : FieldDecl String :=
  ⟨name, .global, .any, .script initializer, [], none⟩

def bareFunction (name : String) (body : Expr) : FunctionDecl String :=
  ⟨name, .global, .ordinary, .any, .script body, [], none⟩

/-- The state after a class is defined, unless it is refused. -/
def orDefine (world : World) (spec : ClassSpec) : World :=
  ((World.define spec).run world).2

/-- A session that starts with some classes. -/
def defining (config : Config) (specs : List ClassSpec) : World :=
  specs.foldl orDefine (.initial config .standard)

theorem Reachable.orDefine {world : World} (reachable : Reachable world) (spec : ClassSpec) :
    Reachable (world.orDefine spec) :=
  reachable.define spec

theorem GoesOn.orDefines {first second : World} (before : GoesOn first second)
    (specs : List ClassSpec) : GoesOn first (specs.foldl World.orDefine second) := by
  induction specs generalizing second with
  | nil => exact before
  | cons spec rest ih => exact ih (before.define spec)

theorem reachable_defining (config : Config) (specs : List ClassSpec) :
    Reachable (defining config specs) :=
  ⟨config, .standard, GoesOn.orDefines (.start _) specs⟩

/-- Whether every variable of an instance has the name and the tier of a field. -/
def checkFields (world : World) (id : InstanceId) : Bool :=
  (world.object id).levels.all fun level =>
    [Access.global, .internal, .localOnly].all fun tier =>
      (world.store (level.declarations tier)).slots.all fun entry =>
        entry.2.immutable ||
          (world.cls level.cls).fields.any fun field => field.name = entry.1 ∧ field.access = tier

theorem onlyFields_of_check {world : World} {id : InstanceId}
    (checked : world.checkFields id = true) : world.OnlyFields id := by
  intro place level tier name slot sits found isMutable
  obtain ⟨earlier, later, slots, _⟩ := List.lookup_eq_some_iff.mp found
  have member : (name, slot) ∈ (world.store (level.declarations tier)).slots := by
    rw [slots]
    simp
  unfold checkFields at checked
  have levels := List.all_eq_true.mp checked level (List.mem_of_getElem? sits)
  have tiers := List.all_eq_true.mp levels tier (by cases tier <;> decide)
  simpa [isMutable] using List.all_eq_true.mp tiers (name, slot) member

/-- Whether nothing is annotated, neither the functions that are declared nor those that are slots. -/
def checkBare (world : World) : Bool :=
  (world.functions ++ world.classes.toList.flatMap ClassDef.functions).all
      (fun function => function.annotations.isEmpty) &&
    world.stores.toList.all fun store =>
      store.slots.all fun entry => !entry.2.immutable || entry.2.annotations.isEmpty

end World

theorem Heap.get_of_all {kind : HandleKind} {α : Type} [Inhabited α] {heap : Heap kind α}
    {holds : α → Prop} (cells : ∀ cell ∈ heap.toList, holds cell) (none : holds default)
    (handle : Handle kind) : holds (heap.get handle) := by
  unfold Heap.get
  cases found : heap.get? handle with
  | none => exact none
  | some cell => exact cells cell (Array.mem_toList_iff.mpr (Array.mem_of_getElem? found))

namespace World

theorem unannotated_of_check {world : World} (checked : world.checkBare = true) (name : String) :
    world.Unannotated name := by
  unfold checkBare at checked
  rw [Bool.and_eq_true, List.all_eq_true, List.all_eq_true] at checked
  obtain ⟨functions, stores⟩ := checked
  refine ⟨fun function declares _ => ?_, fun id slot found held => ?_⟩
  · obtain global | ⟨id, member⟩ := declares
    · exact List.isEmpty_iff.mp (functions function (List.mem_append_left _ global))
    · revert member
      refine @Heap.get_of_all _ _ _ world.classes
        (fun cls => function ∈ cls.functions → function.annotations = []) ?_ ?_ id
      · intro cls inside member
        exact List.isEmpty_iff.mp (functions function
          (List.mem_append_right _ (List.mem_flatMap.mpr ⟨cls, inside, member⟩)))
      · exact fun member => nomatch member
  · obtain ⟨earlier, later, slots, _⟩ := List.lookup_eq_some_iff.mp found
    have member : (name, slot) ∈ (world.store id).slots := by
      rw [slots]
      simp
    have bare := @Heap.get_of_all _ _ _ world.stores
      (fun store => ∀ entry ∈ store.slots, entry.2.immutable = true →
        entry.2.annotations = [])
      (fun store inside entry there held => by
        have entries := List.all_eq_true.mp (stores store inside) entry there
        simpa [held] using entries)
      (fun _ there => (List.not_mem_nil there).elim) id
    exact bare (name, slot) member held

theorem distinctHashes_of_nodup {world : World}
    (distinct : (world.classes.handles.map fun id => TypeHash.ofName (world.cls id).name).Nodup) :
    world.DistinctHashes := by
  intro first second one two equal
  rw [List.inj_on_of_nodup_map distinct ((Heap.mem_handles _ _).mpr one)
    ((Heap.mem_handles _ _).mpr two) equal]

/-! ## A session that looks at one instance -/

section

variable (specs : List ClassSpec) (cls : ClassId) (view : Viewpoint)

/-- Some classes are defined and checked. -/
def sampleStart : World := (validate.run (defining default specs)).2

/-- An instance of one of them is allocated. -/
def sampleBefore : World := (newInstance cls .standard (sampleStart specs)).2

/-- The instance is constructed. -/
def sampleAfter : World := (performUpTo 9 (.construct ⟨0⟩ .standard []) (sampleBefore specs cls)).2

/-- A scope is opened on it. -/
def sampleOpened : World := (openScope? ⟨0⟩ view (sampleAfter specs cls)).2

def sampleScope : Scope := compositeScope ((sampleAfter specs cls).object ⟨0⟩).levels view true

theorem reachable_sampleStart : Reachable (sampleStart specs) :=
  .proceed (reachable_defining default specs) (validate_onlyFollows _).proceeds

theorem proceeds_sampleBefore : Proceeds (sampleStart specs) (sampleBefore specs cls) :=
  LeadsFreely.proceeds (newInstance_leads cls .standard) (sampleStart specs)

theorem proceeds_sampleAfter : Proceeds (sampleStart specs) (sampleAfter specs cls) :=
  (proceeds_sampleBefore specs cls).trans
    (performUpTo_proceeds 9 (.construct ⟨0⟩ .standard []) (sampleBefore specs cls))

end

theorem opens_composite {world : World} {id : InstanceId} {view : Viewpoint}
    (composite : view.mode ≠ .declarations) (alive : world.alive = true)
    (sits : (world.level? id view.level).isSome) :
    openScope? id view world = (.done (some (compositeScope (world.object id).levels view true)),
      (openScope? id view world).2) := by
  obtain ⟨level, sits⟩ := Option.isSome_iff_exists.mp sits
  rw [openScope?_composite sits composite, alive, Bool.or_true]

theorem validates_of_ok {defined : World} (ok : (validate.run defined).1 = .ok ()) :
    validate.run defined = (.ok (), (validate.run defined).2) :=
  Prod.ext ok rfl

/-- How the session came to look at the instance. -/
def sampleViewing {specs : List ClassSpec} {cls : ClassId} {view : Viewpoint}
    (composite : view.mode ≠ .declarations)
    (valid : validate.run (defining default specs) = (.ok (), sampleStart specs))
    (inside : 0 < (sampleBefore specs cls).instances.size)
    (registered : ∀ level ∈ ((sampleBefore specs cls).object ⟨0⟩).levels,
      level.cls.index < (sampleBefore specs cls).classes.size)
    (constructed : (performUpTo 9 (.construct ⟨0⟩ .standard [])
      (sampleBefore specs cls)).1.result? = some ())
    (alive : (sampleAfter specs cls).alive = true)
    (sits : ((sampleAfter specs cls).level? ⟨0⟩ view.level).isSome) :
    Viewing (sampleOpened specs cls view) ⟨0⟩ view (sampleScope specs cls view) where
  defined := defining default specs
  start := sampleStart specs
  before := sampleBefore specs cls
  after := sampleAfter specs cls
  asked := sampleAfter specs cls
  opened := sampleOpened specs cls view
  budget := 9
  options := .standard
  args := []
  reachable := reachable_defining _ _
  valid := valid
  since := proceeds_sampleAfter specs cls
  begun := (reachable_sampleStart specs).proceed (proceeds_sampleBefore specs cls)
  inside := inside
  registered := registered
  standard := rfl
  constructed := done_of_result? constructed
  kept := .start _
  opens := opens_composite composite alive sits
  later := .refl _

/-! ## The refinement -/

/-- In a session whose registry is complete and was validated, a lookup through a composite scope
of a constructed instance reaches what the declarations mean, whatever was done before; where no
class of the chain means anything by the name, it reaches what the roots mean.  A function that is
not annotated is found if its instance lives. -/
theorem finds_meaning {world : World} {id : InstanceId} {view : Viewpoint} {scope : Scope}
    {name : String} (viewing : Viewing world id view scope)
    (composite : view.mode ≠ .declarations) (distinct : viewing.start.DistinctHashes)
    (whole : viewing.start.Whole) (only : world.OnlyFields id) (trusts : world.Trusts name) :
    let meaning := (viewing.start.member? (viewing.start.ancestors (world.object id).cls) view
      name).or (world.root? view.access name)
    world.Reaches scope name (meaning.map (world.answerOf id)) ∧
      (world.Unannotated name → (world.object id).alive = true →
        world.Finds scope name (meaning.map (world.answerOf id))) := by
  intro meaning
  have reaches := viewing.reaches composite distinct whole only trusts
  rw [viewing.meaning?_eq name] at reaches
  refine ⟨reaches, fun unannotated living => ?_⟩
  exact reaches.finds (viewing.settled distinct whole) unannotated
    fun _ _ => answerOf_living living

/-- A class with a function and a field, a class derived from it with a field of the name of the
function, and a class derived from that one without anything. -/
def hiddenSpecs : List ClassSpec :=
  [bareClass "A" none [bareField "y" (some (.int 3))] [bareFunction "x" (.int 1)],
   bareClass "B" (some "A") [bareField "x" (some (.int 2))] [],
   bareClass "C" (some "B") [] []]

/-- An instance of the last one as it is seen from outside. -/
def hiddenScope : Scope := sampleScope hiddenSpecs ⟨2⟩ ⟨0, .global, .all⟩

def hiddenOpened : Viewing (sampleOpened hiddenSpecs ⟨2⟩ ⟨0, .global, .all⟩) ⟨0⟩
    ⟨0, .global, .all⟩ hiddenScope :=
  sampleViewing nofun rfl (by decide +kernel) (by decide +kernel) (by decide +kernel)
    (by decide +kernel) (by decide +kernel)

/-- The function was looked up before, which made it a slot. -/
def hiddenLooked : World :=
  (performUpTo 9 (.read hiddenScope "x") (sampleOpened hiddenSpecs ⟨2⟩ ⟨0, .global, .all⟩)).2

/-- And then the instance is seen from below the last class as well. -/
def hiddenBelow : World := (openScope? ⟨0⟩ ⟨0, .global, .base⟩ hiddenLooked).2

def belowScope : Scope :=
  compositeScope (hiddenLooked.object ⟨0⟩).levels ⟨0, .global, .base⟩ true

def hiddenLookedViewing : Viewing hiddenLooked ⟨0⟩ ⟨0, .global, .all⟩ hiddenScope :=
  hiddenOpened.proceed (performUpTo_proceeds 9 (.read hiddenScope "x") _)

def hiddenViewing : Viewing hiddenBelow ⟨0⟩ ⟨0, .global, .all⟩ hiddenScope :=
  hiddenLookedViewing.proceed (LeadsFreely.proceeds (openScope?_leads _ _) hiddenLooked)

def belowViewing : Viewing hiddenBelow ⟨0⟩ ⟨0, .global, .base⟩ belowScope :=
  hiddenLookedViewing.reopen (opens_composite nofun (by decide +kernel) (by decide +kernel))

theorem distinct_hidden : (sampleStart hiddenSpecs).DistinctHashes :=
  distinctHashes_of_nodup (by decide +kernel)

theorem onlyFields_hidden : hiddenBelow.OnlyFields ⟨0⟩ := onlyFields_of_check (by decide +kernel)

theorem trusts_hidden (name : String) : hiddenBelow.Trusts name :=
  .of_standard (by decide +kernel) name

theorem unannotated_hidden (name : String) : hiddenBelow.Unannotated name :=
  unannotated_of_check (by decide +kernel) name

theorem finds_meaning_hidden :
    (∃ function : Function, function.name = "x" ∧ hiddenBelow.Finds hiddenScope "x"
      (some (.function function (some ⟨⟨0⟩, 2⟩)))) ∧
    hiddenBelow.Finds belowScope "x" (some (.slot ⟨6⟩)) := by
  have living : (hiddenBelow.object ⟨0⟩).alive = true := by decide +kernel
  have whole : (sampleStart hiddenSpecs).Whole := .of_none (by decide +kernel)
  constructor
  · have finds := (finds_meaning hiddenViewing nofun distinct_hidden whole onlyFields_hidden
      (trusts_hidden "x")).2 (unannotated_hidden "x") living
    exact finds.function_of (by decide +kernel)
  · have finds := (finds_meaning belowViewing nofun distinct_hidden whole onlyFields_hidden
      (trusts_hidden "x")).2 (unannotated_hidden "x") living
    exact finds.slot_of (by decide +kernel)

/-! ## Older instances and reports of the host -/

/-- An instance of a class whose base is not there yet. -/
def olderBefore : World :=
  (newInstance ⟨0⟩ .standard (defining default [bareClass "C" (some "B") [] []])).2

/-- The instance is constructed. -/
def olderAfter : World := (performUpTo 9 (.construct ⟨0⟩ .standard []) olderBefore).2

/-- The base is defined, with a field. -/
def olderDefined : World :=
  olderAfter.orDefine (bareClass "B" none [bareField "x" (some (.int 1))] [])

def olderStart : World := (validate.run olderDefined).2

/-- The instance is seen from outside once the registry was validated. -/
def olderOpened : World := (openScope? ⟨0⟩ ⟨0, .global, .all⟩ olderStart).2

def olderScope : Scope := compositeScope (olderStart.object ⟨0⟩).levels ⟨0, .global, .all⟩ true

theorem reachable_olderBefore : Reachable olderBefore :=
  (reachable_defining default _).proceed (LeadsFreely.proceeds (newInstance_leads ⟨0⟩ .standard) _)

theorem goesOn_olderDefined : GoesOn olderAfter olderDefined :=
  .define _ (.start olderAfter)

def olderViewing : Viewing olderOpened ⟨0⟩ ⟨0, .global, .all⟩ olderScope where
  defined := olderDefined
  start := olderStart
  before := olderBefore
  after := olderAfter
  asked := olderStart
  opened := olderOpened
  budget := 9
  options := .standard
  args := []
  reachable := (reachable_olderBefore.proceed
    (performUpTo_proceeds 9 (.construct ⟨0⟩ .standard []) _)).goesOn goesOn_olderDefined
  valid := validates_of_ok (by decide +kernel)
  since := .refl _
  begun := reachable_olderBefore
  inside := by decide +kernel
  registered := by decide +kernel
  standard := rfl
  constructed := done_of_result? (by decide +kernel)
  kept := .proceed goesOn_olderDefined (validate_onlyFollows _).proceeds
  opens := opens_composite nofun (by decide +kernel) (by decide +kernel)
  later := .refl _

/-- A class with a field, and a class for counters derived from it, with a field of the same name
that is kept in the host object. -/
def tallySpecs : List ClassSpec :=
  [bareClass "A" none [bareField "count" (some (.int 1))] [],
   ⟨"B", .ordinary, some "A",
     [⟨"count", .global, .int, .host .counterCount, [], none⟩],
     [⟨constructorName, .global, .ordinary, .any, .hostConstructor ⟨[.int], .counter⟩, [], none⟩], [],
     some .counter, none⟩]

/-- They are defined where a marshaler reports the field as missing at certain counts. -/
def tallyDefined : World := tallySpecs.foldl orDefine (.initial default .selective)

def tallyStart : World := (validate.run tallyDefined).2

def tallyBefore : World := (newInstance ⟨1⟩ .standard tallyStart).2

/-- An instance is constructed at such a count. -/
def tallyAfter : World := (performUpTo 9 (.construct ⟨0⟩ .standard [.int 404]) tallyBefore).2

def tallyOpened : World := (openScope? ⟨0⟩ ⟨0, .global, .all⟩ tallyAfter).2

def tallyScope : Scope := compositeScope (tallyAfter.object ⟨0⟩).levels ⟨0, .global, .all⟩ true

theorem reachable_tallyDefined : Reachable tallyDefined :=
  ⟨default, .selective, GoesOn.orDefines (.start _) tallySpecs⟩

theorem proceeds_tallyBefore : Proceeds tallyStart tallyBefore :=
  LeadsFreely.proceeds (newInstance_leads ⟨1⟩ .standard) tallyStart

def tallyViewing : Viewing tallyOpened ⟨0⟩ ⟨0, .global, .all⟩ tallyScope where
  defined := tallyDefined
  start := tallyStart
  before := tallyBefore
  after := tallyAfter
  asked := tallyAfter
  opened := tallyOpened
  budget := 9
  options := .standard
  args := [.int 404]
  reachable := reachable_tallyDefined
  valid := validates_of_ok (by decide +kernel)
  since := proceeds_tallyBefore.trans
    (performUpTo_proceeds 9 (.construct ⟨0⟩ .standard [.int 404]) tallyBefore)
  begun := (reachable_tallyDefined.proceed (validate_onlyFollows _).proceeds).proceed
    proceeds_tallyBefore
  inside := by decide +kernel
  registered := by decide +kernel
  standard := rfl
  constructed := done_of_result? (by decide +kernel)
  kept := .start _
  opens := opens_composite nofun (by decide +kernel) (by decide +kernel)
  later := .refl _

/-- The instance of the last class is dropped while its scope is still there. -/
def hiddenDropped : World :=
  (sampleOpened hiddenSpecs ⟨2⟩ ⟨0, .global, .all⟩).withObject ⟨0⟩
    fun object => { object with alive := false }

def droppedViewing : Viewing hiddenDropped ⟨0⟩ ⟨0, .global, .all⟩ hiddenScope :=
  hiddenOpened.proceed (.host (.refl _) (.drop ⟨0⟩))

/-- The conditions on older instances, on what the host reports and on the life of the instance
cannot be left out. -/
theorem meaning_missed :
    (¬ ∀ (world : World) (id : InstanceId) (view : Viewpoint) (scope : Scope) (name : String)
      (viewing : Viewing world id view scope), view.mode ≠ .declarations →
      viewing.start.DistinctHashes → (world.object id).alive = true → world.OnlyFields id →
      world.Trusts name → world.Unannotated name →
      world.Finds scope name (((viewing.start.member? (viewing.start.ancestors
        (world.object id).cls) view name).or (world.root? view.access name)).map
          (world.answerOf id))) ∧
    (¬ ∀ (world : World) (id : InstanceId) (view : Viewpoint) (scope : Scope) (name : String)
      (viewing : Viewing world id view scope), view.mode ≠ .declarations →
      viewing.start.DistinctHashes → viewing.start.Whole → (world.object id).alive = true →
      world.OnlyFields id → world.Unannotated name →
      world.Finds scope name (((viewing.start.member? (viewing.start.ancestors
        (world.object id).cls) view name).or (world.root? view.access name)).map
          (world.answerOf id))) ∧
    ¬ ∀ (world : World) (id : InstanceId) (view : Viewpoint) (scope : Scope) (name : String)
      (viewing : Viewing world id view scope), view.mode ≠ .declarations →
      viewing.start.DistinctHashes → viewing.start.Whole → world.OnlyFields id →
      world.Trusts name → world.Unannotated name →
      world.Finds scope name (((viewing.start.member? (viewing.start.ancestors
        (world.object id).cls) view name).or (world.root? view.access name)).map
          (world.answerOf id)) := by
  refine ⟨?_, ?_, ?_⟩
  · intro claim
    have finds := claim _ _ _ _ "x" olderViewing nofun
      (distinctHashes_of_nodup (by decide +kernel)) (by decide +kernel)
      (onlyFields_of_check (by decide +kernel)) (.of_standard (by decide +kernel) "x")
      (unannotated_of_check (by decide +kernel) "x")
    -- The field is one of a level that the instance does not have.
    have slot : olderOpened.Finds olderScope "x" (some (.slot ⟨0⟩)) :=
      finds.slot_of (by decide +kernel)
    cases slot with
    | slot there =>
        have missing : (olderOpened.store ⟨0⟩).slot? "x" = none := by decide +kernel
        rw [missing] at there
        cases there
  · intro claim
    have finds := claim _ _ _ _ "count" tallyViewing nofun
      (distinctHashes_of_nodup (by decide +kernel)) (.of_none (by decide +kernel))
      (by decide +kernel) (onlyFields_of_check (by decide +kernel))
      (unannotated_of_check (by decide +kernel) "count")
    have slot : tallyOpened.Finds tallyScope "count" (some (.slot ⟨3⟩)) :=
      finds.slot_of (by decide +kernel)
    cases slot with
    | slot there isMutable read assign =>
        have same := congrArg (fun run => run.1.result?) (read 9)
        revert same
        decide +kernel
  · intro claim
    have finds := claim _ _ _ _ "x" droppedViewing nofun distinct_hidden
      (.of_none (by decide +kernel)) (onlyFields_of_check (by decide +kernel))
      (.of_standard (by decide +kernel) "x") (unannotated_of_check (by decide +kernel) "x")
    obtain ⟨function, _, finds⟩ : ∃ function : Function, function.name = "x" ∧
        hiddenDropped.Finds hiddenScope "x" (some (.function function (some ⟨⟨0⟩, 2⟩))) :=
      finds.function_of (by decide +kernel)
    have fails : (performUpTo 10 (.read hiddenScope "x") hiddenDropped).1.result? = none := by
      decide +kernel
    cases finds with
    | function made read =>
        rw [read 9] at fails
        cases fails

end World

end ScriptObjects

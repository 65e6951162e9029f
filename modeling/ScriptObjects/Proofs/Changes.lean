import ScriptObjects.Proofs.Runs

/-!
# The changes a run is made of

Whatever a run does to the state is a sequence of the small changes listed here, each
with what is known where it is made.  Two of them come in pairs: a frame that is
pushed is popped again, and the slot of a function whose annotations could not be
created is withdrawn again.  A run evolves the state if it leads from one state to
another through such changes and pairs.

Two parameters say what a run may do.  Bodies declare only permitted names, and the
fields of an instance are declared only while it is open, which is to say, while the
construction protocol runs on it.
-/

namespace ScriptObjects

set_option autoImplicit false

namespace World

/-! ## What a store offers -/

/-- The function of a name that a store at home on a level stands for. -/
def levelFunction? (world : World) (cls : ClassId) (tier : Access) (name : String) :
    Option Function :=
  let question := ClassDef.acceptedFunction? name fun function => function.access = tier
  if tier = .localOnly then question (world.cls cls) else world.nearest? cls question

/-- The level a function is bound to when it is found from a level on. -/
def boundLevel (world : World) (owner : InstanceId) (level : Nat) (function : Function) : Nat :=
  (function.owner.bind fun declarer => world.levelOf? owner declarer.hash).getD level

/-- The function that a name means in a store, and what it is bound to. -/
def offer? (world : World) (id : StoreId) (name : String) : Option (Function × Option Receiver) :=
  match (world.store id).home with
  | .free _ => none
  | .level owner level cls tier =>
      (world.levelFunction? cls tier name).map fun function =>
        (function, some ⟨owner, world.boundLevel owner level function⟩)
  | .root tier =>
      ((world.function? name).filter fun function => function.access = tier).map fun function =>
        (function, none)

/-- An offer depends on the hierarchy, on the functions of the assembly, on the home of the store
and on the levels of the instance it belongs to. -/
theorem offer?_congr {first second : World} (same : SameHierarchy first second)
    (functions : second.functions = first.functions) {id : StoreId}
    (home : (second.store id).home = (first.store id).home)
    (levels : ∀ owner level cls tier, (first.store id).home = .level owner level cls tier →
      (second.object owner).levels = (first.object owner).levels) (name : String) :
    second.offer? id name = first.offer? id name := by
  unfold offer?
  rw [home]
  split
  · rfl
  · next owner level cls tier sits =>
      have bound : second.boundLevel owner level = first.boundLevel owner level := by
        funext function
        unfold boundLevel levelOf?
        rw [levels owner level cls tier sits]
        simp only [same.hash]
      have function : second.levelFunction? cls tier name = first.levelFunction? cls tier name := by
        let question := ClassDef.acceptedFunction? name fun function => function.access = tier
        simp only [levelFunction?]
        split
        · exact same.ask question (fun _ => rfl) cls
        · exact same.nearest? question (fun _ => rfl) cls
      rw [bound, function]
  · unfold World.function?
    rw [functions]

/-! ## The levels of a new instance -/

/-- The level that is laid out next for a class. -/
def nextLevel (world : World) (id : ClassId) : Level where
  cls := id
  reference := world.references.next
  globals := world.stores.next
  internals := ⟨world.stores.size + 1⟩
  locals := ⟨world.stores.size + 2⟩

/-- The state with the parts of one more level of an instance. -/
def addLevel (world : World) (owner : InstanceId) (place : Nat) (id : ClassId) : World :=
  { world with
    references :=
      world.references.push ⟨(world.cls id).name, (world.cls id).described, some owner, none⟩
    stores := ((world.stores.push (.empty (.level owner place id .global))).push
      (.empty (.level owner place id .internal))).push (.empty (.level owner place id .localOnly)) }

/-- The levels of an instance for the rest of its chain, and the state with all their parts. -/
def lay (owner : InstanceId) : World → Nat → List ClassId → List Level × World
  | world, _, [] => ([], world)
  | world, place, id :: rest =>
      let (levels, after) := (world.addLevel owner place id).lay owner (place + 1) rest
      (world.nextLevel id :: levels, after)

/-- A new instance before anything was declared on it. -/
def freshInstance (id : ClassId) (levels : List Level) : Instance :=
  ⟨id, levels, [], false, none, true, []⟩

/-- The state with a new instance of a class. -/
def allocate (world : World) (id : ClassId) : World :=
  let (levels, after) := world.lay world.instances.next 0 (world.ancestors id)
  { after with instances := after.instances.push (freshInstance id levels) }

end World

/-! ## Single changes -/

/-- One change of the state that a run can make. -/
inductive Change (may : String → Prop) (opened : InstanceId → Prop) (world : World) : World → Prop
  | table (table : Table) :
      Change may opened world { world with tables := world.tables.push table }
  | setTable (id : TableId) (update : Table → Table) :
      Change may opened world (world.withTable id update)
  | host (object : HostObject) :
      Change may opened world { world with hosts := world.hosts.push object }
  | setHost (id : HostId) (object : HostObject)
      (same : object.type = (world.hosts.get id).type) :
      Change may opened world (world.withHost id object)
  | context (limit : Option Nat) :
      Change may opened world { world with contexts := world.contexts.push (.fresh limit) }
  | touch (reference : ClassRefId) :
      Change may opened world (world.touchRef reference)
  | metaTable (id : ClassId) (missing : (world.cls id).metaTable = none) :
      Change may opened world
        (world.withClass id fun cls => { cls with metaTable := some (world.buildMetaTable id) })
  | placeholder (className : String) :
      Change may opened world
        { world with callables := world.callables.push (.placeholder className) }
  | callable (store : StoreId) (name : String) (function : Function) (receiver : Option Receiver)
      (offered : world.offer? store name = some (function, receiver)) :
      Change may opened world
        { world with callables := world.callables.push (.ofFunction function receiver) }
  | install (store : StoreId) (callable : CallableId) (function : Function)
      (receiver : Option Receiver)
      (made : world.callables.get? callable = some (.ofFunction function receiver))
      (offered : world.offer? store function.name = some (function, receiver))
      (free : (world.store store).declares function.name = false) :
      Change may opened world
        (world.withStore store (·.insert function.name (.function callable)))
  | declare (store : StoreId) (name : String) (type : ValueType) (permitted : may name)
      (free : (world.store store).declares name = false) :
      Change may opened world (world.withStore store (·.insert name (.unassigned type)))
  | field (owner : InstanceId) (place : Nat) (level : Level) (field : Field)
      (isOpen : opened owner) (sits : world.level? owner place = some level)
      (declared : field ∈ (world.cls level.cls).fields)
      (free : (world.store (level.declarations field.access)).declares field.name = false) :
      Change may opened world
        (world.withStore (level.declarations field.access)
          (·.insert field.name (fieldSlot field level.reference)))
  | write (store : StoreId) (name : String) (slot : Slot) (value : Value)
      (found : (world.store store).slot? name = some slot) (isMutable : slot.immutable = false)
      (accepted : world.accepts slot.type value = true) :
      Change may opened world
        (world.withStore store (·.modify name (·.write (slot.type.widen value))))
  | annotate (store : StoreId) (name : String) (annotations : List InstanceId) :
      Change may opened world
        (world.withStore store
          (·.modify name fun slot => { slot with annotations := annotations }))
  | bindFallback (reference : ReferenceId) (host : HostId)
      (unbound : (world.references.get reference).bound = none)
      (described : (world.references.get reference).described.all
        (· = (world.hosts.get host).type) = true) :
      Change may opened world (world.bindReference reference host)
  | bindLevel (id : InstanceId) (place : Nat) (level : Level) (host : HostId)
      (sits : world.level? id place = some level) :
      Change may opened world (world.bindReference level.reference host)
  | adopt (id : InstanceId) (host : HostId) :
      Change may opened world (world.adoptHost id host)
  | allocate (id : ClassId) :
      Change may opened world (world.allocate id)
  | openView (id : InstanceId) (view : Viewpoint) (alive : world.alive = true) :
      Change may opened world
        (world.withObject id fun object => { object with opened := view :: object.opened })
  | attach (id : InstanceId) (created : List InstanceId) :
      Change may opened world
        (world.withObject id fun object =>
          { object with annotations := object.annotations ++ created })
  | mark (id : InstanceId) :
      Change may opened world (world.withObject id fun object => { object with initialized := true })
  | save (name : String) (value : Value) :
      Change may opened world (world.bind name (.value value))
  | record (snapshot : Snapshot) :
      Change may opened world (world.record snapshot)

/-! ## Runs of changes -/

/-- The state leads to another through changes, frames that are popped again, and slots of
functions that are withdrawn again. -/
inductive Evolves (may : String → Prop) (opened : InstanceId → Prop) : World → World → Prop
  | refl (world : World) : Evolves may opened world world
  | change {first second third : World} (before : Evolves may opened first second)
      (change : Change may opened second third) : Evolves may opened first third
  | framed {first second third : World} (context : ContextId) (frame : Frame) (deeper : Context)
      (before : Evolves may opened first second)
      (pushed : (second.context context).push? frame = .ok deeper)
      (inside : Evolves may opened (second.withContext context fun _ => deeper) third) :
      Evolves may opened first
        (third.withContext context (·.truncate (second.context context).depth))
  | withdrawn {first second third : World} (store : StoreId) (callable : CallableId)
      (function : Function) (receiver : Option Receiver)
      (before : Evolves may opened first second)
      (made : second.callables.get? callable = some (.ofFunction function receiver))
      (offered : second.offer? store function.name = some (function, receiver))
      (free : (second.store store).declares function.name = false)
      (annotated : function.annotations ≠ [])
      (inside : Evolves may opened
        (second.withStore store (·.insert function.name (.function callable))) third) :
      Evolves may opened first (third.withStore store (·.erase function.name))

namespace Evolves

variable {may : String → Prop} {opened : InstanceId → Prop} {first second third : World}

theorem single (change : Change may opened first second) : Evolves may opened first second :=
  .change (.refl first) change

theorem trans (before : Evolves may opened first second) (after : Evolves may opened second third) :
    Evolves may opened first third := by
  induction after with
  | refl => exact before
  | change _ last ih => exact .change (ih before) last
  | framed context frame deeper _ pushed inside ih _ =>
      exact .framed context frame deeper (ih before) pushed inside
  | withdrawn store callable function receiver _ made offered free annotated inside ih _ =>
      exact .withdrawn store callable function receiver (ih before) made offered free annotated
        inside

/-- What single changes, frames and withdrawals keep is kept by every run. -/
theorem lift {motive : World → World → Prop} (refl : ∀ world, motive world world)
    (trans : ∀ {first second third}, motive first second → motive second third → motive first third)
    (change : ∀ {first second}, Change may opened first second → motive first second)
    (framed : ∀ {second third : World} {context : ContextId} {frame : Frame} {deeper : Context},
      (second.context context).push? frame = .ok deeper →
      motive (second.withContext context fun _ => deeper) third →
      motive second (third.withContext context (·.truncate (second.context context).depth)))
    (withdrawn : ∀ {second third : World} {store : StoreId} {callable : CallableId}
      {function : Function} {receiver : Option Receiver},
      second.callables.get? callable = some (.ofFunction function receiver) →
      second.offer? store function.name = some (function, receiver) →
      (second.store store).declares function.name = false →
      motive (second.withStore store (·.insert function.name (.function callable))) third →
      motive second (third.withStore store (·.erase function.name)))
    (evolves : Evolves may opened first second) : motive first second := by
  induction evolves with
  | refl world => exact refl world
  | change _ last ih => exact trans ih (change last)
  | framed context frame deeper _ pushed _ ih inside => exact trans ih (framed pushed inside)
  | withdrawn store callable function receiver _ made offered free _ _ ih inside =>
      exact trans ih (withdrawn made offered free inside)

end Evolves

end ScriptObjects

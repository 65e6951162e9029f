import ScriptObjects.Proofs.SparingRequests

/-!
# Constructions with a record

The construction protocol is described once more, with a record of the moments at which it
evaluates something or asks for something to be looked up.  Every part of the protocol that can
reach a body (an initializer, an argument, a function, the construction of another instance)
stands under a moment; the other parts are not given any way to perform requests.  Apart from the
record, the description is the protocol itself.
-/

namespace ScriptObjects

set_option autoImplicit false

open Exec

/-- What the construction of an instance does in order to evaluate bodies. -/
inductive Moment where
  /-- An argument of an annotation on a target is evaluated, for the level at a place. -/
  | argument (place : Nat) (target : String) (expr : Expr)
  /-- The instance of an annotation on a target is made. -/
  | creation (place : Nat) (target : String) (use : AnnotationUse ClassRefId)
  /-- The initializer of a field is evaluated. -/
  | initializer (place : Nat) (field : Field)
  /-- The write hook of an annotation of a field is called; its annotations are counted from 0. -/
  | writeHook (place : Nat) (field : Field) (position : Nat)
  /-- The pre-construct hook of an annotation of the instance is called. -/
  | preHook (position : Nat)
  /-- The constructor is called. -/
  | constructor
  /-- The post-construct hook of an annotation of the instance is called. -/
  | postHook (position : Nat)
  /-- The function of a hook, or the constructor, is looked up. -/
  | lookup (scope : Scope) (name : String)
  /-- A field that seemed to be missing when it was written is looked for as a function. -/
  | retry (store : StoreId) (name : String)

/-- A body is evaluated; nothing is only looked up. -/
def Moment.evaluates : Moment → Bool
  | .lookup _ _ | .retry _ _ => false
  | _ => true

/-- A run with a record of the moments on the way, each with the state at the time. -/
def Traced (α : Type) : Type := World → List (Moment × World) × Outcome α × World

namespace Traced

variable {α β : Type}

/-- The run without the record. -/
def run (traced : Traced α) : Exec α := fun world => (traced world).2

/-- The record of a run. -/
def trace (traced : Traced α) (world : World) : List (Moment × World) := (traced world).1

/-- The bodies that a run evaluates, in order. -/
def bodies (traced : Traced α) (world : World) : List Moment :=
  ((traced.trace world).map Prod.fst).filter Moment.evaluates

/-! ## Composition -/

/-- A run with nothing to record. -/
def silent (run : Exec α) : Traced α := fun world => ([], run world)

/-- A run that takes place at one moment. -/
def moment (moment : Moment) (run : Exec α) : Traced α := fun world => ([(moment, world)], run world)

def andThen (first : Traced α) (next : α → Traced β) : Traced β := fun world =>
  match first world with
  | (trace, .done result, after) => (trace ++ (next result after).1, (next result after).2)
  | (trace, .failed fault, after) => (trace, .failed fault, after)
  | (trace, .exhausted, after) => (trace, .exhausted, after)

instance : Monad Traced where
  pure result := silent (pure result)
  bind := andThen

def wrapFault (wrap : Fault → Fault) (traced : Traced α) : Traced α := fun world =>
  (traced.trace world, Exec.wrapFault wrap traced.run world)

def recover (traced : Traced α) (handler : Fault → Traced α) : Traced α := fun world =>
  match traced world with
  | (trace, .failed fault, after) => (trace ++ (handler fault after).1, (handler fault after).2)
  | answer => answer

def withFrame (context : ContextId) (frame : Frame) (traced : Traced α) : Traced α := fun world =>
  (match (world.context context).push? frame with
    | .error _ => []
    | .ok deeper => traced.trace (world.withContext context fun _ => deeper),
    Exec.withFrame context frame traced.run world)

/-! ## Without the record -/

@[simp] theorem run_silent (run : Exec α) : (silent run).run = run := rfl

@[simp] theorem run_moment (at_ : Moment) (run : Exec α) : (moment at_ run).run = run := rfl

@[simp] theorem run_pure (result : α) : (pure result : Traced α).run = pure result := rfl

@[simp] theorem run_wrapFault (wrap : Fault → Fault) (traced : Traced α) :
    (wrapFault wrap traced).run = Exec.wrapFault wrap traced.run := rfl

@[simp] theorem run_withFrame (context : ContextId) (frame : Frame) (traced : Traced α) :
    (withFrame context frame traced).run = Exec.withFrame context frame traced.run := rfl

@[simp] theorem run_bind (first : Traced α) (next : α → Traced β) :
    (first >>= next).run = first.run >>= fun result => (next result).run := by
  funext world
  show (andThen first next world).2 = Exec.andThen first.run _ world
  unfold andThen Exec.andThen run
  rcases first world with ⟨trace, outcome, after⟩
  cases outcome <;> rfl

@[simp] theorem run_recover (traced : Traced α) (handler : Fault → Traced α) :
    (traced.recover handler).run = traced.run.recover fun fault => (handler fault).run := by
  funext world
  show (recover traced handler world).2 = _
  unfold recover Exec.recover run
  rcases traced world with ⟨trace, outcome, after⟩
  cases outcome <;> rfl

theorem run_ite (condition : Prop) [Decidable condition] (first second : Traced α) :
    (if condition then first else second).run = if condition then first.run else second.run := by
  split <;> rfl

end Traced

/-! ## Annotations -/

section

variable (perform : Perform)

/-- Evaluates the arguments of an annotation use, left to right. -/
def traceArguments (site : Invocation) (place : Nat) (target : String) :
    List Expr → Traced (List Value)
  | [] => return []
  | expr :: rest => do
      let value ← .moment (.argument place target expr) (evaluate perform (some site) expr)
      return value :: (← traceArguments site place target rest)

def traceUse (use : AnnotationUse ClassRefId) (target : String) (receiver : Receiver)
    (context : ContextId) : Traced InstanceId := do
  let world ← .silent get
  let name := (world.classRefs.get use.cls).name
  match ← .silent (Exec.resolveRef? use.cls) with
  | none => .silent (throw (.unknownClass name))
  | some id =>
      Traced.wrapFault (.attachment target name) do
        let args ←
          traceArguments perform ⟨context, some receiver, []⟩ receiver.level target use.args
        .moment (.creation receiver.level target use)
          (instantiate perform id ⟨CreateFlags.standard.insert .enforceCreation, some context⟩ args)

def traceUses (target : String) (receiver : Receiver) (context : ContextId) :
    List (AnnotationUse ClassRefId) → Traced (List InstanceId)
  | [] => return []
  | use :: rest => do
      let created ← traceUse perform use target receiver context
      return created :: (← traceUses target receiver context rest)

/-! ## Hooks -/

/-- The scope in which an instance declares its meta-function under a key; none when its class has
none. -/
def hookScope? (id : InstanceId) (key : MetaKey) : Exec (Option Scope) := do
  match ← Exec.metaLink? ((← get).object id).cls key with
  | none => return none
  | some link =>
      let level := ((← get).levelOf? id link.owner.hash).getD 0
      match ← openScope? id ⟨level, link.access, .declarations⟩ with
      | none => throw (.instanceDropped key.methodName)
      | some scope => return some scope

/-- Calls the meta-function of an instance under a key. -/
def traceHook (called : Moment) (context : ContextId) (id : InstanceId) (key : MetaKey)
    (args : List Value) : Traced (Option Value) := do
  match ← .silent (hookScope? id key) with
  | none => return none
  | some scope =>
      match ← .moment (.lookup scope key.methodName) (perform (.read scope key.methodName)) with
      | .function callable =>
          let result ← Traced.wrapFault (.hookFailed key)
            (.moment called (perform (.call callable args context)))
          return some (← .silent (castReturn key result))
      | other => .silent (do throw (.hookNotCallable key (← typeNameOf other)))

/-! ## Fields -/

/-- Routes a value that is written to a field through its hooks, counted from a position on. -/
def traceWriteHooks (place : Nat) (field : Field) (value : Value) (position : Nat) :
    List InstanceId → Traced Value
  | [] => return value
  | annotation :: rest => do
      match ← traceHook perform (.writeHook place field position) World.ownContext annotation
        .onWrite [.text field.name, value] with
      | some result => traceWriteHooks place field result (position + 1) rest
      | none => traceWriteHooks place field value (position + 1) rest

/-- Writes a field that has a slot. -/
def traceWriteSlot (place : Nat) (store : StoreId) (field : Field) (value : Value) :
    Traced Unit := do
  let world ← .silent get
  match (world.store store).slot? field.name with
  | none => .silent (throw (.lookup (.notDeclared field.name)))
  | some slot =>
      if slot.immutable then .silent (throw (.lookup (.immutableFunction field.name)))
      else if slot.annotations.isEmpty then .silent (storeValue store field.name slot value)
      else do
        .silent (requireStoreAssembly store)
        let value ← traceWriteHooks perform place field value 0 slot.annotations
        .silent (storeValue store field.name slot value)

/-- Writes a field, and goes on where the name seems to be missing. -/
def traceWrite (place : Nat) (store : StoreId) (field : Field) (value : Value) : Traced Unit :=
  (traceWriteSlot perform place store field value).recover fun fault =>
    if fault.isMiss field.name then do
      let found ← .moment (.retry store field.name) (materialize perform store field.name)
      .silent (throw (.lookup (if found then .immutableFunction field.name
        else .notDeclared field.name)))
    else .silent (throw fault)

/-- Assigns a field the value of its initializer; the hooks of the write perform requests one
level further down. -/
def traceInitializer (receiver : Receiver) (store : StoreId) (field : Field)
    (context : ContextId) : Traced Unit := do
  match field.storage with
  | .host _ | .script none => return
  | .script (some initializer) =>
      let world ← .silent get
      let fallback := (world.classOf receiver.owner).name
      let className := (field.owner.map Owner.name).getD fallback
      Traced.wrapFault (.initializer className field.name) do
        let value ← .moment (.initializer receiver.level field)
          (evaluate (step perform) (some ⟨context, some receiver, []⟩) initializer)
        traceWrite perform receiver.level store field value

def traceAnnotateField (className : String) (receiver : Receiver) (level : Level)
    (options : CreateOptions) (context : ContextId) (field : Field) : Traced Unit := do
  if options.has .createFieldAnnotations && !field.annotations.isEmpty then
    let created ← traceUses (step perform) (className ++ "." ++ field.name) receiver context
      field.annotations
    .silent ((annotateSlot (level.declarations field.access) field.name created).wrapFault
      (declarationFault className field.name))

def traceFillField (receiver : Receiver) (level : Level) (options : CreateOptions)
    (context : ContextId) (field : Field) : Traced Unit := do
  if options.has .assignScriptFields then
    traceInitializer perform receiver (level.declarations field.access) field context

def traceField (className : String) (receiver : Receiver) (level : Level)
    (options : CreateOptions) (context : ContextId) (field : Field) : Traced Unit := do
  if options.has field.flag then
    .silent (declareField className level field)
    traceAnnotateField perform className receiver level options context field
    traceFillField perform receiver level options context field

def traceFields (className : String) (receiver : Receiver) (level : Level)
    (options : CreateOptions) (context : ContextId) : List Field → Traced Unit
  | [] => return
  | field :: rest => do
      traceField perform className receiver level options context field
      traceFields className receiver level options context rest

/-! ## Levels -/

def traceAnnotateLevel (id : InstanceId) (options : CreateOptions) (context : ContextId)
    (place : Nat) (cls : ClassDef) : Traced Unit := do
  if options.has .createAnnotations && !cls.annotations.isEmpty then
    let created ← traceUses (step perform) cls.name ⟨id, place⟩ context cls.annotations
    .silent (Exec.change (·.withObject id fun object =>
      { object with annotations := object.annotations ++ created }))

def traceLevel (id : InstanceId) (options : CreateOptions) (context : ContextId) (place : Nat) :
    Traced Unit := do
  let world ← .silent get
  match world.level? id place with
  | none => return
  | some level => do
      traceAnnotateLevel perform id options context place (world.cls level.cls)
      traceFields perform (world.cls level.cls).name ⟨id, place⟩ level options context
        (world.cls level.cls).fields

def traceLevels (id : InstanceId) (options : CreateOptions) (context : ContextId) :
    Nat → Traced Unit
  | 0 => return
  | place + 1 => do
      traceLevel perform id options context place
      traceLevels id options context place

/-! ## Constructors -/

def traceResolveConstructor (id : InstanceId) : Traced CallableId := do
  let world ← .silent get
  let cls := (world.object id).cls
  match ← .silent (hookScope? id .construct) with
  | none => .silent do Exec.newCallable (.placeholder ((← get).cls cls).name)
  | some scope => do
      let value ← .moment (.lookup scope constructorName) (perform (.read scope constructorName))
      .silent (requireFunction value)

def tracePreConstruct (id : InstanceId) (context : ContextId) (args : List Value)
    (position : Nat) : List InstanceId → Traced (List Value)
  | [] => return args
  | attached :: rest => do
      let list ← .silent (Exec.newList args)
      let result ← traceHook perform (.preHook position) context attached .preConstruct
        [.object id, list]
      let world ← .silent get
      tracePreConstruct id context (replacedArgs world args result) (position + 1) rest

def tracePostConstruct (id : InstanceId) (context : ContextId) (args : List Value)
    (position : Nat) : List InstanceId → Traced Unit
  | [] => return
  | attached :: rest => do
      let list ← .silent (Exec.newList args)
      let _ ← traceHook perform (.postHook position) context attached .postConstruct
        [.object id, list]
      tracePostConstruct id context args (position + 1) rest

def traceCallConstructor (id : InstanceId) (args : List Value) (context : ContextId) :
    Traced Unit := do
  let callee ← traceResolveConstructor perform id
  let world ← .silent get
  let attached := (world.object id).annotations
  let phase := Frame.synthetic ((world.classOf id).name ++ "." ++ MetaKey.preConstruct.methodName)
  let args ← Traced.withFrame context phase (tracePreConstruct perform id context args 0 attached)
  let _ ← .moment .constructor (perform (.call callee args context))
  tracePostConstruct perform id context args 0 attached

/-- What follows the levels: the constructor, and the mark that the instance is initialized. -/
def traceFinish (id : InstanceId) (options : CreateOptions) (args : List Value)
    (className : String) (context : ContextId) : Traced Unit := do
  if options.has .callConstructor then
    Traced.wrapFault (.construction className) (traceCallConstructor (step perform) id args context)
  if options.has .markInitialized then
    .silent (Exec.change (·.withObject id fun object => { object with initialized := true }))

/-- The construction protocol with a record. -/
def traceConstruct (id : InstanceId) (options : CreateOptions) (args : List Value) :
    Traced Unit := do
  let world ← .silent get
  if (world.object id).initialized then
    .silent (throw (.alreadyInitialized (world.classOf id).name (World.instanceNumber id)))
  else do
    let context ← .silent (constructionContext options)
    traceLevels perform id options context (world.object id).levels.length
    traceFinish perform id options args (world.classOf id).name context

/-! ## Without the record -/

theorem run_traceArguments (site : Invocation) (place : Nat) (target : String)
    (exprs : List Expr) :
    (traceArguments perform site place target exprs).run = evaluateAll perform (some site) exprs := by
  induction exprs with
  | nil =>
      unfold evaluateAll
      rfl
  | cons expr rest ih =>
      unfold evaluateAll
      simp only [traceArguments, Traced.run_bind, Traced.run_moment, Traced.run_pure, ih]

theorem run_traceUse (use : AnnotationUse ClassRefId) (target : String) (receiver : Receiver)
    (context : ContextId) :
    (traceUse perform use target receiver context).run =
      createAnnotation perform use target (some receiver) context := by
  unfold traceUse createAnnotation
  simp only [Traced.run_bind, Traced.run_silent]
  refine bind_congr fun seen => bind_congr fun found => ?_
  cases found with
  | none => rfl
  | some id =>
      simp only [Traced.run_wrapFault, Traced.run_bind, Traced.run_moment, run_traceArguments]

theorem run_traceUses (target : String) (receiver : Receiver) (context : ContextId)
    (uses : List (AnnotationUse ClassRefId)) :
    (traceUses perform target receiver context uses).run =
      createAnnotations perform target (some receiver) context uses := by
  induction uses with
  | nil => rfl
  | cons use rest ih =>
      simp only [traceUses, createAnnotations, Traced.run_bind, Traced.run_pure, run_traceUse, ih]

theorem run_traceHook (called : Moment) (context : ContextId) (id : InstanceId) (key : MetaKey)
    (args : List Value) :
    (traceHook perform called context id key args).run = hook perform context id key args := by
  unfold traceHook hook hookScope?
  simp only [Traced.run_bind, Traced.run_silent, bind_assoc]
  refine bind_congr fun seen => bind_congr fun link => ?_
  cases link with
  | none => rfl
  | some link =>
      simp only [bind_assoc]
      refine bind_congr fun seen => bind_congr fun scope => ?_
      cases scope with
      | none => rfl
      | some scope =>
          simp only [pure_bind, Traced.run_bind, Traced.run_moment]
          refine bind_congr fun value => ?_
          cases value <;> simp only [Traced.run_bind, Traced.run_wrapFault, Traced.run_moment,
            Traced.run_silent, Traced.run_pure]

theorem run_traceWriteHooks (place : Nat) (field : Field) (value : Value) (position : Nat)
    (annotations : List InstanceId) :
    (traceWriteHooks perform place field value position annotations).run =
      intercept perform .onWrite field.name value annotations := by
  induction annotations generalizing value position with
  | nil => rfl
  | cons attached rest ih =>
      simp only [traceWriteHooks, intercept, Traced.run_bind, run_traceHook]
      refine bind_congr fun result => ?_
      cases result with
      | none => exact ih value _
      | some result => exact ih result _

theorem run_traceWriteSlot (place : Nat) (store : StoreId) (field : Field) (value : Value) :
    (traceWriteSlot perform place store field value).run =
      assignSlot perform store field.name value := by
  unfold traceWriteSlot
  rw [Traced.run_bind, Traced.run_silent]
  funext world
  rw [get_bind_apply]
  cases found : (world.store store).slot? field.name with
  | none => exact (assignSlot_of_missing perform value found).symm
  | some slot =>
      dsimp only
      cases held : slot.immutable with
      | true => exact (assignSlot_of_immutable perform value found held).symm
      | false =>
          rw [assignSlot_of_mutable perform value found held]
          unfold writeHooks
          cases plain : slot.annotations.isEmpty with
          | true => rfl
          | false =>
              simp only [Bool.false_eq_true, if_false, Traced.run_bind, Traced.run_silent,
                run_traceWriteHooks, bind_assoc]

theorem run_traceWrite (place : Nat) (store : StoreId) (field : Field) (value : Value) :
    (traceWrite perform place store field value).run =
      assignStore perform store field.name value := by
  unfold traceWrite assignStore orElseMissing
  rw [Traced.run_recover, run_traceWriteSlot]
  refine congrArg _ (funext fun fault => ?_)
  rw [Traced.run_ite]
  split
  · rw [Traced.run_bind, Traced.run_moment]
    refine bind_congr fun found => ?_
    cases found <;> rfl
  · rfl

theorem run_traceInitializer (receiver : Receiver) (store : StoreId) (field : Field)
    (context : ContextId) :
    (traceInitializer perform receiver store field context).run =
      initializeField (step perform) receiver store field context := by
  unfold traceInitializer initializeField
  obtain ⟨name, access, type, storage, annotations, owner⟩ := field
  cases storage with
  | host accessor => rfl
  | script initializer =>
      cases initializer with
      | none => rfl
      | some initializer =>
          simp only [Traced.run_bind, Traced.run_silent, Traced.run_wrapFault, Traced.run_moment,
            run_traceWrite]
          refine bind_congr fun seen => congrArg _ (bind_congr fun value => ?_)
          show _ = assignScope perform name value (.store store)
          unfold assignScope
          rfl

theorem run_traceAnnotateField (className : String) (receiver : Receiver) (level : Level)
    (options : CreateOptions) (context : ContextId) (field : Field) :
    (traceAnnotateField perform className receiver level options context field).run =
      annotateField (step perform) className receiver level options context field := by
  unfold traceAnnotateField annotateField
  split
  · simp only [Traced.run_bind, Traced.run_silent, run_traceUses]
  · rfl

theorem run_traceFillField (receiver : Receiver) (level : Level) (options : CreateOptions)
    (context : ContextId) (field : Field) :
    (traceFillField perform receiver level options context field).run =
      fillField (step perform) receiver level options context field := by
  unfold traceFillField fillField
  split
  · exact run_traceInitializer perform receiver _ field context
  · rfl

theorem run_traceField (className : String) (receiver : Receiver) (level : Level)
    (options : CreateOptions) (context : ContextId) (field : Field) :
    (traceField perform className receiver level options context field).run =
      constructField (step perform) className receiver level options context field := by
  unfold traceField
  cases wanted : options.has field.flag with
  | false =>
      rw [constructField_of_unwanted wanted]
      rfl
  | true =>
      rw [constructField_of_wanted wanted, if_pos rfl]
      simp only [Traced.run_bind, Traced.run_silent, run_traceAnnotateField, run_traceFillField]

theorem run_traceFields (className : String) (receiver : Receiver) (level : Level)
    (options : CreateOptions) (context : ContextId) (fields : List Field) :
    (traceFields perform className receiver level options context fields).run =
      constructFields (step perform) className receiver level options context fields := by
  induction fields with
  | nil => rfl
  | cons field rest ih =>
      simp only [traceFields, constructFields, Traced.run_bind, run_traceField, ih]

theorem run_traceAnnotateLevel (id : InstanceId) (options : CreateOptions) (context : ContextId)
    (place : Nat) (cls : ClassDef) :
    (traceAnnotateLevel perform id options context place cls).run =
      annotateLevel (step perform) id options context place cls := by
  unfold traceAnnotateLevel annotateLevel
  split
  · simp only [Traced.run_bind, Traced.run_silent, run_traceUses]
  · rfl

theorem run_traceLevel (id : InstanceId) (options : CreateOptions) (context : ContextId)
    (place : Nat) :
    (traceLevel perform id options context place).run =
      constructLevel (step perform) id options context place := by
  unfold traceLevel
  rw [Traced.run_bind, Traced.run_silent]
  funext world
  rw [get_bind_apply]
  cases sits : world.level? id place with
  | none => exact (constructLevel_of_none sits).symm
  | some level =>
      rw [constructLevel_of_some sits]
      simp only [Traced.run_bind, run_traceAnnotateLevel, run_traceFields]

theorem run_traceLevels (id : InstanceId) (options : CreateOptions) (context : ContextId)
    (count : Nat) :
    (traceLevels perform id options context count).run =
      constructLevels (step perform) id options context count := by
  induction count with
  | zero => rfl
  | succ count ih =>
      simp only [traceLevels, constructLevels, Traced.run_bind, run_traceLevel, ih]

theorem run_traceResolveConstructor (id : InstanceId) :
    (traceResolveConstructor perform id).run = resolveConstructor perform id := by
  unfold traceResolveConstructor resolveConstructor hookScope?
  simp only [Traced.run_bind, Traced.run_silent]
  funext world
  simp only [get_bind_apply, bind_assoc]
  refine congrFun (bind_congr fun link => ?_) world
  cases link with
  | none => rfl
  | some link =>
      simp only [bind_assoc]
      refine bind_congr fun seen => bind_congr fun scope => ?_
      cases scope with
      | none => rfl
      | some scope =>
          simp only [pure_bind, Traced.run_bind, Traced.run_moment, Traced.run_silent]

theorem run_tracePreConstruct (id : InstanceId) (context : ContextId) (args : List Value)
    (position : Nat) (attached : List InstanceId) :
    (tracePreConstruct perform id context args position attached).run =
      preConstruct perform id context args attached := by
  induction attached generalizing args position with
  | nil => rfl
  | cons first rest ih =>
      simp only [tracePreConstruct, preConstruct, Traced.run_bind, Traced.run_silent, run_traceHook,
        ih]

theorem run_tracePostConstruct (id : InstanceId) (context : ContextId) (args : List Value)
    (position : Nat) (attached : List InstanceId) :
    (tracePostConstruct perform id context args position attached).run =
      postConstruct perform id context args attached := by
  induction attached generalizing position with
  | nil => rfl
  | cons first rest ih =>
      simp only [tracePostConstruct, postConstruct, Traced.run_bind, Traced.run_silent,
        run_traceHook, ih]

theorem run_traceCallConstructor (id : InstanceId) (args : List Value) (context : ContextId) :
    (traceCallConstructor perform id args context).run =
      callConstructor perform id args context := by
  unfold traceCallConstructor callConstructor
  simp only [Traced.run_bind, Traced.run_silent, Traced.run_withFrame, Traced.run_moment,
    run_traceResolveConstructor, run_tracePreConstruct, run_tracePostConstruct]
  rfl

theorem run_traceFinish (id : InstanceId) (options : CreateOptions) (args : List Value)
    (className : String) (context : ContextId) :
    (traceFinish perform id options args className context).run =
      finishInstance (step perform) id options args className context := by
  unfold traceFinish finishInstance
  by_cases called : options.has .callConstructor = true
  · by_cases marked : options.has .markInitialized = true
    · simp only [if_pos called, if_pos marked, Traced.run_bind, Traced.run_wrapFault,
        Traced.run_silent, run_traceCallConstructor]
    · simp only [if_pos called, if_neg marked, Traced.run_bind, Traced.run_wrapFault,
        Traced.run_pure, run_traceCallConstructor]
  · by_cases marked : options.has .markInitialized = true
    · simp only [if_neg called, if_pos marked]
      rfl
    · simp only [if_neg called, if_neg marked]
      rfl

/-- The record leaves the construction as it is. -/
theorem run_traceConstruct (id : InstanceId) (options : CreateOptions) (args : List Value) :
    (traceConstruct perform id options args).run =
      constructInstance (step perform) id options args := by
  unfold traceConstruct
  rw [Traced.run_bind, Traced.run_silent]
  funext world
  rw [get_bind_apply, Traced.run_ite]
  cases initialized : (world.object id).initialized with
  | true => exact (constructInstance_of_initialized initialized).symm
  | false =>
      rw [constructInstance_of_new initialized]
      simp only [Bool.false_eq_true, if_false, Traced.run_bind, Traced.run_silent, run_traceLevels,
        run_traceFinish]

end

end ScriptObjects

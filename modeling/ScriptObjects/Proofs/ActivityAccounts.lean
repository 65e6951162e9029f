import ScriptObjects.Proofs.Accounts

/-!
# Accounts of the activities

Every activity that can come to evaluate a body has an account.  Three of them evaluate a body
themselves: a call, the initialization of a field and the creation of an annotation.  The others
only make requests, or take part in activities that do.
-/

namespace ScriptObjects

set_option autoImplicit false

open Exec

namespace Account

variable {allowed : Fault → Prop} {α β : Type}

/-- A silent run, then another one. -/
def after {run : Exec α} {next : Perform → α → Exec β}
    (second : ∀ result, Account allowed fun perform => next perform result) :
    Account allowed fun perform => run >>= next perform :=
  .bind (.silent run) second

/-- One of two runs, by a condition. -/
def either {condition : Prop} [decidable : Decidable condition] {part other : Perform → Exec α}
    (first : Account allowed part) (second : Account allowed other) :
    Account allowed fun perform => if condition then part perform else other perform :=
  match decidable with
  | .isTrue _ => first
  | .isFalse _ => second

/-- A requirement before a run. -/
def requiring {condition : Prop} [Decidable condition] {refusal : Exec β} {part : Perform → Exec α}
    (account : Account allowed part) :
    Account allowed fun perform =>
      if condition then part perform else refusal >>= fun _ => part perform :=
  either account (after fun _ => account)

/-- One of two runs: one where a value is an instance, and another one where it is anything else. -/
def ofObject {part : InstanceId → Perform → Exec α} {other : Perform → Exec α} (value : Value)
    (first : ∀ id, Account allowed (part id)) (second : Account allowed other) :
    Account allowed fun perform => match value with
      | .object id => part id perform
      | _ => other perform :=
  match value with
  | .object id => first id
  | .null | .bool _ | .int _ | .float _ | .text _ | .table _ | .function _ | .host _ => second

end Account

open Account

/-! ## Dispatch -/

def hookAccount (context : ContextId) (id : InstanceId) (key : MetaKey) (args : List Value) :
    Account Fault.Foreign fun perform => hook perform context id key args :=
  .after fun _ => .after fun
    | none => .silent _
    | some _ => .after fun _ => .after fun
      | none => .silent _
      | some scope => .bind (.request (.read scope key.methodName)) fun
        | .function callable =>
            .bind (.wrapFault (fun _ => rfl) (.request (.call callable args context))) fun _ =>
              .silent _
        | .null | .bool _ | .int _ | .float _ | .text _ | .table _ | .object _ | .host _ =>
            .silent _

def unaryHookAccount (context : ContextId) (key : MetaKey) (operand : Value) :
    Account Fault.Foreign fun perform => unaryHook perform context key operand :=
  ofObject operand (fun id => hookAccount context id key []) (.silent _)

def rightHookAccount (context : ContextId) (key : MetaKey) (left : Value) :
    (right : Value) → (fromLeft : Option Value) →
    Account Fault.Foreign fun perform => rightHook perform context key left right fromLeft
  | _, some result => .silent (pure (some result))
  | .object id, none => hookAccount context id key [left]
  | .null, none | .bool _, none | .int _, none | .float _, none | .text _, none | .table _, none
  | .function _, none | .host _, none => .silent (pure none)

def binaryHookAccount (context : ContextId) (key : MetaKey) (left right : Value) :
    Account Fault.Foreign fun perform => binaryHook perform context key left right :=
  ofObject left
    (fun id => .bind (hookAccount context id key [right]) (rightHookAccount context key left right))
    (rightHookAccount context key left right none)

def interceptAccount (key : MetaKey) (name : String) : (value : Value) →
    (annotations : List InstanceId) →
    Account Fault.Foreign fun perform => intercept perform key name value annotations
  | value, [] => .silent (pure value)
  | value, annotation :: rest =>
      .bind (hookAccount World.ownContext annotation key [.text name, value]) fun
        | some result => interceptAccount key name result rest
        | none => interceptAccount key name value rest

section

variable (context : ContextId)

def arithmeticAccount (key : MetaKey) (left right : Value) :
    Account Fault.Foreign fun perform => arithmetic perform context key left right :=
  .bind (binaryHookAccount context key left right) fun _ => .silent _

def negateAccount (operand : Value) :
    Account Fault.Foreign fun perform => negate perform context operand :=
  .bind (unaryHookAccount context .negate operand) fun _ => .silent _

def stringifyAccount (value : Value) :
    Account Fault.Foreign fun perform => stringify perform context value :=
  .bind (unaryHookAccount context .toText value) fun _ => .silent _

def concatAccount (left right : Value) :
    Account Fault.Foreign fun perform => concat perform context left right :=
  .bind (binaryHookAccount context .concat left right) fun
    | some _ => .silent _
    | none => .requiring <| .requiring <| .bind (stringifyAccount context left) fun _ =>
        .bind (stringifyAccount context right) fun _ => .silent _

def lengthOfAccount (value : Value) :
    Account Fault.Foreign fun perform => lengthOf perform context value :=
  .bind (unaryHookAccount context .length value) fun _ => .silent _

def equalsAccount (left right : Value) :
    Account Fault.Foreign fun perform => equals perform context left right :=
  .bind (binaryHookAccount context .equals left right) fun _ => .silent _

def lessAccount (left right : Value) :
    Account Fault.Foreign fun perform => less perform context left right :=
  .bind (binaryHookAccount context .less left right) fun _ => .silent _

def lessEqualAccount (left right : Value) :
    Account Fault.Foreign fun perform => lessEqual perform context left right :=
  .bind (binaryHookAccount context .lessEqual left right) fun _ => .silent _

def iterateAccount (value : Value) :
    Account Fault.Foreign fun perform => iterate perform context value :=
  .bind (unaryHookAccount context .iterate value) fun _ => .silent _

def callValueAccount (args : List Value) : (target : Value) →
    Account (fun _ => True) fun perform => callValue perform context target args
  | .function callable => .request (.call callable args context)
  | .object id => .bind (.anyway (hookAccount context id .call args)) fun _ => .silent _
  | .null | .bool _ | .int _ | .float _ | .text _ | .table _ | .host _ => .after fun _ => .silent _

end

def operateAccount (context : ContextId) (operator : Operator) (operands : List Value) :
    Account (fun _ => True) fun perform => operate perform context operator operands :=
  match operator with
  | .add | .subtract | .multiply | .divide | .remainder => .anyway (arithmeticAccount context _ _ _)
  | .negate => .anyway (negateAccount context _)
  | .concat => .anyway (concatAccount context _ _)
  | .stringify => .bind (.anyway (stringifyAccount context _)) fun _ => .silent _
  | .length => .bind (.anyway (lengthOfAccount context _)) fun _ => .silent _
  | .equals => .bind (.anyway (equalsAccount context _ _)) fun _ => .silent _
  | .less => .bind (.anyway (lessAccount context _ _)) fun _ => .silent _
  | .lessEqual => .bind (.anyway (lessEqualAccount context _ _)) fun _ => .silent _
  | .iterate => .bind (.anyway (iterateAccount context _)) fun _ => .silent _
  | .call => callValueAccount context _ _

/-! ## Instances and the host boundary -/

def instantiateAccount (id : ClassId) (options : CreateOptions) (args : List Value) :
    Account Fault.Foreign fun perform => instantiate perform id options args :=
  .after fun created => .bind (.request (.construct created options args)) fun _ => .silent _

def createInstanceAccount (className : String) (options : CreateOptions) (args : List Value) :
    Account Fault.Foreign fun perform => createInstance perform className options args :=
  .after fun world => match world.findClass? className with
    | some id => instantiateAccount id options args
    | none => .silent _

def wrapHostAccount (host : HostId) :
    Account Fault.Foreign fun perform => wrapHost perform host :=
  .after fun world => match world.classForHost? (world.hosts.get host).type with
    | some _ => .after fun created => .after fun _ =>
        .bind (.request (.construct created .wrapper [])) fun _ => .silent _
    | none => .silent _

/-- The account of taking back a host object, which may convert directly. -/
def takeBackAccount (type : ValueType) (host : HostId) : (direct : Option Value) →
    Account Fault.Foreign fun perform => do
      let value ← match direct with
        | some value => pure value
        | none => wrapHost perform host
      coerceBack type value
  | some value => .silent (coerceBack type value)
  | none => .bind (wrapHostAccount host) fun _ => .silent _

def fromHostAccount (type : ValueType) (host : HostId) :
    Account Fault.Foreign fun perform => fromHost perform type host :=
  .after fun object => .after fun _ => .either
    (match refusedCount? object with
      | some _ => .after fun _ => takeBackAccount type host object.directValue?
      | none => takeBackAccount type host object.directValue?)
    (takeBackAccount type host object.directValue?)

/-! ## Expressions -/

mutual

/-- The account of an expression.  What is raised in an expression that turns faults into values is
caught there. -/
def evaluateAccount (site : Option Invocation) : (expr : Expr) →
    Account (fun _ => True) fun perform => evaluate perform site expr
  | .null => .silent (pure Value.null)
  | .bool b => .silent (pure (Value.bool b))
  | .int i => .silent (pure (Value.int i))
  | .float f => .silent (pure (Value.float f))
  | .text s => .silent (pure (Value.text s))
  | .list items => .bind (evaluateAllAccount site items) fun _ => .silent _
  | .table entries => .bind (evaluateEntriesAccount site .empty entries) fun _ => .silent _
  | .host _ args => .bind (evaluateAllAccount site args) fun _ => .silent _
  | .var name => .silent (sessionValue name)
  | .bind _ value => .bind (evaluateAccount site value) fun _ => .silent _
  | .sequence steps => .bind (evaluateAllAccount site steps) fun _ => .silent _
  | .branch condition thenCase elseCase =>
      .bind (evaluateAccount site condition) fun _ =>
        .either (evaluateAccount site thenCase) (evaluateAccount site elseCase)
  | .log value => .bind (evaluateAccount site value) fun _ => .silent _
  | .index target key =>
      .bind (evaluateAccount site target) fun _ =>
        .bind (evaluateAccount site key) fun _ => .silent _
  | .setIndex target key value =>
      .bind (evaluateAccount site target) fun _ => .bind (evaluateAccount site key) fun _ =>
        .bind (evaluateAccount site value) fun _ => .silent _
  | .typeName value => .bind (evaluateAccount site value) fun _ => .silent _
  | .identical left right =>
      .bind (evaluateAccount site left) fun _ =>
        .bind (evaluateAccount site right) fun _ => .silent _
  | .member target _ name =>
      .bind (evaluateAccount site target) fun _ => .after fun _ => .after fun scope =>
        .anyway (.request (.read scope name))
  | .setMember target _ name value =>
      .bind (evaluateAccount site target) fun _ => .after fun _ => .after fun scope =>
        .bind (evaluateAccount site value) fun value =>
          .bind (.anyway (.request (.assign scope name value))) fun _ => .silent _
  | .throw message => .silent (throw (.script message))
  | .raiseHost message => .silent (throw (.hostException message))
  | .raiseType expected actual => .silent (throw (.typeMismatch expected actual))
  | .raiseNotDeclared name => .silent (throw (.lookup (.notDeclared name)))
  | .attempt value => .bind (.attempt (evaluateAccount site value)) fun _ => .silent _
  | .arg _ => .after fun _ => .silent _
  | .args => .after fun _ => .silent _
  | .argCount => .after fun _ => .silent _
  | .this => .after fun _ => .silent _
  | .level => .after fun _ => .silent _
  | .trace => .after fun _ => .silent _
  | .depth => .after fun _ => .silent _
  | .get name => .after fun _ => .after fun scope => .anyway (.request (.read scope name))
  | .set name value =>
      .after fun _ => .bind (evaluateAccount site value) fun value => .after fun scope =>
        .bind (.anyway (.request (.assign scope name value))) fun _ => .silent _
  | .baseGet name => .after fun _ => .after fun scope => .anyway (.request (.read scope name))
  | .baseSet name value =>
      .after fun _ => .bind (evaluateAccount site value) fun value => .after fun scope =>
        .bind (.anyway (.request (.assign scope name value))) fun _ => .silent _
  | .declare _ _ => .after fun _ => .silent _
  | .call name args =>
      .after fun call => .bind (evaluateAllAccount site args) fun args => .after fun scope =>
        .bind (.anyway (.request (.read scope name))) fun target =>
          callValueAccount call.context args target
  | .baseCall name args =>
      .after fun call => .bind (evaluateAllAccount site args) fun args => .after fun scope =>
        .bind (.anyway (.request (.read scope name))) fun target =>
          callValueAccount call.context args target
  | .create className args =>
      .after fun _ => .bind (evaluateAllAccount site args) fun args =>
        .bind (.anyway (createInstanceAccount className _ args)) fun _ => .silent _
  | .operate operator args =>
      .after fun call => .bind (evaluateAllAccount site args) fun operands =>
        operateAccount call.context operator operands

def evaluateAllAccount (site : Option Invocation) : (exprs : List Expr) →
    Account (fun _ => True) fun perform => evaluateAll perform site exprs
  | [] => .silent (pure [])
  | expr :: rest =>
      .bind (evaluateAccount site expr) fun _ =>
        .bind (evaluateAllAccount site rest) fun _ => .silent _

def evaluateEntriesAccount (site : Option Invocation) (table : Table) :
    (entries : List (Expr × Expr)) →
    Account (fun _ => True) fun perform => evaluateEntries perform site table entries
  | [] => .silent (pure table)
  | (key, value) :: rest =>
      .bind (evaluateAccount site key) fun _ => .bind (evaluateAccount site value) fun _ =>
        .after fun _ => evaluateEntriesAccount site _ rest

end

/-! ## Annotations -/

def createAnnotationAccount (use : AnnotationUse ClassRefId) (target : String)
    (receiver : Option Receiver) (context : ContextId) :
    Account Fault.Foreign fun perform => createAnnotation perform use target receiver context :=
  .after fun world => .after fun
    | none => .silent _
    | some id => .wrapFault (fun _ => rfl) <|
        .bind (.body (.arguments target (world.classRefs.get use.cls).name)
          (evaluateAllAccount (some ⟨context, receiver, []⟩) use.args)) fun args =>
        .anyway (instantiateAccount id _ args)

def createAnnotationsAccount (target : String) (receiver : Option Receiver) (context : ContextId) :
    (uses : List (AnnotationUse ClassRefId)) →
    Account Fault.Foreign fun perform => createAnnotations perform target receiver context uses
  | [] => .silent (pure [])
  | use :: rest => .bind (createAnnotationAccount use target receiver context) fun _ =>
      .bind (createAnnotationsAccount target receiver context rest) fun _ => .silent _

/-! ## Variables -/

/-- The account of the hooks that see a value when it is read. -/
def readHooksAccount (id : StoreId) (name : String) (annotations : List InstanceId)
    (value : Value) :
    Account Fault.Foreign fun perform => (do
      if annotations.isEmpty then return value
      requireStoreAssembly id
      intercept perform .onRead name value annotations : Exec Value) :=
  .either (.silent _) (.after fun _ => interceptAccount .onRead name value annotations)

def readSlotAccount (id : StoreId) (name : String) :
    Account Fault.Foreign fun perform => readSlot perform id name :=
  .after fun world => match (world.store id).slot? name with
    | none => .silent _
    | some ⟨_, .script (some value), annotations, _⟩ => readHooksAccount id name annotations value
    | some ⟨_, .script none, annotations, _⟩ => .after (readHooksAccount id name annotations)
    | some ⟨type, .host _ _, annotations, _⟩ =>
        .after fun _ => .after fun raw => .after fun _ => .bind (fromHostAccount type raw)
          (readHooksAccount id name annotations)

/-- The account of a write to a slot that is not immutable. -/
def writeSlotAccount (id : StoreId) (name : String) (value : Value) (slot : Slot) :
    Account Fault.Foreign fun perform => (do
      let value ←
        if slot.annotations.isEmpty then pure value
        else do
          requireStoreAssembly id
          intercept perform .onWrite name value slot.annotations
      storeValue id name slot value : Exec Unit) :=
  .either (.silent _) (.after fun _ =>
    .bind (interceptAccount .onWrite name value slot.annotations) fun _ => .silent _)

def assignSlotAccount (id : StoreId) (name : String) (value : Value) :
    Account Fault.Foreign fun perform => assignSlot perform id name value :=
  .after fun world => match (world.store id).slot? name with
    | none => .silent _
    | some slot => .either (.after fun _ => writeSlotAccount id name value slot)
        (writeSlotAccount id name value slot)

def installFunctionAccount (id : StoreId) (function : Function) (receiver : Option Receiver) :
    Account Fault.Foreign fun perform => installFunction perform id function receiver :=
  .after fun _ => .after fun _ => .either (.silent _) <| .after fun context =>
    .rethrow _ <|
      .bind (createAnnotationsAccount function.label receiver context function.annotations) fun _ =>
        .silent _

/-- The account of putting a function of the roots into a store, if there is one. -/
def installRootFunctionAccount (id : StoreId) : (offered : Option Function) →
    Account Fault.Foreign fun perform => (do
      match offered with
      | none => return false
      | some function =>
          installFunction perform id function none
          return true : Exec Bool)
  | none => .silent _
  | some function => .bind (installFunctionAccount id function none) fun _ => .silent _

def materializeAccount (id : StoreId) (name : String) :
    Account Fault.Foreign fun perform => materialize perform id name :=
  .after fun world => match (world.store id).home with
    | .free _ => .silent _
    | .level _ _ _ _ => .after fun _ => .after fun
      | none => .silent _
      | some function => .after fun _ => .requiring <|
          .bind (installFunctionAccount id function _) fun _ => .silent _
    | .root _ => .after fun _ => .after fun _ => installRootFunctionAccount id _

def readStoreAccount (id : StoreId) (name : String) :
    Account Fault.Foreign fun perform => readStore perform id name :=
  .orElseMissing name (readSlotAccount id name) <| .bind (materializeAccount id name) fun _ =>
    .either (readSlotAccount id name) (.silent _)

def assignStoreAccount (id : StoreId) (name : String) (value : Value) :
    Account Fault.Foreign fun perform => assignStore perform id name value :=
  .orElseMissing name (assignSlotAccount id name value) <|
    .bind (materializeAccount id name) fun _ => .silent _

mutual

def readScopeAccount (name : String) : (scope : Scope) →
    Account Fault.Foreign fun perform => readScope perform name scope
  | .store id => readStoreAccount id name
  | .composite sources => readSourcesAccount name sources

def readSourcesAccount (name : String) : (sources : List Scope) →
    Account Fault.Foreign fun perform => readSources perform name sources
  | [] => .silent (throw (.lookup (.notDeclared name)))
  | source :: rest =>
      .orElseMissing name (readScopeAccount name source) (readSourcesAccount name rest)

end

mutual

def assignScopeAccount (name : String) (value : Value) : (scope : Scope) →
    Account Fault.Foreign fun perform => assignScope perform name value scope
  | .store id => assignStoreAccount id name value
  | .composite sources => assignSourcesAccount name value sources

def assignSourcesAccount (name : String) (value : Value) : (sources : List Scope) →
    Account Fault.Foreign fun perform => assignSources perform name value sources
  | [] => .silent (throw (.lookup (.notDeclared name)))
  | source :: rest =>
      .orElseMissing name (assignScopeAccount name value source)
        (assignSourcesAccount name value rest)

end

/-! ## Construction -/

def initializeFieldAccount (receiver : Receiver) (store : StoreId) (context : ContextId) :
    (field : Field) →
    Account Fault.Foreign fun perform => initializeField perform receiver store field context
  | ⟨_, _, _, .host _, _, _⟩ | ⟨_, _, _, .script none, _, _⟩ => .silent (pure ())
  | ⟨name, _, _, .script (some initializer), _, owner⟩ => .after fun world =>
      let className := (owner.map Owner.name).getD (world.classOf receiver.owner).name
      .wrapFault (fun _ => rfl) <|
        .bind (.body (.initializer className name)
          (evaluateAccount (some ⟨context, some receiver, []⟩) initializer)) fun value =>
        .anyway (.request (.assign (.store store) name value))

section

variable (className : String) (receiver : Receiver) (level : Level) (options : CreateOptions)
  (context : ContextId)

def fillFieldAccount (field : Field) :
    Account Fault.Foreign fun perform => fillField perform receiver level options context field :=
  .either (initializeFieldAccount receiver _ context field) (.silent _)

def constructFieldAccount (field : Field) :
    Account Fault.Foreign fun perform =>
      constructField perform className receiver level options context field :=
  .either (.after fun _ => .either
    (.bind (createAnnotationsAccount _ (some receiver) context field.annotations) fun _ =>
      .after fun _ => fillFieldAccount receiver level options context field)
    (fillFieldAccount receiver level options context field)) (.silent _)

def constructFieldsAccount : (fields : List Field) →
    Account Fault.Foreign fun perform =>
      constructFields perform className receiver level options context fields
  | [] => .silent (pure ())
  | field :: rest => .bind (constructFieldAccount className receiver level options context field)
      fun _ => constructFieldsAccount rest

end

section

variable (id : InstanceId) (options : CreateOptions) (context : ContextId)

def constructLevelAccount (place : Nat) :
    Account Fault.Foreign fun perform => constructLevel perform id options context place :=
  .after fun world => match world.level? id place with
    | none => .silent _
    | some level => .after fun world =>
        let cls := world.cls level.cls
        let fields := constructFieldsAccount cls.name ⟨id, place⟩ level options context cls.fields
        let created := createAnnotationsAccount cls.name (some ⟨id, place⟩) context cls.annotations
        .either (.bind created fun _ => .after fun _ => fields) fields

def constructLevelsAccount : (count : Nat) →
    Account Fault.Foreign fun perform => constructLevels perform id options context count
  | 0 => .silent (pure ())
  | place + 1 => .bind (constructLevelAccount id options context place) fun _ =>
      constructLevelsAccount place

end

def resolveConstructorAccount (id : InstanceId) :
    Account Fault.Foreign fun perform => resolveConstructor perform id :=
  .after fun _ => .after fun
    | none => .after fun _ => .silent _
    | some _ => .after fun _ => .after fun
      | none => .silent _
      | some scope => .bind (.request (.read scope constructorName)) fun _ => .silent _

section

variable (id : InstanceId) (context : ContextId)

def preConstructAccount : (args : List Value) → (annotations : List InstanceId) →
    Account Fault.Foreign fun perform => preConstruct perform id context args annotations
  | args, [] => .silent (pure args)
  | _, annotation :: rest => .after fun list =>
      .bind (hookAccount context annotation .preConstruct [.object id, list]) fun _ =>
        .after fun _ => preConstructAccount _ rest

def postConstructAccount (args : List Value) : (annotations : List InstanceId) →
    Account Fault.Foreign fun perform => postConstruct perform id context args annotations
  | [] => .silent (pure ())
  | annotation :: rest => .after fun list =>
      .bind (hookAccount context annotation .postConstruct [.object id, list]) fun _ =>
        postConstructAccount args rest

def callConstructorAccount (args : List Value) :
    Account (fun _ => True) fun perform => callConstructor perform id args context :=
  .bind (.anyway (resolveConstructorAccount id)) fun constructor => .after fun _ => .after fun _ =>
    .bind (.withFrame context _ (.anyway (preConstructAccount id context args _))) fun args =>
      .bind (.request (.call constructor args context)) fun _ =>
        .anyway (postConstructAccount id context args _)

end

/-- The account of what follows the levels. -/
def finishInstanceAccount (id : InstanceId) (options : CreateOptions) (args : List Value)
    (className : String) (context : ContextId) :
    Account Fault.Foreign fun perform => finishInstance perform id options args className context :=
  let calling := .wrapFault (fun _ => rfl) (callConstructorAccount id context args)
  .either (.bind calling fun _ => .silent _) (.silent _)

def constructInstanceAccount (id : InstanceId) (options : CreateOptions) (args : List Value) :
    Account Fault.Foreign fun perform => constructInstance perform id options args :=
  .after fun world => .after fun _ =>
    let count := (world.object id).levels.length
    let following (context : ContextId) :=
      Account.bind (constructLevelsAccount id options context count) fun _ =>
        finishInstanceAccount id options args _ context
    let building := match options.context with
      | some context => .bind (.silent (pure context)) following
      | none => .after following
    .either (.after fun _ => building) building

/-! ## Calls -/

def forwardToBaseAccount (receiver : Receiver) (args : List Value) (context : ContextId) :
    Account (fun _ => True) fun perform => forwardToBase perform receiver args context :=
  .after fun world => match world.level? receiver.owner (receiver.level + 1) with
    | none => .silent _
    | some _ => .after fun
      | none => .silent _
      | some _ => .after fun _ => .after fun
        | none => .silent _
        | some scope => .bind (.anyway (.request (.read scope constructorName))) fun _ =>
            .after fun constructor => .request (.call constructor args context)

def runBodyAccount (callable : Callable) (args : List Value) (context : ContextId) :
    (body : FunctionBody) →
    Account (fun _ => True) fun perform => runBody perform callable body args context
  | .script expr => .after fun receiver => evaluateAccount (some ⟨context, receiver, args⟩) expr
  | .hostMethod method => .after fun _ => .after fun _ => .after fun _ => .after fun host =>
      .anyway (fromHostAccount method.returns host)
  | .hostConstructor _ => .after fun _ => .silent _
  | .passThrough => .after fun receiver => forwardToBaseAccount receiver args context
  | .abstract => .silent (throw (.abstractCall callable.label))

def callFunctionAccount (id : CallableId) (args : List Value) (context : ContextId) :
    Account (fun _ => True) fun perform => callFunction perform id args context :=
  .after fun _ => .after fun world =>
    let callable := world.callables.get id
    .withFrame context callable.frame <| match callable.function with
      | none => .silent _
      | some function =>
          let running := runBodyAccount callable args context function.body
          .bind (.body (.function callable.label) running) fun _ => .silent _

end ScriptObjects

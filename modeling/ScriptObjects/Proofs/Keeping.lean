import ScriptObjects.Proofs.Custody

/-!
# Every run keeps what is in custody

The activities in the order of the model, each for requests that keep what is in custody.  Where a
custody makes an exception, a write is taken on to stores that may be written, and a host constructor
is called for a level that may be bound.  What else happens there is what the machine bars.
-/

namespace ScriptObjects

set_option autoImplicit false

open Exec World

/-- What requests do keeps what is in custody. -/
def Perform.Keeping (custody : Custody) (perform : Perform) : Prop :=
  ∀ request, Exec.Keeping custody (perform request)

namespace Custody

variable (custody : Custody)

/-- The function value is no host constructor of a level that may not be bound. -/
def MayCall (world : World) (id : CallableId) : Prop :=
  ∀ function constructor receiver, (world.callables.get id).function = some function →
    function.body = .hostConstructor constructor →
    (world.callables.get id).receiver = some receiver → custody.mayBind receiver

/-- The request, where it is made, is none of the exceptions. -/
def Permits (inquiry : Inquiry) : Prop :=
  match inquiry.request with
  | .call callable _ _ => custody.MayCall inquiry.world callable
  | .assign scope label _ => ∀ id ∈ scope.stores, custody.mayWrite id label
  | .read .. | .construct .. => True

end Custody

section

variable {custody : Custody} {perform : Perform}
  (nested : perform.Keeping custody)
include nested

/-! ## Instances and hooks -/

theorem instantiate_keeping (id : ClassId) (options : CreateOptions) (args : List Value) :
    Keeping custody (instantiate perform id options args) :=
  .bind (newInstance_keeping id options) fun _ => .bind (nested _) fun _ => .pure _

theorem createInstance_keeping (className : String) (options : CreateOptions)
    (args : List Value) : Keeping custody (createInstance perform className options args) := by
  refine .of_get fun seen => ?_
  split
  · exact instantiate_keeping nested _ options args
  · exact .throw _

theorem hook_keeping (context : ContextId) (id : InstanceId) (key : MetaKey)
    (args : List Value) : Keeping custody (hook perform context id key args) := by
  refine .of_get fun seen => .bind (.still (metaLink?_still _ key)) fun link => ?_
  cases link with
  | none => exact .pure _
  | some link =>
      refine .of_get fun seen => .bind (openScope?_keeping id _) fun scope => ?_
      cases scope with
      | none => exact .throw _
      | some scope =>
          refine .bind (nested (.read scope _)) fun value => ?_
          split
          · refine .bind (.wrapFault (nested (.call _ args context))) fun result => ?_
            exact .bind (.still (castReturn_still key result)) fun _ => .pure _
          · exact .bind (.ask _) fun _ => .throw _

theorem binaryHook_keeping (context : ContextId) (key : MetaKey) (left right : Value) :
    Keeping custody (binaryHook perform context key left right) := by
  have second : ∀ fromLeft : Option Value,
      Keeping custody (rightHook perform context key left right fromLeft) := by
    intro fromLeft
    unfold rightHook
    split
    · exact .pure _
    · exact hook_keeping nested context _ key _
    · exact .pure _
  unfold binaryHook
  split
  · exact .bind (hook_keeping nested context _ key _) second
  · exact .bind (.pure _) second

theorem unaryHook_keeping (context : ContextId) (key : MetaKey) (operand : Value) :
    Keeping custody (unaryHook perform context key operand) := by
  unfold unaryHook
  split
  · exact hook_keeping nested context _ key _
  · exact .pure _

theorem intercept_keeping (key : MetaKey) (label : String) (value : Value)
    (annotations : List InstanceId) :
    Keeping custody (intercept perform key label value annotations) := by
  induction annotations generalizing value with
  | nil => exact .pure _
  | cons annotation rest ih =>
      refine .bind (hook_keeping nested _ annotation key _) fun result => ?_
      cases result with
      | none => exact ih value
      | some result => exact ih result

/-! ## Operators -/

omit nested in
/-- What comes after a hook of an operand matters only where there is none. -/
theorem hooked_keeping {α : Type} {asked : Exec (Option Value)}
    {otherwise : Option Value → Exec α} (first : Keeping custody asked)
    (hooked : ∀ result, Keeping custody (otherwise (some result)))
    (bare : Keeping custody (otherwise none)) :
    Keeping custody (asked >>= otherwise) :=
  .bind first fun result => match result with
    | some result => hooked result
    | none => bare

theorem stringify_keeping (context : ContextId) (value : Value) :
    Keeping custody (stringify perform context value) :=
  hooked_keeping (unaryHook_keeping nested context _ value) (fun _ => .pure _)
    (.of_get fun _ => .pure _)

theorem concat_keeping (context : ContextId) (left right : Value) :
    Keeping custody (concat perform context left right) := by
  have joined : Keeping custody (do
      let first ← stringify perform context left
      let second ← stringify perform context right
      return Value.text (first ++ second)) :=
    .bind (stringify_keeping nested context left) fun _ =>
      .bind (stringify_keeping nested context right) fun _ => .pure _
  have checked : ∀ (operand : Value) (next : Exec Value), Keeping custody next →
      Keeping custody (do
        unless joinable operand do
          unsupportedOperand MetaKey.concat operand
        next) := by
    intro operand next keeps
    split
    · exact keeps
    · exact .bind (.still (unsupportedOperand_still _ _)) fun _ => keeps
  exact hooked_keeping (binaryHook_keeping nested context _ left right) (fun _ => .pure _)
    (checked left _ (checked right _ joined))

theorem negate_keeping (context : ContextId) (operand : Value) :
    Keeping custody (negate perform context operand) := by
  refine hooked_keeping (unaryHook_keeping nested context _ operand) (fun _ => .pure _) ?_
  dsimp only
  split
  · exact .bind (.still (ofExcept_still _)) fun _ => .pure _
  · exact .pure _
  · exact .still (unsupportedOperand_still _ _)

theorem lengthOf_keeping (context : ContextId) (value : Value) :
    Keeping custody (lengthOf perform context value) := by
  refine hooked_keeping (unaryHook_keeping nested context _ value) (fun _ => .pure _) ?_
  dsimp only
  split
  · exact .pure _
  · exact .of_get fun _ => .pure _
  · exact .still (unsupportedOperand_still _ _)

theorem iterate_keeping (context : ContextId) (value : Value) :
    Keeping custody (iterate perform context value) := by
  refine .bind (unaryHook_keeping nested context _ value) fun result => ?_
  split
  · exact .of_get fun _ => .pure _
  · exact .bind (.ask _) fun _ => .throw _
  · split
    · exact .of_get fun _ => .pure _
    · exact .still (unsupportedOperand_still _ _)

theorem callValue_keeping (context : ContextId) (target : Value) (args : List Value) :
    Keeping custody (callValue perform context target args) := by
  unfold callValue
  split
  · exact nested (.call _ args context)
  · exact hooked_keeping (hook_keeping nested context _ _ args) (fun _ => .pure _)
      (.bind (.ask _) fun _ => .throw _)
  · exact .bind (.ask _) fun _ => .throw _

theorem operate_keeping (context : ContextId) (operator : Operator) (operands : List Value) :
    Keeping custody (operate perform context operator operands) := by
  have arithmetics : ∀ key left right,
      Keeping custody (arithmetic perform context key left right) := fun key left right =>
    hooked_keeping (binaryHook_keeping nested context key left right) (fun _ => .pure _)
      (.still (primitiveArithmetic_still _ _ _))
  have compares : ∀ {key left right} {otherwise : Option Value → Exec Bool} (judge : Ordering → Bool),
      (∀ result, Keeping custody (otherwise (some result))) →
      otherwise none = (return judge (← primitiveOrder key left right)) →
        Keeping custody (binaryHook perform context key left right >>= otherwise) := by
    intro key left right otherwise judge hooked bare
    refine hooked_keeping (binaryHook_keeping nested context key left right) hooked ?_
    rw [bare]
    exact .bind (.still (primitiveOrder_still _ _ _)) fun _ => .pure _
  cases operator with
  | add | subtract | multiply | divide | remainder => exact arithmetics _ _ _
  | negate => exact negate_keeping nested context _
  | concat => exact concat_keeping nested context _ _
  | stringify => exact .bind (stringify_keeping nested context _) fun _ => .pure _
  | length => exact .bind (lengthOf_keeping nested context _) fun _ => .pure _
  | equals =>
      refine .bind (hooked_keeping (binaryHook_keeping nested context _ _ _) ?_ ?_)
        fun _ => .pure _
      · exact fun _ => .pure _
      · exact .pure _
  | less => exact .bind (compares _ (fun _ => .pure _) rfl) fun _ => .pure _
  | lessEqual => exact .bind (compares _ (fun _ => .pure _) rfl) fun _ => .pure _
  | iterate => exact .bind (iterate_keeping nested context _) fun _ => .still (newList_still _)
  | call => exact callValue_keeping nested context _ _

end

/-! ## Evaluation -/

mutual

theorem evaluate_keeping {custody : Custody} {perform : Perform}
    (nested : perform.Keeping custody) (site : Option Invocation) :
    (expr : Expr) → Keeping custody (evaluate perform site expr)
  | .null | .bool _ | .int _ | .float _ | .text _ => by
      unfold evaluate
      exact .pure _
  | .list items => by
      unfold evaluate
      exact .bind (evaluateAll_keeping nested site items) fun _ => .still (newList_still _)
  | .table entries => by
      unfold evaluate
      refine .bind (evaluateEntries_keeping nested site .empty entries) fun _ => ?_
      exact .bind (.still fun _ => {}) fun _ => .pure _
  | .host type args => by
      unfold evaluate
      exact .bind (evaluateAll_keeping nested site args) fun _ => .still (makeHost_still type _)
  | .var label => by
      unfold evaluate
      exact .still (sessionValue_still label)
  | .bind _ value | .log value => by
      unfold evaluate
      refine .bind (evaluate_keeping nested site value) fun result => ?_
      exact .bind (.still fun _ => {}) fun _ => .pure _
  | .sequence steps => by
      unfold evaluate
      exact .bind (evaluateAll_keeping nested site steps) fun _ => .pure _
  | .branch condition thenCase elseCase => by
      unfold evaluate
      refine .bind (evaluate_keeping nested site condition) fun result => ?_
      split
      · exact evaluate_keeping nested site thenCase
      · exact evaluate_keeping nested site elseCase
  | .index target key => by
      unfold evaluate
      refine .bind (evaluate_keeping nested site target) fun _ => ?_
      refine .bind (evaluate_keeping nested site key) fun _ => ?_
      exact .bind (.still (requireEntry_still _ _)) fun _ => .of_get fun _ => .pure _
  | .setIndex target key value => by
      unfold evaluate
      refine .bind (evaluate_keeping nested site target) fun _ => ?_
      refine .bind (evaluate_keeping nested site key) fun _ => ?_
      refine .bind (evaluate_keeping nested site value) fun result => ?_
      refine .bind (.still (requireEntry_still _ _)) fun entry => ?_
      exact .bind (.still fun _ => {}) fun _ => .pure _
  | .typeName value => by
      unfold evaluate
      exact .bind (evaluate_keeping nested site value) fun _ => .bind (.ask _) fun _ => .pure _
  | .identical left right => by
      unfold evaluate
      refine .bind (evaluate_keeping nested site left) fun _ => ?_
      exact .bind (evaluate_keeping nested site right) fun _ => .pure _
  | .member target access label => by
      unfold evaluate
      refine .bind (evaluate_keeping nested site target) fun _ => ?_
      refine .bind (.still (requireObject_still _)) fun id => ?_
      exact .bind (memberScope_keeping id access) fun scope => nested (.read scope label)
  | .setMember target access label value => by
      unfold evaluate
      refine .bind (evaluate_keeping nested site target) fun _ => ?_
      refine .bind (.still (requireObject_still _)) fun id => ?_
      refine .bind (memberScope_keeping id access) fun scope => ?_
      refine .bind (evaluate_keeping nested site value) fun result => ?_
      exact .bind (nested (.assign scope label result)) fun _ => .pure _
  | .throw _ | .raiseHost _ | .raiseType _ _ | .raiseNotDeclared _ => by
      unfold evaluate
      exact .throw _
  | .attempt value => by
      unfold evaluate
      refine .bind (.attempt (evaluate_keeping nested site value)) fun result => ?_
      cases result <;> exact .still (newList_still _)
  | .arg _ | .argCount | .this | .level => by
      unfold evaluate
      exact .bind (.still (runningCall_still site)) fun _ => .pure _
  | .args => by
      unfold evaluate
      exact .bind (.still (runningCall_still site)) fun _ => .still (newList_still _)
  | .trace | .depth => by
      unfold evaluate
      exact .bind (.still (runningCall_still site)) fun _ => .of_get fun _ => .pure _
  | .get label | .baseGet label => by
      unfold evaluate
      refine .bind (.still (runningCall_still site)) fun call => ?_
      exact .bind (scopeIn_keeping call _) fun scope => nested (.read scope label)
  | .set label value | .baseSet label value => by
      unfold evaluate
      refine .bind (.still (runningCall_still site)) fun call => ?_
      refine .bind (evaluate_keeping nested site value) fun result => ?_
      refine .bind (scopeIn_keeping call _) fun scope => ?_
      exact .bind (nested (.assign scope label result)) fun _ => .pure _
  | .declare label type => by
      unfold evaluate
      refine .bind (.still (runningCall_still site)) fun call => ?_
      refine .bind (scopeIn_keeping call _) fun scope => ?_
      exact .bind (declare_keeping scope label _) fun _ => .pure _
  | .call label args | .baseCall label args => by
      unfold evaluate
      refine .bind (.still (runningCall_still site)) fun call => ?_
      refine .bind (evaluateAll_keeping nested site args) fun values => ?_
      refine .bind (scopeIn_keeping call _) fun scope => ?_
      exact .bind (nested (.read scope label)) fun target =>
        callValue_keeping nested _ target values
  | .create className args => by
      unfold evaluate
      refine .bind (.still (runningCall_still site)) fun call => ?_
      refine .bind (evaluateAll_keeping nested site args) fun values => ?_
      exact .bind (createInstance_keeping nested className _ values) fun _ => .pure _
  | .operate operator args => by
      unfold evaluate
      refine .bind (.still (runningCall_still site)) fun call => ?_
      exact .bind (evaluateAll_keeping nested site args) fun values =>
        operate_keeping nested _ operator values

theorem evaluateAll_keeping {custody : Custody} {perform : Perform}
    (nested : perform.Keeping custody) (site : Option Invocation) :
    (exprs : List Expr) → Keeping custody (evaluateAll perform site exprs)
  | [] => by
      unfold evaluateAll
      exact .pure _
  | expr :: rest => by
      unfold evaluateAll
      refine .bind (evaluate_keeping nested site expr) fun _ => ?_
      exact .bind (evaluateAll_keeping nested site rest) fun _ => .pure _

theorem evaluateEntries_keeping {custody : Custody} {perform : Perform}
    (nested : perform.Keeping custody) (site : Option Invocation) (table : Table) :
    (entries : List (Expr × Expr)) →
    Keeping custody (evaluateEntries perform site table entries)
  | [] => by
      unfold evaluateEntries
      exact .pure _
  | (key, value) :: rest => by
      unfold evaluateEntries
      refine .bind (evaluate_keeping nested site key) fun _ => ?_
      refine .bind (evaluate_keeping nested site value) fun _ => ?_
      exact .bind (.still (requireKey_still _)) fun _ =>
        evaluateEntries_keeping nested site _ rest

end

section

variable {custody : Custody} {perform : Perform}
  (nested : perform.Keeping custody)
include nested

/-! ## The host boundary -/

theorem wrapHost_keeping {host : HostId} {world : World} (inside : host.index < world.hosts.size) :
    custody.keeps world (wrapHost perform host world).2 := by
  cases paired : world.classForHost? (world.hosts.get host).type with
  | none =>
      unfold wrapHost
      simp only [get_bind_apply, paired]
      exact custody.refl world
  | some id =>
      rw [wrapHost_of_paired perform paired]
      exact custody.trans (custody.wrapped inside paired)
        (Keeping.bind (nested _) (fun _ => .pure _) _)

omit nested in
/-- A host object that does not convert directly exists. -/
theorem inside_of_indirect {world : World} {host : HostId}
    (indirect : (world.hosts.get host).directValue? = none) : host.index < world.hosts.size := by
  apply Nat.lt_of_not_le
  intro beyond
  unfold Heap.get at indirect
  rw [Heap.get?_eq_none _ beyond] at indirect
  cases indirect

theorem fromHost_keeping (type : ValueType) (host : HostId) :
    Keeping custody (fromHost perform type host) := by
  have coerced : ∀ value, Keeping custody (coerceBack type value) := by
    intro value
    refine .bind (.still (coerce?_still type value)) fun result => ?_
    cases result with
    | some result => exact .pure _
    | none => exact .of_get fun _ => .throw _
  intro world
  have taken : custody.keeps world (takeBack perform type host (world.hosts.get host) world).2 := by
    unfold takeBack
    cases direct : (world.hosts.get host).directValue? with
    | some value => exact Keeping.bind (.pure _) coerced world
    | none =>
        exact Keeping.bind_at (wrapHost_keeping nested (inside_of_indirect direct))
          fun value after _ => coerced value after
  refine Keeping.bind_at (custody.refl world) fun object after ends => ?_
  cases ends
  rw [get_bind_apply]
  by_cases selective : world.marshaling = .selective
  · rw [if_pos selective]
    cases refusedCount? (world.hosts.get host) with
    | some name => exact custody.refl world
    | none => exact taken
  · rw [if_neg selective]
    exact taken

/-! ## Annotations -/

theorem createAnnotation_keeping (use : AnnotationUse ClassRefId) (target : String)
    (receiver : Option Receiver) (context : ContextId) :
    Keeping custody ( createAnnotation perform use target receiver context) := by
  refine .of_get fun seen => .bind (.still (resolveRef?_still use.cls)) fun found => ?_
  cases found with
  | none => exact .throw _
  | some id =>
      refine .wrapFault (.bind (evaluateAll_keeping nested _ use.args) fun args => ?_)
      exact instantiate_keeping nested id _ args

theorem createAnnotations_keeping (target : String) (receiver : Option Receiver)
    (context : ContextId) (uses : List (AnnotationUse ClassRefId)) :
    Keeping custody (createAnnotations perform target receiver context uses) := by
  induction uses with
  | nil => exact .pure _
  | cons use rest ih =>
      exact .bind (createAnnotation_keeping nested use target receiver context) fun _ =>
        .bind ih fun _ => .pure _

/-! ## Variables -/

theorem readSlot_keeping (id : StoreId) (label : String) :
    Keeping custody (readSlot perform id label) := by
  have required : Keeping custody (requireStoreAssembly id) :=
    .still (requireStoreAssembly_still id)
  have intercepted : ∀ (slot : Slot) (value : Value), Keeping custody (do
      if slot.annotations.isEmpty then return value
      requireStoreAssembly id
      intercept perform .onRead label value slot.annotations : Exec Value) := by
    intro slot value
    split
    · exact .pure _
    · exact .bind required fun _ => intercept_keeping nested _ label value _
  refine .of_get fun seen => ?_
  cases (seen.store id).slot? label with
  | none => exact .throw _
  | some slot =>
      obtain ⟨type, content, annotations, immutable⟩ := slot
      cases content with
      | script value =>
          cases value with
          | none => exact .bind (.throw _) (intercepted _)
          | some value => exact .bind (.pure _) (intercepted _)
      | host accessor reference =>
          refine .bind (resolveReference_keeping reference) fun host => ?_
          refine .bind (.still (accessor.read_still host)) fun raw => .bind required fun _ => ?_
          exact .bind (fromHost_keeping nested type raw) (intercepted _)

theorem writeHooks_keeping (id : StoreId) (label : String) (slot : Slot) (value : Value) :
    Keeping custody (writeHooks perform id label slot value) := by
  unfold writeHooks
  split
  · exact .pure _
  · exact .bind (.still (requireStoreAssembly_still id)) fun _ =>
      intercept_keeping nested _ label value _

omit nested in
theorem storeValue_keeping {id : StoreId} {label : String} (may : custody.mayWrite id label)
    (slot : Slot) (value : Value) : Keeping custody (storeValue id label slot value) := by
  refine .bind (.still (coerce?_still slot.type value)) fun stored => ?_
  cases stored with
  | none => exact .bind (.ask _) fun _ => .throw _
  | some stored =>
      dsimp only
      split
      · exact fun world => custody.write world may stored
      · refine .bind (.still (requireStoreAssembly_still id)) fun _ => ?_
        refine .bind (resolveReference_keeping _) fun host => ?_
        exact .bind (.still (toHost_still _ _)) fun raw => .still (Accessor.write_still _ host raw)

theorem assignSlot_keeping {id : StoreId} {label : String} (may : custody.mayWrite id label)
    (value : Value) : Keeping custody (assignSlot perform id label value) := by
  intro world
  cases found : (world.store id).slot? label with
  | none => exact Keeping.of_apply (assignSlot_of_missing perform value found) (custody.refl world)
  | some slot =>
      cases held : slot.immutable with
      | true =>
          exact Keeping.of_apply (assignSlot_of_immutable perform value found held) (custody.refl world)
      | false =>
          rw [assignSlot_of_mutable perform value found held]
          exact Keeping.bind (writeHooks_keeping nested id label slot value)
            (storeValue_keeping may slot) world

/-! ## Functions as slots -/

/-- The slot that is taken away is the one that was put there. -/
theorem installFunction_keeping (id : StoreId) (function : Function)
    (receiver : Option Receiver) :
    Keeping custody (installFunction perform id function receiver) := by
  intro world
  cases taken : (world.store id).declares function.name with
  | true =>
      exact Keeping.of_apply (installFunction_of_taken perform receiver taken) (custody.aside {})
  | false =>
      have installed : custody.keeps world (world.install id function receiver) :=
        custody.trans (custody.aside {}) (custody.insert _ id function.name _)
      by_cases plain : function.annotations = []
      · exact Keeping.of_apply (installFunction_of_plain perform receiver taken plain) installed
      · let ready : World := { world.install id function receiver with
          contexts := world.contexts.push (.fresh world.config.maxCallDepth) }
        have waiting : custody.keeps world ready := custody.trans installed (custody.aside {})
        have attaches : Keeping custody
            (attachAnnotations perform id function receiver world.contexts.next) :=
          .bind (createAnnotations_keeping nested _ receiver _ function.annotations)
            fun created => annotateSlot_keeping id function.name created
        have whole := custody.trans waiting (attaches ready)
        rw [installFunction_of_annotated perform receiver taken plain]
        unfold attachOrWithdraw Exec.recover
        change custody.keeps world (attachAnnotations perform id function receiver
          world.contexts.next ready).2 at whole
        rcases ends : attachAnnotations perform id function receiver world.contexts.next ready with
          ⟨outcome, last⟩
        rw [ends] at whole
        cases outcome with
        | done | exhausted => exact whole
        | failed fault => exact custody.withdraw taken whole

/-! ## Lookups -/

omit nested in
theorem findFunction?_still (cls : ClassId) (label : String) (declaredOnly : Bool)
    (accepts : Function → Bool) : Still (findFunction? cls label declaredOnly accepts) := by
  intro world
  unfold findFunction?
  split
  · exact .refl world
  · exact world.resolveBases_still _

theorem materialize_keeping (id : StoreId) (label : String) :
    Keeping custody (materialize perform id label) := by
  have installs : ∀ function receiver, Keeping custody (do
      installFunction perform id function receiver
      return true) :=
    fun function receiver =>
      .bind (installFunction_keeping nested id function receiver) fun _ => .pure _
  refine .of_get fun seen => ?_
  split
  · exact .pure _
  · refine .bind (.still requireAssembly_still) fun _ => ?_
    refine .bind (.still (findFunction?_still _ _ _ _)) fun found => ?_
    cases found with
    | none => exact .pure _
    | some function =>
        refine .of_get fun seen => ?_
        dsimp only
        split
        · exact installs function _
        · exact .bind (.throw _) fun _ => installs function _
  · refine .bind (.still requireAssembly_still) fun _ => .of_get fun seen => ?_
    split
    · exact .pure _
    · exact installs _ none

theorem readStore_keeping (id : StoreId) (label : String) :
    Keeping custody (readStore perform id label) := by
  refine .orElseMissing label (readSlot_keeping nested id label) ?_
  refine .bind (materialize_keeping nested id label) fun made => ?_
  cases made with
  | true => exact readSlot_keeping nested id label
  | false => exact .throw _

theorem assignStore_keeping {id : StoreId} {label : String} (may : custody.mayWrite id label)
    (value : Value) : Keeping custody (assignStore perform id label value) := by
  refine .orElseMissing label (assignSlot_keeping nested may value) ?_
  refine .bind (materialize_keeping nested id label) fun made => ?_
  cases made <;> exact .throw _

end

mutual

theorem readScope_keeping {custody : Custody} {perform : Perform}
    (nested : perform.Keeping custody) (label : String) :
    (scope : Scope) → Keeping custody (readScope perform label scope)
  | .store id => by
      unfold readScope
      exact readStore_keeping nested id label
  | .composite sources => by
      unfold readScope
      exact readSources_keeping nested label sources

theorem readSources_keeping {custody : Custody} {perform : Perform}
    (nested : perform.Keeping custody) (label : String) :
    (sources : List Scope) → Keeping custody (readSources perform label sources)
  | [] => by
      unfold readSources
      exact .throw _
  | source :: rest => by
      unfold readSources
      exact .orElseMissing label (readScope_keeping nested label source)
        (readSources_keeping nested label rest)

end

mutual

theorem assignScope_keeping {custody : Custody} {perform : Perform}
    (nested : perform.Keeping custody) (label : String) (value : Value) :
    (scope : Scope) → (∀ id ∈ scope.stores, custody.mayWrite id label) →
    Keeping custody (assignScope perform label value scope)
  | .store id, may => by
      unfold assignScope
      exact assignStore_keeping nested (may id (List.mem_singleton_self id)) value
  | .composite sources, may => by
      unfold assignScope
      exact assignSources_keeping nested label value sources may

theorem assignSources_keeping {custody : Custody} {perform : Perform}
    (nested : perform.Keeping custody) (label : String) (value : Value) :
    (sources : List Scope) → (∀ id ∈ Scope.storesOf sources, custody.mayWrite id label) →
    Keeping custody (assignSources perform label value sources)
  | [], _ => by
      unfold assignSources
      exact .throw _
  | source :: rest, may => by
      unfold assignSources
      rw [Scope.storesOf] at may
      exact .orElseMissing label
        (assignScope_keeping nested label value source fun id member =>
          may id (List.mem_append_left _ member))
        (assignSources_keeping nested label value rest fun id member =>
          may id (List.mem_append_right _ member))

end

section

variable {custody : Custody} {perform : Perform}
  (nested : perform.Keeping custody)
include nested

/-! ## Construction -/

theorem initializeField_keeping (receiver : Receiver) (id : StoreId) (field : Field)
    (context : ContextId) :
    Keeping custody (initializeField perform receiver id field context) := by
  obtain ⟨label, access, type, storage, annotations, owner⟩ := field
  cases storage with
  | host accessor => exact .pure _
  | script initializer =>
      cases initializer with
      | none => exact .pure _
      | some initializer =>
          refine .of_get fun seen => .wrapFault ?_
          exact .bind (evaluate_keeping nested _ initializer) fun value =>
            nested (.assign (.store id) label value)

theorem constructField_keeping (className : String) (receiver : Receiver) (level : Level)
    (options : CreateOptions) (context : ContextId) (field : Field) :
    Keeping custody
      (constructField perform className receiver level options context field) := by
  have annotates : Keeping custody
      (annotateField perform className receiver level options context field) := by
    unfold annotateField
    split
    · exact .bind (createAnnotations_keeping nested _ _ context _) fun created =>
        .wrapFault (annotateSlot_keeping _ field.name created)
    · exact .pure _
  have fills : Keeping custody
      (fillField perform receiver level options context field) := by
    unfold fillField
    split
    · exact initializeField_keeping nested receiver _ field context
    · exact .pure _
  cases wanted : options.has field.flag with
  | false =>
      rw [constructField_of_unwanted wanted]
      exact .pure _
  | true =>
      rw [constructField_of_wanted wanted]
      exact .bind (.wrapFault (insertSlot_keeping _ field.name _)) fun _ =>
        .bind annotates fun _ => fills

theorem constructFields_keeping (className : String) (receiver : Receiver) (level : Level)
    (options : CreateOptions) (context : ContextId) (fields : List Field) :
    Keeping custody
      (constructFields perform className receiver level options context fields) := by
  induction fields with
  | nil => exact .pure _
  | cons field rest ih =>
      exact .bind (constructField_keeping nested className receiver level options context field)
        fun _ => ih

theorem constructLevel_keeping (id : InstanceId) (options : CreateOptions)
    (context : ContextId) (place : Nat) :
    Keeping custody (constructLevel perform id options context place) := by
  have annotates : ∀ cls, Keeping custody
      (annotateLevel perform id options context place cls) := by
    intro cls
    unfold annotateLevel
    split
    · exact .bind (createAnnotations_keeping nested _ _ context _) fun _ =>
        .change fun world => custody.object world id fun _ => ⟨rfl, rfl⟩
    · exact .pure _
  intro world
  cases sits : world.level? id place with
  | none => exact Keeping.of_apply (constructLevel_of_none sits) (custody.refl world)
  | some level =>
      rw [constructLevel_of_some sits]
      exact Keeping.bind (annotates _)
        (fun _ => constructFields_keeping nested _ _ level options context _) world

theorem constructLevels_keeping (id : InstanceId) (options : CreateOptions)
    (context : ContextId) (count : Nat) :
    Keeping custody (constructLevels perform id options context count) := by
  induction count with
  | zero => exact .pure _
  | succ count ih =>
      exact .bind (constructLevel_keeping nested id options context count) fun _ => ih

theorem resolveConstructor_keeping (id : InstanceId) :
    Keeping custody (resolveConstructor perform id) := by
  refine .of_get fun seen => .bind (.still (metaLink?_still _ _)) fun link => ?_
  cases link with
  | none => exact .of_get fun _ => .still fun _ => {}
  | some link =>
      refine .of_get fun seen => .bind (openScope?_keeping id _) fun scope => ?_
      cases scope with
      | none => exact .throw _
      | some scope =>
          exact .bind (nested (.read scope _)) fun value => .still (requireFunction_still value)

theorem callConstructor_keeping (id : InstanceId) (args : List Value) (context : ContextId) :
    Keeping custody (callConstructor perform id args context) := by
  have before : ∀ args annotations,
      Keeping custody (preConstruct perform id context args annotations) := by
    intro args annotations
    induction annotations generalizing args with
    | nil => exact .pure _
    | cons annotation rest ih =>
        refine .bind (.still (newList_still args)) fun list => ?_
        refine .bind (hook_keeping nested context annotation _ _) fun result => ?_
        exact .of_get fun seen => ih _
  have behind : ∀ args annotations,
      Keeping custody (postConstruct perform id context args annotations) := by
    intro args annotations
    induction annotations with
    | nil => exact .pure _
    | cons annotation rest ih =>
        refine .bind (.still (newList_still args)) fun list => ?_
        exact .bind (hook_keeping nested context annotation _ _) fun _ => ih
  refine .bind (resolveConstructor_keeping nested id) fun constructor => ?_
  refine .of_get fun seen => .of_get fun named => ?_
  refine .bind (.withFrame context _ (before args _)) fun args => ?_
  exact .bind (nested (.call constructor args context)) fun _ => behind args _

theorem constructInstance_keeping (id : InstanceId) (options : CreateOptions)
    (args : List Value) : Keeping custody (constructInstance perform id options args) := by
  have finishes : ∀ className context, Keeping custody
      (finishInstance perform id options args className context) := by
    intro className context
    have marks : Keeping custody (do
        if options.has .markInitialized then
          Exec.change (·.withObject id fun object => { object with initialized := true }) :
            Exec Unit) := by
      split
      · exact .change fun world => custody.object world id fun _ => ⟨rfl, rfl⟩
      · exact .pure _
    unfold finishInstance
    by_cases wanted : options.has .callConstructor = true
    · rw [if_pos wanted]
      exact .bind (.wrapFault (callConstructor_keeping nested id args context)) fun _ => marks
    · rw [if_neg wanted]
      exact marks
  intro world
  cases initialized : (world.object id).initialized with
  | true => exact Keeping.of_apply (constructInstance_of_initialized initialized) (custody.refl world)
  | false =>
      rw [constructInstance_of_new initialized]
      refine Keeping.bind (.still (constructionContext_still options)) (fun context => ?_) world
      exact .bind (constructLevels_keeping nested id options context _) fun _ =>
        finishes _ context

/-! ## Calls -/

theorem forwardToBase_keeping (receiver : Receiver) (args : List Value) (context : ContextId) :
    Keeping custody (forwardToBase perform receiver args context) := by
  refine .of_get fun seen => ?_
  cases seen.level? receiver.owner (receiver.level + 1) with
  | none => exact .pure _
  | some base =>
      refine .bind (.still (metaLink?_still _ _)) fun link => ?_
      cases link with
      | none => exact .pure _
      | some link =>
          refine .of_get fun seen => .bind (openScope?_keeping _ _) fun scope => ?_
          cases scope with
          | none => exact .throw _
          | some scope =>
              refine .bind (nested (.read scope _)) fun value => ?_
              exact .bind (.still (requireFunction_still value)) fun constructor =>
                nested (.call constructor args context)

omit nested in
/-- A host constructor gives its level a host object, whatever becomes of other requests. -/
theorem hostConstructor_keeping {callable : Callable} (constructor : HostConstructor)
    (may : ∀ receiver, callable.receiver = some receiver → custody.mayBind receiver)
    (args : List Value) (context : ContextId) :
    Keeping custody (runBody perform callable (.hostConstructor constructor) args context) := by
  intro world
  refine Keeping.bind_at (custody.aside (requireReceiver_still callable world))
    fun receiver between required => ?_
  refine Keeping.bind_at (custody.aside (marshalArguments_still _ _ between)) fun given between _ => ?_
  refine Keeping.bind_at (custody.aside (constructor.invoke_still given between))
    fun host between made => ?_
  rw [bind_of_done _ (bindHost_apply ..)]
  exact custody.construct (may receiver (receiver_of_requireReceiver required))
    (HostConstructor.inside_of_invoke made)

theorem runBody_keeping {callable : Callable} {body : FunctionBody}
    (may : ∀ constructor receiver, body = .hostConstructor constructor →
      callable.receiver = some receiver → custody.mayBind receiver)
    (args : List Value) (context : ContextId) :
    Keeping custody (runBody perform callable body args context) := by
  have receiving : ∀ {α : Type} {next : Receiver → Exec α},
      (∀ receiver, Keeping custody (next receiver)) →
        Keeping custody (requireReceiver callable >>= next) := fun rest =>
    .bind (.still (requireReceiver_still callable)) rest
  cases body with
  | script expr =>
      exact .bind (.still (liveReceiver_still callable)) fun receiver =>
        evaluate_keeping nested _ expr
  | hostMethod method =>
      refine receiving fun receiver => .bind (levelHost_keeping receiver) fun host => ?_
      refine .bind (.still (marshalArguments_still _ _)) fun args => ?_
      exact .bind (.still (method.invoke_still host args)) fun result =>
        fromHost_keeping nested _ result
  | hostConstructor constructor =>
      exact hostConstructor_keeping constructor (may constructor · rfl) args context
  | passThrough =>
      exact receiving fun receiver => forwardToBase_keeping nested receiver args context
  | abstract => exact .throw _

omit nested in
/-- A call keeps what is in custody if the body of the function does. -/
theorem callFunction_of_body {id : CallableId} {args : List Value} {context : ContextId}
    {world : World} (ran : ∀ function, (world.callables.get id).function = some function →
      Keeping custody (runBody perform (world.callables.get id) function.body args context)) :
    custody.keeps world (callFunction perform id args context world).2 := by
  cases alive : world.alive with
  | false =>
      exact Keeping.of_apply (bind_of_failed _ (requireAssembly_of_dropped alive))
        (custody.refl world)
  | true =>
      unfold callFunction
      rw [bind_of_done _ (requireAssembly_of_alive alive), get_bind_apply]
      refine Keeping.withFrame context _ ?_ world
      cases called : (world.callables.get id).function with
      | none => exact .pure _
      | some function =>
          exact .bind (ran function called) fun result => .still (checkReturn_still _ result)

theorem callFunction_keeping {id : CallableId} {world : World} (may : custody.MayCall world id)
    (args : List Value) (context : ContextId) :
    custody.keeps world (callFunction perform id args context world).2 :=
  callFunction_of_body fun function called =>
    runBody_keeping nested (may function · · called) args context

/-! ## The machine -/

/-- A step keeps what is in custody if its request is permitted. -/
theorem step_keeping {request : Request} {world : World}
    (permits : custody.Permits ⟨request, world⟩) :
    custody.keeps world (step perform request world).2 := by
  cases request with
  | call callable args context => exact callFunction_keeping nested permits args context
  | read scope label => exact readScope_keeping nested label scope world
  | assign scope label value => exact assignScope_keeping nested label value scope permits world
  | construct id options args => exact constructInstance_keeping nested id options args world

end

/-! ## Barred requests -/

section

variable {custody : Custody} {bars : Inquiry → Prop}

/-- Barring some requests is enough: what is not barred keeps what is in custody. -/
def Custody.GuardedBy (custody : Custody) (bars : Inquiry → Prop) : Prop :=
  ∀ (barred : Inquiry → Prop) [DecidablePred barred] (budget : Nat) (request : Request)
    (world : World), ((barredUpTo barred budget).barring barred).Keeping custody →
    ¬ bars ⟨request, world⟩ →
    custody.keeps world (step ((barredUpTo barred budget).barring barred) request world).2

theorem Custody.GuardedBy.barredUpTo (guarded : custody.GuardedBy bars) {more : Inquiry → Prop}
    [DecidablePred more] (among : ∀ inquiry, bars inquiry → more inquiry) (budget : Nat) :
    ((barredUpTo more budget).barring more).Keeping custody := by
  induction budget with
  | zero =>
      exact fun request world => Perform.barring_end _ (custody.refl world) (custody.refl world)
  | succ budget ih =>
      intro request world
      by_cases barred : more ⟨request, world⟩
      · rw [Perform.barring_of_barred more barred]
        exact custody.refl world
      · rw [Perform.barring_of_clear more barred]
        exact guarded more budget request world ih fun holds => barred (among _ holds)

section

variable {allowed : Fault → Prop} {α : Type} {part : Perform → Exec α}
  (account : Account allowed part) (guarded : custody.GuardedBy bars) (budget : Nat) (world : World)
  (keeping : ∀ {perform : Perform}, perform.Keeping custody →
    custody.keeps world (part perform world).2)
include guarded keeping

/-- A run on the way of which no barred request is made keeps what is in custody. -/
theorem Account.keeps
    (clear : ∀ inquiry ∈ account.inquiries (performUpTo budget) (inquiriesUpTo budget) world,
      ¬ bars inquiry) : custody.keeps world (part (performUpTo budget) world).2 := by
  classical
  rw [← account.barred_eq budget world clear]
  exact keeping (guarded.barredUpTo (fun _ => id) budget)

/-- So does every state in which it makes a request, up to the first barred one. -/
theorem Account.keeps_inquiry {inquiry : Inquiry} {earlier later : List Inquiry}
    (split : account.inquiries (performUpTo budget) (inquiriesUpTo budget) world =
      earlier ++ inquiry :: later)
    (clear : ∀ other ∈ earlier, ¬ bars other) : custody.keeps world inquiry.world := by
  classical
  -- The machine that also bars where something in custody was lost ends in a related state.
  let strays (inquiry : Inquiry) : Prop := bars inquiry ∨ ¬ custody.keeps world inquiry.world
  have nested : ((barredUpTo strays budget).barring strays).Keeping custody :=
    guarded.barredUpTo (fun _ => .inl) budget
  have kept := keeping nested
  have stops := account.stopsAt (barredUpTo_stopsAt strays budget) world
  have found : ∀ {other : Inquiry}, ¬ strays other → custody.keeps world other.world :=
    fun clear => Classical.not_not.mp fun lost => clear (.inr lost)
  generalize part ((barredUpTo strays budget).barring strays) world = stopped at kept stops
  cases stops with
  | nowhere clear =>
      exact found (clear inquiry (split ▸ List.mem_append_right _ List.mem_cons_self))
  | @inquiry other last before after first before_clear strayed same =>
      have reached : custody.keeps world other.world := by
        refine custody.trans kept (custody.aside ?_)
        rw [same]
        exact {}
      have barred := strayed.resolve_right fun lost => lost reached
      -- The first stray request is a barred one, so that it is not among the earlier ones.
      obtain ⟨rest, whole, tail⟩ | ⟨rest, whole, tail⟩ :=
        List.append_eq_append_iff.mp (split.symm.trans first)
      · cases rest with
        | nil =>
            obtain ⟨rfl, _⟩ := List.cons.inj tail
            exact reached
        | cons next rest =>
            obtain ⟨rfl, _⟩ := List.cons.inj tail
            exact found (before_clear _ (whole ▸ List.mem_append_right _ List.mem_cons_self))
      · cases rest with
        | nil =>
            obtain ⟨rfl, _⟩ := List.cons.inj tail
            exact reached
        | cons next rest =>
            obtain ⟨rfl, _⟩ := List.cons.inj tail
            exact absurd barred (clear _ (whole ▸ List.mem_append_right _ List.mem_cons_self))

end

end

end ScriptObjects

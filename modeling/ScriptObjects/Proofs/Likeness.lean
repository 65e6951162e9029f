import ScriptObjects.Proofs.CallStacks
import ScriptObjects.Proofs.Recovery

/-!
# Activities that are alike

Every activity over two ways to perform requests is alike if the nested requests are.
The order is that of the model.  Frames are pushed in a framing, so that a machine which
does something else at a full call stack can be compared as well.

Two things follow for the machine.  Where the nested requests end, an activity ends.  And
where no body recovers, an activity that meets a full call stack ends in a fault which it
brought about.
-/

namespace ScriptObjects

set_option autoImplicit false

open Exec

variable {cuts : Prop}

section

variable {perform other : Perform} (nested : perform.Alike cuts other)
include nested

/-! ## Dispatch -/

theorem instantiate_alike (id : ClassId) (options : CreateOptions) (args : List Value) :
    Alike cuts (instantiate perform id options args) (instantiate other id options args) := by
  refine .after (newInstance_leads id options) (newInstance_ends id options) fun created => ?_
  exact .bind (nested _) fun _ => .pure _

theorem createInstance_alike (className : String) (options : CreateOptions) (args : List Value) :
    Alike cuts (createInstance perform className options args)
      (createInstance other className options args) := by
  refine .of_get fun seen => ?_
  split
  · exact instantiate_alike nested _ options args
  · exact .throw _

theorem hook_alike (context : ContextId) (id : InstanceId) (key : MetaKey) (args : List Value) :
    Alike cuts (hook perform context id key args) (hook other context id key args) := by
  refine .of_get fun seen => .after (metaLink?_leads _ key) (metaLink?_ends _ key) fun link => ?_
  cases link with
  | none => exact .pure _
  | some link =>
      refine .of_get fun seen => ?_
      refine .after (openScope?_leads id _) (openScope?_ends id _) fun scope => ?_
      cases scope with
      | none => exact .throw _
      | some scope =>
          refine .bind (nested _) fun value => ?_
          split
          · refine .bind (.wrapFault (fun _ overflows => overflows) (nested _)) fun result => ?_
            exact .after (castReturn_leads key result) (castReturn_ends key result) fun _ => .pure _
          · exact .after (.ask _) (.ask _) fun _ => .throw _

theorem binaryHook_alike (context : ContextId) (key : MetaKey) (left right : Value) :
    Alike cuts (binaryHook perform context key left right)
      (binaryHook other context key left right) := by
  have second : ∀ fromLeft : Option Value, Alike cuts
      (rightHook perform context key left right fromLeft)
      (rightHook other context key left right fromLeft) := by
    intro fromLeft
    unfold rightHook
    split
    · exact .pure _
    · exact hook_alike nested context _ key _
    · exact .pure _
  unfold binaryHook
  split
  · exact .bind (hook_alike nested context _ key _) second
  · exact .bind (.pure _) second

theorem unaryHook_alike (context : ContextId) (key : MetaKey) (operand : Value) :
    Alike cuts (unaryHook perform context key operand)
      (unaryHook other context key operand) := by
  unfold unaryHook
  split
  · exact hook_alike nested context _ key _
  · exact .pure _

theorem intercept_alike (key : MetaKey) (name : String) (value : Value)
    (annotations : List InstanceId) :
    Alike cuts (intercept perform key name value annotations)
      (intercept other key name value annotations) := by
  induction annotations generalizing value with
  | nil => exact .pure _
  | cons annotation rest ih =>
      refine .bind (hook_alike nested _ annotation key _) fun result => ?_
      cases result with
      | none => exact ih value
      | some result => exact ih result

theorem arithmetic_alike (context : ContextId) (key : MetaKey) (left right : Value) :
    Alike cuts (arithmetic perform context key left right)
      (arithmetic other context key left right) := by
  refine .bind (binaryHook_alike nested context key left right) fun result => ?_
  cases result with
  | none => exact .own (primitiveArithmetic_leads key left right) (primitiveArithmetic_ends _ _ _)
  | some result => exact .pure _

theorem negate_alike (context : ContextId) (operand : Value) :
    Alike cuts (negate perform context operand) (negate other context operand) := by
  refine .bind (unaryHook_alike nested context _ operand) fun result => ?_
  cases result with
  | some result => exact .pure _
  | none =>
      dsimp only
      split
      · exact .after (Exec.ofExcept_leads _) (Exec.ofExcept_ends _) fun _ => .pure _
      · exact .pure _
      · exact .own (unsupportedOperand_leads _ _) (unsupportedOperand_ends _ _)

theorem stringify_alike (context : ContextId) (value : Value) :
    Alike cuts (stringify perform context value) (stringify other context value) := by
  refine .bind (unaryHook_alike nested context _ value) fun result => ?_
  cases result with
  | some result => exact .pure _
  | none => exact .of_get fun _ => .pure _

theorem concat_alike (context : ContextId) (left right : Value) :
    Alike cuts (concat perform context left right) (concat other context left right) := by
  have joined : Alike cuts (do
      let first ← stringify perform context left
      let second ← stringify perform context right
      return Value.text (first ++ second)) (do
      let first ← stringify other context left
      let second ← stringify other context right
      return Value.text (first ++ second)) :=
    .bind (stringify_alike nested context left) fun _ =>
      .bind (stringify_alike nested context right) fun _ => .pure _
  have checked : ∀ operand (next later : Exec Value), Alike cuts next later →
      Alike cuts (do
        unless joinable operand do
          unsupportedOperand MetaKey.concat operand
        next) (do
        unless joinable operand do
          unsupportedOperand MetaKey.concat operand
        later) := by
    intro operand next later alike
    split
    · exact alike
    · exact .after (unsupportedOperand_leads _ _) (unsupportedOperand_ends _ _) fun _ => alike
  refine .bind (binaryHook_alike nested context _ left right) fun result => ?_
  cases result with
  | some result => exact .pure _
  | none => exact checked left _ _ (checked right _ _ joined)

theorem lengthOf_alike (context : ContextId) (value : Value) :
    Alike cuts (lengthOf perform context value) (lengthOf other context value) := by
  refine .bind (unaryHook_alike nested context _ value) fun result => ?_
  cases result with
  | some result => exact .pure _
  | none =>
      dsimp only
      split
      · exact .pure _
      · exact .of_get fun _ => .pure _
      · exact .own (unsupportedOperand_leads _ _) (unsupportedOperand_ends _ _)

theorem equals_alike (context : ContextId) (left right : Value) :
    Alike cuts (equals perform context left right) (equals other context left right) := by
  refine .bind (binaryHook_alike nested context _ left right) fun result => ?_
  cases result <;> exact .pure _

theorem less_alike (context : ContextId) (left right : Value) :
    Alike cuts (less perform context left right) (less other context left right) := by
  refine .bind (binaryHook_alike nested context _ left right) fun result => ?_
  cases result with
  | some result => exact .pure _
  | none =>
      exact .after (primitiveOrder_leads _ left right) (primitiveOrder_ends _ _ _) fun _ => .pure _

theorem lessEqual_alike (context : ContextId) (left right : Value) :
    Alike cuts (lessEqual perform context left right) (lessEqual other context left right) := by
  refine .bind (binaryHook_alike nested context _ left right) fun result => ?_
  cases result with
  | some result => exact .pure _
  | none =>
      exact .after (primitiveOrder_leads _ left right) (primitiveOrder_ends _ _ _) fun _ => .pure _

theorem iterate_alike (context : ContextId) (value : Value) :
    Alike cuts (iterate perform context value) (iterate other context value) := by
  refine .bind (unaryHook_alike nested context _ value) fun result => ?_
  split
  · exact .of_get fun _ => .pure _
  · exact .after (.ask _) (.ask _) fun _ => .throw _
  · split
    · exact .of_get fun _ => .pure _
    · exact .own (unsupportedOperand_leads _ _) (unsupportedOperand_ends _ _)

theorem callValue_alike (context : ContextId) (target : Value) (args : List Value) :
    Alike cuts (callValue perform context target args)
      (callValue other context target args) := by
  unfold callValue
  split
  · exact nested _
  · refine .bind (hook_alike nested context _ _ args) fun result => ?_
    cases result with
    | some result => exact .pure _
    | none => exact .after (.ask _) (.ask _) fun _ => .throw _
  · exact .after (.ask _) (.ask _) fun _ => .throw _

theorem operate_alike (context : ContextId) (operator : Operator) (operands : List Value) :
    Alike cuts (operate perform context operator operands)
      (operate other context operator operands) := by
  cases operator with
  | add | subtract | multiply | divide | remainder => exact arithmetic_alike nested context _ _ _
  | negate => exact negate_alike nested context _
  | concat => exact concat_alike nested context _ _
  | stringify => exact .bind (stringify_alike nested context _) fun _ => .pure _
  | length => exact .bind (lengthOf_alike nested context _) fun _ => .pure _
  | equals => exact .bind (equals_alike nested context _ _) fun _ => .pure _
  | less => exact .bind (less_alike nested context _ _) fun _ => .pure _
  | lessEqual => exact .bind (lessEqual_alike nested context _ _) fun _ => .pure _
  | iterate =>
      exact .bind (iterate_alike nested context _) fun _ => .own (newList_leads _) (newList_ends _)
  | call => exact callValue_alike nested context _ _

end

/-! ## Evaluation -/

mutual

theorem evaluate_alike {perform other : Perform} (nested : perform.Alike cuts other)
    (site : Option Invocation) : (expr : Expr) → (cuts → expr.recovers = false) →
    Alike cuts (evaluate perform site expr) (evaluate other site expr)
  | .null, _ | .bool _, _ | .int _, _ | .float _, _ | .text _, _ => by
      unfold evaluate
      exact .pure _
  | .list items, plain => by
      unfold evaluate
      exact .bind (evaluateAll_alike nested site items plain) fun _ =>
        .own (newList_leads _) (newList_ends _)
  | .table entries, plain => by
      unfold evaluate
      refine .bind (evaluateEntries_alike nested site .empty entries plain) fun _ => ?_
      exact .after (newTable_leads _) (newTable_ends _) fun _ => .pure _
  | .host type args, plain => by
      unfold evaluate
      exact .bind (evaluateAll_alike nested site args plain) fun _ =>
        .own (makeHost_leads type _) (makeHost_ends type _)
  | .var name, _ => by
      unfold evaluate
      exact .own (sessionValue_leads name) (sessionValue_ends name)
  | .bind name value, plain => by
      unfold evaluate
      refine .bind (evaluate_alike nested site value plain) fun result => ?_
      exact .after (.change fun _ => .save name result) (.change _) fun _ => .pure _
  | .sequence steps, plain => by
      unfold evaluate
      exact .bind (evaluateAll_alike nested site steps plain) fun _ => .pure _
  | .branch condition thenCase elseCase, plain => by
      simp only [Expr.recovers, Bool.or_eq_false_iff, imp_and] at plain
      obtain ⟨⟨inCondition, inThen⟩, inElse⟩ := plain
      unfold evaluate
      refine .bind (evaluate_alike nested site condition inCondition) fun result => ?_
      split
      · exact evaluate_alike nested site thenCase inThen
      · exact evaluate_alike nested site elseCase inElse
  | .log value, plain => by
      unfold evaluate
      refine .bind (evaluate_alike nested site value plain) fun result => ?_
      exact .after (.change fun world => .record _) (.change _) fun _ => .pure _
  | .index target key, plain => by
      simp only [Expr.recovers, Bool.or_eq_false_iff, imp_and] at plain
      unfold evaluate
      refine .bind (evaluate_alike nested site target plain.1) fun _ => ?_
      refine .bind (evaluate_alike nested site key plain.2) fun _ => ?_
      exact .after (requireEntry_leads _ _) (requireEntry_ends _ _) fun _ => .of_get fun _ => .pure _
  | .setIndex target key value, plain => by
      simp only [Expr.recovers, Bool.or_eq_false_iff, imp_and] at plain
      obtain ⟨⟨inTarget, inKey⟩, inValue⟩ := plain
      unfold evaluate
      refine .bind (evaluate_alike nested site target inTarget) fun _ => ?_
      refine .bind (evaluate_alike nested site key inKey) fun _ => ?_
      refine .bind (evaluate_alike nested site value inValue) fun result => ?_
      refine .after (requireEntry_leads _ _) (requireEntry_ends _ _) fun entry => ?_
      exact .after (.change fun _ => .setTable entry.1 _) (.change _) fun _ => .pure _
  | .typeName value, plain => by
      unfold evaluate
      exact .bind (evaluate_alike nested site value plain) fun _ =>
        .after (.ask _) (.ask _) fun _ => .pure _
  | .identical left right, plain => by
      simp only [Expr.recovers, Bool.or_eq_false_iff, imp_and] at plain
      unfold evaluate
      refine .bind (evaluate_alike nested site left plain.1) fun _ => ?_
      exact .bind (evaluate_alike nested site right plain.2) fun _ => .pure _
  | .member target access name, plain => by
      unfold evaluate
      refine .bind (evaluate_alike nested site target plain) fun _ => ?_
      refine .after (requireObject_leads _) (requireObject_ends _) fun id => ?_
      exact .after (memberScope_leads id access) (memberScope_ends id access) fun scope => nested _
  | .setMember target access name value, plain => by
      simp only [Expr.recovers, Bool.or_eq_false_iff, imp_and] at plain
      unfold evaluate
      refine .bind (evaluate_alike nested site target plain.1) fun _ => ?_
      refine .after (requireObject_leads _) (requireObject_ends _) fun id => ?_
      refine .after (memberScope_leads id access) (memberScope_ends id access) fun scope => ?_
      refine .bind (evaluate_alike nested site value plain.2) fun result => ?_
      exact .bind (nested _) fun _ => .pure _
  | .throw _, _ | .raiseHost _, _ | .raiseType _ _, _ | .raiseNotDeclared _, _ => by
      unfold evaluate
      exact .throw _
  | .attempt value, plain => by
      have strict : ¬ cuts := fun admitted => nomatch plain admitted
      unfold evaluate
      refine .bind (.attempt strict (evaluate_alike nested site value
        fun admitted => absurd admitted strict)) fun result => ?_
      cases result with
      | ok result => exact .own (newList_leads _) (newList_ends _)
      | error fault => exact .own (describeFault_leads fault) (newList_ends _)
  | .arg _, _ | .argCount, _ | .this, _ | .level, _ => by
      unfold evaluate
      exact .after (runningCall_leads site) (runningCall_ends site) fun _ => .pure _
  | .args, _ => by
      unfold evaluate
      exact .after (runningCall_leads site) (runningCall_ends site) fun _ =>
        .own (newList_leads _) (newList_ends _)
  | .trace, _ | .depth, _ => by
      unfold evaluate
      exact .after (runningCall_leads site) (runningCall_ends site) fun _ => .of_get fun _ => .pure _
  | .get name, _ | .baseGet name, _ => by
      unfold evaluate
      refine .after (runningCall_leads site) (runningCall_ends site) fun call => ?_
      exact .after (call.scopeIn_leads _) (call.scopeIn_ends _) fun scope => nested _
  | .set name value, plain | .baseSet name value, plain => by
      unfold evaluate
      refine .after (runningCall_leads site) (runningCall_ends site) fun call => ?_
      refine .bind (evaluate_alike nested site value plain) fun result => ?_
      refine .after (call.scopeIn_leads _) (call.scopeIn_ends _) fun scope => ?_
      exact .bind (nested _) fun _ => .pure _
  | .declare name type, _ => by
      unfold evaluate
      refine .after (runningCall_leads site) (runningCall_ends site) fun call => ?_
      refine .after (call.scopeIn_leads _) (call.scopeIn_ends _) fun scope => ?_
      exact .after (declare_leads type trivial scope) (declare_ends name _ scope) fun _ => .pure _
  | .call name args, plain | .baseCall name args, plain => by
      unfold evaluate
      refine .after (runningCall_leads site) (runningCall_ends site) fun call => ?_
      refine .bind (evaluateAll_alike nested site args plain) fun values => ?_
      refine .after (call.scopeIn_leads _) (call.scopeIn_ends _) fun scope => ?_
      exact .bind (nested _) fun target => callValue_alike nested _ target values
  | .create className args, plain => by
      unfold evaluate
      refine .after (runningCall_leads site) (runningCall_ends site) fun call => ?_
      refine .bind (evaluateAll_alike nested site args plain) fun values => ?_
      exact .bind (createInstance_alike nested className _ values) fun _ => .pure _
  | .operate operator args, plain => by
      unfold evaluate
      refine .after (runningCall_leads site) (runningCall_ends site) fun call => ?_
      exact .bind (evaluateAll_alike nested site args plain) fun values =>
        operate_alike nested _ operator values

theorem evaluateAll_alike {perform other : Perform} (nested : perform.Alike cuts other)
    (site : Option Invocation) : (exprs : List Expr) →
    (cuts → Expr.anyRecovers exprs = false) →
    Alike cuts (evaluateAll perform site exprs) (evaluateAll other site exprs)
  | [], _ => by
      unfold evaluateAll
      exact .pure _
  | expr :: rest, plain => by
      simp only [Expr.anyRecovers, Bool.or_eq_false_iff, imp_and] at plain
      unfold evaluateAll
      refine .bind (evaluate_alike nested site expr plain.1) fun _ => ?_
      exact .bind (evaluateAll_alike nested site rest plain.2) fun _ => .pure _

theorem evaluateEntries_alike {perform other : Perform} (nested : perform.Alike cuts other)
    (site : Option Invocation) (table : Table) : (entries : List (Expr × Expr)) →
    (cuts → Expr.anyEntryRecovers entries = false) →
    Alike cuts (evaluateEntries perform site table entries)
      (evaluateEntries other site table entries)
  | [], _ => by
      unfold evaluateEntries
      exact .pure _
  | (key, value) :: rest, plain => by
      simp only [Expr.anyEntryRecovers, Bool.or_eq_false_iff, imp_and] at plain
      obtain ⟨⟨inKey, inValue⟩, inRest⟩ := plain
      unfold evaluateEntries
      refine .bind (evaluate_alike nested site key inKey) fun _ => ?_
      refine .bind (evaluate_alike nested site value inValue) fun _ => ?_
      exact .after (requireKey_leads _) (requireKey_ends _) fun _ =>
        evaluateEntries_alike nested site _ rest inRest

end

/-! ## The host boundary -/

section

variable {perform other : Perform} (nested : perform.Alike cuts other)
include nested

theorem wrapHost_alike (host : HostId) :
    Alike cuts (wrapHost perform host) (wrapHost other host) := by
  refine .of_get fun seen => ?_
  split
  · exact .pure _
  · refine .after (newInstance_leads _ _) (newInstance_ends _ _) fun created => ?_
    refine .after (bindHost_leads _ 0 host) (bindHost_ends _ 0 host) fun _ => ?_
    exact .bind (nested _) fun _ => .pure _

theorem fromHost_alike (type : ValueType) (host : HostId) :
    Alike cuts (fromHost perform type host) (fromHost other type host) := by
  have coerced : ∀ value, Alike cuts (coerceBack type value) (coerceBack type value) := by
    intro value
    refine .after (coerce?_leads type value) (coerce?_ends type value) fun result => ?_
    cases result with
    | some result => exact .pure _
    | none => exact .of_get fun _ => .throw _
  have taken : ∀ object : HostObject, Alike cuts (takeBack perform type host object)
      (takeBack other type host object) := by
    intro object
    unfold takeBack
    cases object.directValue? with
    | some value => exact .bind (.pure _) coerced
    | none => exact .bind (wrapHost_alike nested host) coerced
  refine .after (.ask _) (.ask _) fun object => .of_get fun seen => ?_
  by_cases selective : seen.marshaling = .selective
  · rw [if_pos selective, if_pos selective]
    cases refusedCount? object with
    | some name => exact .bind (.throw _) fun _ => taken object
    | none => exact taken object
  · rw [if_neg selective, if_neg selective]
    exact taken object

/-! ## Annotations -/

theorem createAnnotations_alike (target : String) (receiver : Option Receiver)
    (context : ContextId) {uses : List (AnnotationUse ClassRefId)}
    (plain : cuts → Expr.anyRecovers (annotationBodies uses) = false) :
    Alike cuts (createAnnotations perform target receiver context uses)
      (createAnnotations other target receiver context uses) := by
  induction uses with
  | nil => exact .pure _
  | cons use rest ih =>
      have here : cuts → Expr.anyRecovers use.args = false := fun admitted =>
        Expr.anyRecovers_of_subset (plain admitted) fun body inside => List.mem_append_left _ inside
      have later : cuts → Expr.anyRecovers (annotationBodies rest) = false := fun admitted =>
        Expr.anyRecovers_of_subset (plain admitted) fun body inside => List.mem_append_right _ inside
      have first : Alike cuts ( createAnnotation perform use target receiver context)
          ( createAnnotation other use target receiver context) := by
        refine .of_get fun seen => ?_
        refine .after (resolveRef?_leads use.cls) (resolveRef?_ends use.cls) fun found => ?_
        cases found with
        | none => exact .throw _
        | some id =>
            refine .wrapFault (fun _ overflows => overflows) ?_
            refine .bind (evaluateAll_alike nested _ use.args here) fun args => ?_
            exact instantiate_alike nested id _ args
      exact .bind first fun _ => .bind (ih later) fun _ => .pure _

/-! ## Variables -/

theorem readSlot_alike (id : StoreId) (name : String) :
    Alike cuts (readSlot perform id name) (readSlot other id name) := by
  have intercepted : ∀ (slot : Slot) (value : Value), Alike cuts (do
      if slot.annotations.isEmpty then return value
      requireStoreAssembly id
      intercept perform .onRead name value slot.annotations : Exec Value)
      (do
      if slot.annotations.isEmpty then return value
      requireStoreAssembly id
      intercept other .onRead name value slot.annotations : Exec Value) := by
    intro slot value
    split
    · exact .pure _
    · exact .after (requireStoreAssembly_leads id) (requireStoreAssembly_ends id) fun _ =>
        intercept_alike nested _ name value _
  refine .of_get fun seen => ?_
  cases (seen.store id).slot? name with
  | none => exact .throw _
  | some slot =>
      obtain ⟨type, content, annotations, immutable⟩ := slot
      cases content with
      | script value =>
          cases value with
          | none => exact .bind (.throw _) (intercepted _)
          | some value => exact .bind (.pure _) (intercepted _)
      | host accessor reference =>
          refine .after (resolveReference_leads reference) (resolveReference_ends reference) ?_
          refine fun host => .after (accessor.read_leads host) (accessor.read_ends host) ?_
          refine fun raw => .after (requireStoreAssembly_leads id) (requireStoreAssembly_ends id) ?_
          exact fun _ => .bind (fromHost_alike nested type raw) (intercepted _)

omit nested in
/-- What is written to a slot after its hooks runs no body. -/
theorem storeValue_alike (id : StoreId) (name : String) (slot : Slot) (value : Value) :
    Alike cuts (storeValue id name slot value) (storeValue id name slot value) := by
  refine .after (coerce?_leads slot.type value) (coerce?_ends slot.type value) fun result => ?_
  cases result with
  | none => exact .after (.ask _) (.ask _) fun _ => .throw _
  | some stored =>
      obtain ⟨type, content, annotations, immutable⟩ := slot
      cases content with
      | script old => exact .silent (.change _) fun _ => ⟨rfl, rfl, rfl⟩
      | host accessor reference =>
          refine .after (requireStoreAssembly_leads id) (requireStoreAssembly_ends id) fun _ => ?_
          refine .after (resolveReference_leads reference) (resolveReference_ends reference) ?_
          refine fun host => .after (toHost_leads _ _) (toHost_ends _ _) fun raw => ?_
          exact .own (accessor.write_leads host raw) (accessor.write_ends host raw)

theorem writeHooks_alike (id : StoreId) (name : String) (slot : Slot) (value : Value) :
    Alike cuts (writeHooks perform id name slot value)
      (writeHooks other id name slot value) := by
  unfold writeHooks
  split
  · exact .pure _
  · exact .after (requireStoreAssembly_leads id) (requireStoreAssembly_ends id) fun _ =>
      intercept_alike nested _ name value _

theorem assignSlot_alike (id : StoreId) (name : String) (value : Value) :
    Alike cuts (assignSlot perform id name value) (assignSlot other id name value) := by
  intro world
  cases found : (world.store id).slot? name with
  | none =>
      exact .of_apply (fun _ never => never) (assignSlot_of_missing perform value found)
        (assignSlot_of_missing other value found)
  | some slot =>
      cases held : slot.immutable with
      | true =>
          exact .of_apply (fun _ never => never) (assignSlot_of_immutable perform value found held)
            (assignSlot_of_immutable other value found held)
      | false =>
          refine .congr (fun _ never => never) (assignSlot_of_mutable perform value found held)
            (assignSlot_of_mutable other value found held) ?_
          exact Alike.bind (writeHooks_alike nested id name slot value)
            (fun result => storeValue_alike id name slot result) world

/-! ## Functions as slots -/

theorem attachAnnotations_alike {function : Function}
    (plain : cuts → Expr.anyRecovers function.bodies = false) (id : StoreId)
    (receiver : Option Receiver) (context : ContextId) :
    Alike cuts (attachAnnotations perform id function receiver context)
      (attachAnnotations other id function receiver context) := by
  have inside : cuts → Expr.anyRecovers (annotationBodies function.annotations) = false :=
    fun admitted => Expr.anyRecovers_of_subset (plain admitted) (annotationBodies_among function)
  refine .bind (createAnnotations_alike nested _ receiver context inside) fun created => ?_
  exact .own (annotateSlot_leads id function.name created) (annotateSlot_ends _ _ _)

theorem installFunction_alike {function : Function}
    (plain : cuts → Expr.anyRecovers function.bodies = false) (id : StoreId)
    (receiver : Option Receiver) :
    Alike cuts (installFunction perform id function receiver)
      (installFunction other id function receiver) := by
  intro world
  have installed : cuts → world.NeverRecovers →
      (world.install id function receiver).NeverRecovers := by
    intro admitted never
    have made := never.withCallable (plain admitted) receiver
    exact ⟨made.classes, made.functions, made.callables⟩
  cases taken : (world.store id).declares function.name with
  | true =>
      exact .of_apply (fun admitted never => never.withCallable (plain admitted) receiver)
        (installFunction_of_taken perform receiver taken)
        (installFunction_of_taken other receiver taken)
  | false =>
      by_cases bare : function.annotations = []
      · exact .of_apply installed (installFunction_of_plain perform receiver taken bare)
          (installFunction_of_plain other receiver taken bare)
      · have opened : cuts → world.NeverRecovers → World.NeverRecovers
            { world.install id function receiver with
              contexts := world.contexts.push (.fresh world.config.maxCallDepth) } := by
          intro admitted never
          have made := installed admitted never
          exact ⟨made.classes, made.functions, made.callables⟩
        refine .congr opened (installFunction_of_annotated perform receiver taken bare)
          (installFunction_of_annotated other receiver taken bare) ?_
        refine AlikeAt.recover (attachAnnotations_alike nested plain id receiver _ _) ?_ ?_
        · intro fault after _
          have erased : Alike cuts
              (Exec.change fun world => world.withStore id (·.erase function.name)) _ :=
            .silent (.change _) fun _ => ⟨rfl, rfl, rfl⟩
          exact erased.bind (fun _ => .throw fault) after
        · exact fun _ _ _ => rfl

theorem materialize_alike (id : StoreId) (name : String) :
    Alike cuts (materialize perform id name) (materialize other id name) := by
  intro world
  cases alive : world.alive with
  | false =>
      by_cases home : ∃ attached, (world.store id).home = .free attached
      · obtain ⟨attached, free⟩ := home
        exact .of_apply (fun _ never => never) (materialize_of_free perform free)
          (materialize_of_free other free)
      · have bound : ∀ attached, (world.store id).home ≠ .free attached :=
          fun attached free => home ⟨attached, free⟩
        exact .of_apply (fun _ never => never) (materialize_of_dropped perform bound alive)
          (materialize_of_dropped other bound alive)
  | true =>
      have asked : cuts → world.NeverRecovers → (world.askedFor id name).NeverRecovers := by
        intro _
        have evolves : Evolves (fun _ => True) (fun _ => True) world (world.askedFor id name) :=
          .askedFor world id name
        exact evolves.neverRecovers
      cases offered : world.offer? id name with
      | none =>
          exact .of_apply asked (materialize_of_none perform alive offered)
            (materialize_of_none other alive offered)
      | some offer =>
          obtain ⟨function, receiver⟩ := offer
          have one := materialize_of_some perform alive offered
          have two := materialize_of_some other alive offered
          by_cases living : (receiver.all fun target => (world.object target.owner).alive) = true
          · rw [if_pos living] at one two
            intro never
            have plain : cuts → Expr.anyRecovers function.bodies = false :=
              fun admitted => (never admitted).offered offered
            have installed := installFunction_alike nested plain id receiver
            refine AlikeAt.congr asked one two ?_ never
            exact Alike.bind installed (fun _ => .pure true) _
          · rw [if_neg living] at one two
            exact .of_apply asked one two

/-! ## Stores and scopes -/

omit nested in
theorem orElseMissing_alike {α : Type} (name : String) {run next later last : Exec α}
    (first : Alike cuts run later) (second : Alike cuts next last) :
    Alike cuts (orElseMissing name run next) (orElseMissing name later last) := by
  refine fun world => AlikeAt.recover (first world) (fun fault after _ => ?_) ?_
  · split
    · exact second after
    · exact Alike.throw fault after
  · intro fault after overflows
    rw [overflows.isMiss name]
    rfl

theorem readStore_alike (id : StoreId) (name : String) :
    Alike cuts (readStore perform id name) (readStore other id name) := by
  refine orElseMissing_alike name (readSlot_alike nested id name) ?_
  refine .bind (materialize_alike nested id name) fun made => ?_
  cases made with
  | true => exact readSlot_alike nested id name
  | false => exact .throw _

theorem assignStore_alike (id : StoreId) (name : String) (value : Value) :
    Alike cuts (assignStore perform id name value) (assignStore other id name value) := by
  refine orElseMissing_alike name (assignSlot_alike nested id name value) ?_
  refine .bind (materialize_alike nested id name) fun made => ?_
  cases made <;> exact .throw _

end

mutual

theorem readScope_alike {perform other : Perform} (nested : perform.Alike cuts other)
    (name : String) : (scope : Scope) →
    Alike cuts (readScope perform name scope) (readScope other name scope)
  | .store id => by
      unfold readScope
      exact readStore_alike nested id name
  | .composite sources => by
      unfold readScope
      exact readSources_alike nested name sources

theorem readSources_alike {perform other : Perform} (nested : perform.Alike cuts other)
    (name : String) : (sources : List Scope) →
    Alike cuts (readSources perform name sources) (readSources other name sources)
  | [] => by
      unfold readSources
      exact .throw _
  | source :: rest => by
      unfold readSources
      exact orElseMissing_alike name (readScope_alike nested name source)
        (readSources_alike nested name rest)

end

mutual

theorem assignScope_alike {perform other : Perform} (nested : perform.Alike cuts other)
    (name : String) (value : Value) : (scope : Scope) →
    Alike cuts (assignScope perform name value scope) (assignScope other name value scope)
  | .store id => by
      unfold assignScope
      exact assignStore_alike nested id name value
  | .composite sources => by
      unfold assignScope
      exact assignSources_alike nested name value sources

theorem assignSources_alike {perform other : Perform} (nested : perform.Alike cuts other)
    (name : String) (value : Value) : (sources : List Scope) →
    Alike cuts (assignSources perform name value sources) (assignSources other name value sources)
  | [] => by
      unfold assignSources
      exact .throw _
  | source :: rest => by
      unfold assignSources
      exact orElseMissing_alike name (assignScope_alike nested name value source)
        (assignSources_alike nested name value rest)

end

section

variable {perform other : Perform} (nested : perform.Alike cuts other)
include nested

/-! ## Construction -/

theorem initializeField_alike {field : Field}
    (plain : cuts → Expr.anyRecovers field.bodies = false) (receiver : Receiver)
    (store : StoreId) (context : ContextId) :
    Alike cuts (initializeField perform receiver store field context)
      (initializeField other receiver store field context) := by
  obtain ⟨name, access, type, storage, annotations, owner⟩ := field
  cases storage with
  | host accessor => exact .pure _
  | script initializer =>
      cases initializer with
      | none => exact .pure _
      | some initializer =>
          have inside : cuts → initializer.recovers = false := fun admitted =>
            Expr.anyRecovers_eq_false.mp (plain admitted) initializer List.mem_cons_self
          refine .of_get fun seen => .wrapFault (fun _ overflows => overflows) ?_
          exact .bind (evaluate_alike nested _ initializer inside) fun value => nested _

omit nested in
theorem declareField_alike (className : String) (level : Level) (field : Field) :
    Alike cuts (declareField className level field) (declareField className level field) := by
  refine .wrapFault (fun _ overflows => overflows.declarationFault _ _) ?_
  refine .silent (insertSlot_ends _ _ _) fun world => ?_
  cases taken : (world.store (level.declarations field.access)).declares field.name with
  | true =>
      rw [insertSlot_of_declared _ taken]
      exact ⟨rfl, rfl, rfl⟩
  | false =>
      rw [insertSlot_of_free _ taken]
      exact ⟨rfl, rfl, rfl⟩

theorem annotateField_alike {field : Field}
    (plain : cuts → Expr.anyRecovers field.bodies = false) (className : String)
    (receiver : Receiver) (level : Level) (options : CreateOptions) (context : ContextId) :
    Alike cuts (annotateField perform className receiver level options context field)
      (annotateField other className receiver level options context field) := by
  have inside : cuts → Expr.anyRecovers (annotationBodies field.annotations) = false :=
    fun admitted => Expr.anyRecovers_of_subset (plain admitted) (annotationBodies_among_field field)
  unfold annotateField
  split
  · refine .bind (createAnnotations_alike nested _ _ context inside) fun created => ?_
    refine .wrapFault (fun _ overflows => overflows.declarationFault _ _) ?_
    exact .own (annotateSlot_leads _ _ _) (annotateSlot_ends _ _ _)
  · exact .pure _

theorem fillField_alike {field : Field} (plain : cuts → Expr.anyRecovers field.bodies = false)
    (receiver : Receiver) (level : Level) (options : CreateOptions) (context : ContextId) :
    Alike cuts (fillField perform receiver level options context field)
      (fillField other receiver level options context field) := by
  unfold fillField
  split
  · exact initializeField_alike nested plain receiver _ context
  · exact .pure _

theorem constructFields_alike (className : String) (receiver : Receiver) (level : Level)
    (options : CreateOptions) (context : ContextId) {fields : List Field}
    (plain : cuts → ∀ field ∈ fields, Expr.anyRecovers field.bodies = false) :
    Alike cuts (constructFields perform className receiver level options context fields)
      (constructFields other className receiver level options context fields) := by
  induction fields with
  | nil => exact .pure _
  | cons field rest ih =>
      have here : cuts → Expr.anyRecovers field.bodies = false :=
        fun admitted => plain admitted field List.mem_cons_self
      have later : cuts → ∀ other ∈ rest, Expr.anyRecovers other.bodies = false :=
        fun admitted other member => plain admitted other (List.mem_cons_of_mem field member)
      have first : Alike cuts (constructField perform className receiver level options context field)
          (constructField other className receiver level options context field) := by
        cases wanted : options.has field.flag with
        | false =>
            rw [constructField_of_unwanted wanted, constructField_of_unwanted wanted]
            exact .pure _
        | true =>
            rw [constructField_of_wanted wanted, constructField_of_wanted wanted]
            refine .bind (declareField_alike className level field) fun _ => ?_
            refine .bind (annotateField_alike nested here className receiver level options context)
              fun _ => ?_
            exact fillField_alike nested here receiver level options context
      exact .bind first fun _ => ih later

theorem annotateLevel_alike {cls : ClassDef}
    (plain : cuts → Expr.anyRecovers (annotationBodies cls.annotations) = false) (id : InstanceId)
    (options : CreateOptions) (context : ContextId) (place : Nat) :
    Alike cuts (annotateLevel perform id options context place cls)
      (annotateLevel other id options context place cls) := by
  unfold annotateLevel
  split
  · exact .bind (createAnnotations_alike nested _ _ context plain) fun created =>
      .own (.change fun _ => .attach id created) (.change _)
  · exact .pure _

theorem constructLevel_alike (id : InstanceId) (options : CreateOptions) (context : ContextId)
    (place : Nat) :
    Alike cuts (constructLevel perform id options context place)
      (constructLevel other id options context place) := by
  intro world never
  cases sits : world.level? id place with
  | none =>
      exact AlikeAt.of_apply (fun _ never => never) (constructLevel_of_none sits)
        (constructLevel_of_none sits) nofun never
  | some level =>
      have bodies : cuts → Expr.anyRecovers (world.cls level.cls).bodies = false :=
        fun admitted => (never admitted).classes level.cls
      have annotations : cuts →
          Expr.anyRecovers (annotationBodies (world.cls level.cls).annotations) = false :=
        fun admitted => Expr.anyRecovers_of_subset (bodies admitted) fun body inside =>
          List.mem_append_left _ (List.mem_append_left _ inside)
      have fields : cuts → ∀ field ∈ (world.cls level.cls).fields,
          Expr.anyRecovers field.bodies = false := fun admitted field member =>
        Expr.anyRecovers_of_subset (bodies admitted) (ClassDef.field_bodies member)
      refine AlikeAt.congr (fun _ never => never) (constructLevel_of_some sits)
        (constructLevel_of_some sits) ?_ never
      exact Alike.bind (annotateLevel_alike nested annotations id options context place)
        (fun _ => constructFields_alike nested _ _ level options context fields) world

theorem constructLevels_alike (id : InstanceId) (options : CreateOptions) (context : ContextId)
    (place : Nat) :
    Alike cuts (constructLevels perform id options context place)
      (constructLevels other id options context place) := by
  induction place with
  | zero => exact .pure _
  | succ place ih =>
      exact .bind (constructLevel_alike nested id options context place) fun _ => ih

theorem resolveConstructor_alike (id : InstanceId) :
    Alike cuts (resolveConstructor perform id) (resolveConstructor other id) := by
  refine .of_get fun seen => .after (metaLink?_leads _ _) (metaLink?_ends _ _) fun link => ?_
  cases link with
  | none => exact .of_get fun _ => .own (newPlaceholder_leads _) (newCallable_ends _)
  | some link =>
      refine .of_get fun seen => ?_
      refine .after (openScope?_leads id _) (openScope?_ends id _) fun scope => ?_
      cases scope with
      | none => exact .throw _
      | some scope =>
          exact .bind (nested _) fun value =>
            .own (requireFunction_leads value) (requireFunction_ends value)

theorem preConstruct_alike (id : InstanceId) (context : ContextId) (args : List Value)
    (annotations : List InstanceId) :
    Alike cuts (preConstruct perform id context args annotations)
      (preConstruct other id context args annotations) := by
  induction annotations generalizing args with
  | nil => exact .pure _
  | cons annotation rest ih =>
      refine .after (newList_leads args) (newList_ends args) fun list => ?_
      refine .bind (hook_alike nested context annotation _ _) fun result => ?_
      exact .of_get fun seen => ih _

theorem postConstruct_alike (id : InstanceId) (context : ContextId) (args : List Value)
    (annotations : List InstanceId) :
    Alike cuts (postConstruct perform id context args annotations)
      (postConstruct other id context args annotations) := by
  induction annotations with
  | nil => exact .pure _
  | cons annotation rest ih =>
      refine .after (newList_leads args) (newList_ends args) fun list => ?_
      exact .bind (hook_alike nested context annotation _ _) fun _ => ih

/-! ## Calls -/

theorem forwardToBase_alike (receiver : Receiver) (args : List Value) (context : ContextId) :
    Alike cuts (forwardToBase perform receiver args context)
      (forwardToBase other receiver args context) := by
  refine .of_get fun seen => ?_
  cases seen.level? receiver.owner (receiver.level + 1) with
  | none => exact .pure _
  | some base =>
      refine .after (metaLink?_leads _ _) (metaLink?_ends _ _) fun link => ?_
      cases link with
      | none => exact .pure _
      | some link =>
          refine .of_get fun seen => ?_
          refine .after (openScope?_leads _ _) (openScope?_ends _ _) fun scope => ?_
          cases scope with
          | none => exact .throw _
          | some scope =>
              refine .bind (nested _) fun value => ?_
              exact .after (requireFunction_leads value) (requireFunction_ends value) fun _ => nested _

theorem runBody_alike (callable : Callable) {function : Function}
    (plain : cuts → Expr.anyRecovers function.bodies = false) (args : List Value)
    (context : ContextId) :
    Alike cuts (runBody perform callable function.body args context)
      (runBody other callable function.body args context) := by
  obtain ⟨name, access, role, returns, body, annotations, owner⟩ := function
  cases body with
  | script expr =>
      have inside : cuts → expr.recovers = false := fun admitted =>
        Expr.anyRecovers_eq_false.mp (plain admitted) expr List.mem_cons_self
      exact .after (liveReceiver_leads callable) (liveReceiver_ends callable) fun receiver =>
        evaluate_alike nested _ expr inside
  | hostMethod method =>
      refine .after (requireReceiver_leads callable) (requireReceiver_ends callable) ?_
      refine fun receiver => .after (levelHost_leads receiver) (levelHost_ends receiver) ?_
      refine fun host => .after (marshalArguments_leads _ _) (marshalArguments_ends _ _) ?_
      refine fun args => .after (method.invoke_leads host args) (method.invoke_ends host args) ?_
      exact fun result => fromHost_alike nested _ result
  | hostConstructor constructor =>
      refine .after (requireReceiver_leads callable) (requireReceiver_ends callable) ?_
      refine fun receiver => .after (marshalArguments_leads _ _) (marshalArguments_ends _ _) ?_
      refine fun args => .after (constructor.invoke_leads args) (constructor.invoke_ends args) ?_
      exact fun host => .after (bindHost_leads _ _ host) (bindHost_ends _ _ host) fun _ => .pure _
  | passThrough =>
      exact .after (requireReceiver_leads callable) (requireReceiver_ends callable) fun receiver =>
        forwardToBase_alike nested receiver args context
  | abstract => exact .throw _

end

/-! ## Steps in a framing -/

/-- What runs in a framing is like what runs with plain frames. -/
def Framing.Resembles (cuts : Prop) (framing : Framing) (perform : Perform) : Prop :=
  ∀ (α : Type) (context : ContextId) (frame : Frame) (part : Perform → Exec α),
    (∀ {one two : Perform}, one.Alike cuts two → Alike cuts (part one) (part two)) →
    Alike cuts (perform.framing.around context frame part) (framing.around context frame part)

section

variable {perform other : Perform} {framing : Framing}
  (resembles : framing.Resembles cuts perform)
include resembles

theorem callFunctionBy_alike (id : CallableId) (args : List Value) (context : ContextId) :
    Alike cuts (callFunction perform id args context)
      (callFunctionBy framing id args context) := by
  refine .after requireAssembly_leads requireAssembly_ends fun _ world never => ?_
  refine resembles _ context _ (callBody (world.callables.get id) args context) (fun nested => ?_)
    world never
  unfold callBody
  cases held : (world.callables.get id).function with
  | none => exact .pure _
  | some function =>
      have plain : cuts → Expr.anyRecovers function.bodies = false :=
        fun admitted => (never admitted).callables id function held
      exact .bind (runBody_alike nested _ plain args context) fun result =>
        .own (checkReturn_leads _ result) (checkReturn_ends _ result)

variable (nested : perform.Alike cuts other)
include nested

theorem finishInstanceBy_alike (id : InstanceId) (options : CreateOptions) (args : List Value)
    (className : String) (context : ContextId) :
    Alike cuts (finishInstance perform id options args className context)
      (finishInstanceBy framing other id options args className context) := by
  have called : Alike cuts (callConstructor perform id args context)
      (callConstructorBy framing other id args context) := by
    refine .bind (resolveConstructor_alike nested id) fun constructor => ?_
    refine .of_get fun seen => .of_get fun named => ?_
    refine .bind (resembles _ context _ _ fun within =>
      preConstruct_alike within id context args _) fun args => ?_
    exact .bind (nested _) fun _ => postConstruct_alike nested id context args _
  have marks : Ends (do
      if options.has .markInitialized then
        Exec.change (·.withObject id fun object => { object with initialized := true }) :
          Exec Unit) := by
    split
    · exact .change _
    · exact .pure _
  unfold finishInstance finishInstanceBy
  by_cases wanted : options.has .callConstructor = true
  · rw [if_pos wanted, if_pos wanted]
    exact .bind (.wrapFault (fun _ overflows => overflows) called) fun _ =>
      .own (markInstance_leads id options) marks
  · rw [if_neg wanted, if_neg wanted]
    exact .own (markInstance_leads id options) marks

theorem constructInstanceBy_alike (id : InstanceId) (options : CreateOptions) (args : List Value) :
    Alike cuts (constructInstance perform id options args)
      (constructInstanceBy framing other id options args) := by
  intro world
  cases initialized : (world.object id).initialized with
  | true =>
      exact .of_apply (fun _ never => never) (constructInstance_of_initialized initialized)
        (constructInstanceBy_of_initialized initialized)
  | false =>
      refine .congr (fun _ never => never) (constructInstance_of_new initialized)
        (constructInstanceBy_of_new initialized) ?_
      refine Alike.after (constructionContext_leads options) (constructionContext_ends options)
        (fun context => ?_) world
      refine .bind (constructLevels_alike nested id options context _) fun _ => ?_
      exact finishInstanceBy_alike resembles nested id options args _ context

theorem stepBy_alike : (step perform).Alike cuts (stepBy framing other)
  | .call callable args context => callFunctionBy_alike resembles callable args context
  | .read scope name => readScope_alike nested name scope
  | .assign scope name value => assignScope_alike nested name value scope
  | .construct id options args => constructInstanceBy_alike resembles nested id options args

end

/-- Runs with one more frame are alike if the runs are. -/
theorem withFrame_alikeAt {α : Type} {run other : Exec α} {world : World} {context : ContextId}
    {frame : Frame} {deeper : Context} (pushed : (world.context context).push? frame = .ok deeper)
    (alike : Alike cuts run other) :
    AlikeAt cuts (withFrame context frame run) (withFrame context frame other) world := by
  intro never
  obtain ⟨still, agrees⟩ := alike (world.withContext context fun _ => deeper) fun admitted =>
    ⟨(never admitted).classes, (never admitted).functions, (never admitted).callables⟩
  rw [withFrame_of_pushed run rfl pushed, withFrame_of_pushed other rfl pushed]
  refine ⟨fun admitted => ?_, ?_⟩
  · have kept := still admitted
    exact ⟨kept.classes, kept.functions, kept.callables⟩
  · obtain ⟨ends, same⟩ | cut := agrees
    · rw [same]
      exact .inl ⟨ends, rfl⟩
    · exact .inr cut

theorem framing_resembles {perform : Perform} (nested : perform.Alike cuts perform) :
    perform.framing.Resembles cuts perform := by
  intro α context frame part parts world
  cases pushed : (world.context context).push? frame with
  | ok deeper => exact withFrame_alikeAt pushed (parts nested)
  | error limit =>
      exact .of_apply (fun _ never => never) (withFrame_of_full _ pushed)
        (withFrame_of_full _ pushed)

/-! ## Ends -/

/-- Runs that end are like themselves, and no others are where cuts are not admitted. -/
theorem Exec.alike_self {α : Type} {run : Exec α} : Alike False run run ↔ Ends run := by
  constructor
  · intro alike world
    obtain ⟨ends, _⟩ | ⟨none, _⟩ := (alike world fun none => none.elim).2
    · exact ends
    · exact none.elim
  · exact fun ends world _ => ⟨fun none => none.elim, .inl ⟨ends world, rfl⟩⟩

/-- A step ends where the requests nested in it do. -/
theorem step_ends {perform : Perform} (nested : ∀ request, Ends (perform request))
    (request : Request) : Ends (step perform request) := by
  have alike : perform.Alike False perform := fun request => alike_self.mpr (nested request)
  have steps := stepBy_alike (framing_resembles alike) alike request
  rw [stepBy_framing] at steps
  exact alike_self.mp steps

/-! ## Operations -/

/-- Whether an operation can itself go on after a fault. -/
def Operation.recovers : Operation → Bool
  | .eval expr => expr.recovers
  | _ => false

theorem Operation.run_alike {perform other : Perform} (nested : perform.Alike cuts other)
    (operation : Operation) (plain : cuts → operation.recovers = false) :
    Alike cuts (operation.run perform) (operation.run other) := by
  cases operation with
  | ofRequest request => exact nested request
  | create className options args =>
      exact .after requireAssembly_leads requireAssembly_ends fun _ =>
        createInstance_alike nested className options args
  | wrap host =>
      exact .after requireAssembly_leads requireAssembly_ends fun _ => wrapHost_alike nested host
  | unmarshal host type =>
      exact .after requireAssembly_leads requireAssembly_ends fun _ =>
        fromHost_alike nested type host
  | dispatch context operator operands =>
      exact .after requireAssembly_leads requireAssembly_ends fun _ =>
        operate_alike nested context operator operands
  | callHook context id key args =>
      exact .after requireAssembly_leads requireAssembly_ends fun _ =>
        hook_alike nested context id key args
  | eval expr => exact evaluate_alike nested none expr plain

/-- An operation ends where the requests it makes do. -/
theorem Operation.run_ends {perform : Perform} (nested : ∀ request, Ends (perform request))
    (operation : Operation) : Ends (operation.run perform) :=
  alike_self.mp (operation.run_alike (fun request => alike_self.mpr (nested request))
    fun none => none.elim)

end ScriptObjects

import ScriptObjects.Proofs.Orderly

/-!
# Every run is orderly

The activities that nest requests are orderly as long as the requests are: dispatch and
evaluation first, then variables, construction and calls.  The machine closes the circle, by
induction on the budget.

The one place where order does not pass from step to step is a function whose annotations
could not be created: its slot is withdrawn, and what has to be shown is that all slots that
were there before it are still there.
-/

namespace ScriptObjects

set_option autoImplicit false

open World Exec

/-- Requests whose arguments exist are performed in an orderly way. -/
structure Perform.Orderly (perform : Perform) : Prop where
  call : ∀ (callable : CallableId) {args : List Value} (context : ContextId) {world : World},
    world.Has args → OrderlyAt (perform (.call callable args context) : Exec Value) world
  read : ∀ (scope : Scope) (name : String) {world : World},
    OrderlyAt (perform (.read scope name) : Exec Value) world
  assign : ∀ (scope : Scope) (name : String) {value : Value} {world : World}, world.Has value →
    OrderlyAt (perform (.assign scope name value) : Exec Unit) world
  construct : ∀ {id : InstanceId} (options : CreateOptions) {args : List Value} {world : World},
    world.Has id → world.Has args →
      OrderlyAt (perform (.construct id options args) : Exec Unit) world

section

variable {world : World} {perform : Perform} (nested : perform.Orderly)
include nested

/-! ## Instances and hooks -/

theorem instantiate_orderly {id : ClassId} (options : CreateOptions) {args : List Value}
    (registered : world.Has id) (has : world.Has args) :
    OrderlyAt (instantiate perform id options args) world := by
  refine .bind (newInstance_orderly registered options) fun created after grows fresh => ?_
  refine .bind (nested.construct options fresh (grows.has has)) fun _ last further _ => ?_
  exact .pure (further.has fresh)

theorem createInstance_orderly (className : String) (options : CreateOptions) {args : List Value}
    (has : world.Has args) : OrderlyAt (createInstance perform className options args) world := by
  refine .given fun order => .of_get ?_
  split
  · next id found =>
      have registered : world.Has id := order.findClass? className id found
      exact instantiate_orderly nested options registered has
  · exact .throw _

theorem hook_orderly (context : ContextId) (id : InstanceId) (key : MetaKey) {args : List Value}
    (has : world.Has args) : OrderlyAt (hook perform context id key args) world := by
  refine .of_get (.bind (metaLink?_orderly _ key) fun link linked grows _ => ?_)
  cases link with
  | none => exact .pure has_none
  | some link =>
      refine .of_get (.bind (openScope?_orderly id _) fun scope opened further _ => ?_)
      cases scope with
      | none => exact .throw _
      | some scope =>
          refine .bind (nested.read scope _) fun value found more _ => ?_
          have known := more.has (further.has (grows.has has))
          split
          · refine .bind (.wrapFault (nested.call _ context known)) fun result called _ given => ?_
            exact .bind (castReturn_orderly key given) fun _ _ _ checked => .pure (has_some checked)
          · exact .bind (typeNameOf_orderly _) fun _ _ _ _ => .throw _

theorem rightHook_orderly (context : ContextId) (key : MetaKey) {left : Value} (right : Value)
    {fromLeft : Option Value} (has : world.Has left) (given : world.Has fromLeft) :
    OrderlyAt (rightHook perform context key left right fromLeft) world := by
  unfold rightHook
  split
  · exact .pure given
  · exact hook_orderly nested context _ key (has_cons has has_nil)
  · exact .pure has_none

theorem binaryHook_orderly (context : ContextId) (key : MetaKey) {left right : Value}
    (first : world.Has left) (second : world.Has right) :
    OrderlyAt (binaryHook perform context key left right) world := by
  unfold binaryHook
  split
  · exact .bind (hook_orderly nested context _ key (has_cons second has_nil))
      fun fromLeft after grows given =>
        rightHook_orderly nested context key right (grows.has first) given
  · exact .bind (.pure has_none) fun fromLeft after grows given =>
      rightHook_orderly nested context key right (grows.has first) given

theorem unaryHook_orderly (context : ContextId) (key : MetaKey) (operand : Value) :
    OrderlyAt (unaryHook perform context key operand) world := by
  unfold unaryHook
  split
  · exact hook_orderly nested context _ key has_nil
  · exact .pure has_none

theorem intercept_orderly (key : MetaKey) (name : String) (annotations : List InstanceId)
    {value : Value} (has : world.Has value) :
    OrderlyAt (intercept perform key name value annotations) world := by
  induction annotations generalizing value world with
  | nil => exact .pure has
  | cons annotation rest ih =>
      have args : world.Has [Value.text name, value] :=
        has_cons (show world.Has (Value.text name) from trivial) (has_cons has has_nil)
      refine .bind (hook_orderly nested _ annotation key args) fun result after grows given => ?_
      cases result with
      | none => exact ih (grows.has has)
      | some result => exact ih (given result rfl)

/-! ## Operators -/

theorem arithmetic_orderly (context : ContextId) (key : MetaKey) {left right : Value}
    (first : world.Has left) (second : world.Has right) :
    OrderlyAt (arithmetic perform context key left right) world := by
  refine .bind (binaryHook_orderly nested context key first second) fun result _ _ given => ?_
  cases result with
  | none => exact primitiveArithmetic_orderly key left right
  | some result => exact .pure (given result rfl)

theorem negate_orderly (context : ContextId) (operand : Value) :
    OrderlyAt (negate perform context operand) world := by
  refine .bind (unaryHook_orderly nested context _ operand) fun result _ _ given => ?_
  cases result with
  | some result => exact .pure (given result rfl)
  | none =>
      dsimp only
      split
      · exact .bind (Exec.ofExcept_orderly _) fun _ _ _ _ => .pure trivial
      · exact .pure trivial
      · exact unsupportedOperand_orderly _ _

theorem stringify_orderly (context : ContextId) (value : Value) :
    OrderlyAt (stringify perform context value) world := by
  refine .bind (unaryHook_orderly nested context _ value) fun result _ _ _ => ?_
  cases result with
  | some result => exact .pure trivial
  | none => exact .of_get (.pure trivial)

theorem concat_orderly (context : ContextId) {left right : Value} (first : world.Has left)
    (second : world.Has right) : OrderlyAt (concat perform context left right) world := by
  have joined : ∀ {world : World}, OrderlyAt (do
      let first ← stringify perform context left
      let second ← stringify perform context right
      return Value.text (first ++ second)) world := by
    intro world
    refine .bind (stringify_orderly nested context left) fun _ _ _ _ => ?_
    exact .bind (stringify_orderly nested context right) fun _ _ _ _ => .pure trivial
  have checked : ∀ (operand : Value) (next : Exec Value),
      (∀ {world : World}, OrderlyAt next world) → ∀ {world : World}, OrderlyAt (do
        unless joinable operand do
          unsupportedOperand MetaKey.concat operand
        next) world := by
    intro operand next orderly world
    split
    · exact orderly
    · exact .bind (unsupportedOperand_orderly _ _) fun _ _ _ _ => orderly
  refine .bind (binaryHook_orderly nested context _ first second) fun result _ _ given => ?_
  cases result with
  | some result => exact .pure (given result rfl)
  | none => exact checked left _ (checked right _ joined)

theorem lengthOf_orderly (context : ContextId) (value : Value) :
    OrderlyAt (lengthOf perform context value) world := by
  refine .bind (unaryHook_orderly nested context _ value) fun result _ _ _ => ?_
  cases result with
  | some result => exact .pure trivial
  | none =>
      dsimp only
      split
      · exact .pure trivial
      · exact .of_get (.pure trivial)
      · exact unsupportedOperand_orderly _ _

theorem equals_orderly (context : ContextId) {left right : Value} (first : world.Has left)
    (second : world.Has right) : OrderlyAt (equals perform context left right) world := by
  refine .bind (binaryHook_orderly nested context _ first second) fun result _ _ _ => ?_
  cases result <;> exact .pure trivial

theorem less_orderly (context : ContextId) {left right : Value} (first : world.Has left)
    (second : world.Has right) : OrderlyAt (less perform context left right) world := by
  refine .bind (binaryHook_orderly nested context _ first second) fun result _ _ _ => ?_
  cases result with
  | some result => exact .pure trivial
  | none => exact .bind (primitiveOrder_orderly _ left right) fun _ _ _ _ => .pure trivial

theorem lessEqual_orderly (context : ContextId) {left right : Value} (first : world.Has left)
    (second : world.Has right) : OrderlyAt (lessEqual perform context left right) world := by
  refine .bind (binaryHook_orderly nested context _ first second) fun result _ _ _ => ?_
  cases result with
  | some result => exact .pure trivial
  | none => exact .bind (primitiveOrder_orderly _ left right) fun _ _ _ _ => .pure trivial

omit nested in
/-- The items of a table exist. -/
theorem items_orderly (id : TableId) :
    OrderlyAt (do return ((← get).tables.get id).sequence) world :=
  .given fun order => .of_get (.pure (has_sequence (order.holds.tables id)))

theorem iterate_orderly (context : ContextId) (value : Value) :
    OrderlyAt (iterate perform context value) world := by
  refine .bind (unaryHook_orderly nested context _ value) fun result _ _ _ => ?_
  split
  · exact items_orderly _
  · exact .bind (typeNameOf_orderly _) fun _ _ _ _ => .throw _
  · split
    · exact items_orderly _
    · exact unsupportedOperand_orderly _ _

theorem callValue_orderly (context : ContextId) (target : Value) {args : List Value}
    (has : world.Has args) : OrderlyAt (callValue perform context target args) world := by
  unfold callValue
  split
  · exact nested.call _ context has
  · refine .bind (hook_orderly nested context _ _ has) fun result _ _ given => ?_
    cases result with
    | some result => exact .pure (given result rfl)
    | none => exact .bind (typeNameOf_orderly _) fun _ _ _ _ => .throw _
  · exact .bind (typeNameOf_orderly _) fun _ _ _ _ => .throw _

theorem operate_orderly (context : ContextId) (operator : Operator) {operands : List Value}
    (has : world.Has operands) : OrderlyAt (operate perform context operator operands) world := by
  have head : ∀ {operands : List Value}, world.Has operands → world.Has (operands.headD .null) := by
    intro operands has
    cases operands with
    | nil => exact trivial
    | cons first rest => exact has first List.mem_cons_self
  have tail : world.Has operands.tail := fun value member => has value (List.mem_of_mem_tail member)
  have left := head has
  have right := head tail
  cases operator with
  | add | subtract | multiply | divide | remainder =>
      exact arithmetic_orderly nested context _ left right
  | negate => exact negate_orderly nested context _
  | concat => exact concat_orderly nested context left right
  | stringify => exact .bind (stringify_orderly nested context _) fun _ _ _ _ => .pure trivial
  | length => exact .bind (lengthOf_orderly nested context _) fun _ _ _ _ => .pure trivial
  | equals => exact .bind (equals_orderly nested context left right) fun _ _ _ _ => .pure trivial
  | less => exact .bind (less_orderly nested context left right) fun _ _ _ _ => .pure trivial
  | lessEqual =>
      exact .bind (lessEqual_orderly nested context left right) fun _ _ _ _ => .pure trivial
  | iterate =>
      exact .bind (iterate_orderly nested context _) fun _ _ _ items => newList_orderly items
  | call => exact callValue_orderly nested context _ tail

end

/-! ## Evaluation -/

mutual

theorem evaluate_orderly {perform : Perform} (nested : perform.Orderly) {site : Option Invocation}
    {world : World} (has : world.Has site) : (expr : Expr) →
    OrderlyAt (evaluate perform site expr) world
  | .null | .bool _ | .int _ | .float _ | .text _ => by
      unfold evaluate
      exact .pure trivial
  | .list items => by
      unfold evaluate
      exact .bind (evaluateAll_orderly nested has items) fun _ _ _ known => newList_orderly known
  | .table entries => by
      unfold evaluate
      have empty : world.Has Table.empty := fun _ member => (List.not_mem_nil member).elim
      refine .bind (evaluateEntries_orderly nested has empty entries) fun table after _ filled => ?_
      exact .bind (newTable_orderly filled) fun _ _ _ _ => .pure trivial
  | .host type args => by
      unfold evaluate
      exact .bind (evaluateAll_orderly nested has args) fun _ _ _ known => makeHost_orderly type known
  | .var name => by
      unfold evaluate
      exact sessionValue_orderly name
  | .bind name value => by
      unfold evaluate
      refine .bind (evaluate_orderly nested has value) fun result after _ known => ?_
      exact .bind (.change (.bind name known)) fun _ _ grows _ => .pure (grows.has known)
  | .sequence steps => by
      unfold evaluate
      refine .bind (evaluateAll_orderly nested has steps) fun results after _ known => ?_
      refine .pure ?_
      cases last : results.getLast? with
      | none => rw [List.getLastD_eq_getLast?, last]; exact trivial
      | some value =>
          rw [List.getLastD_eq_getLast?, last]
          exact known value (List.mem_of_getLast? last)
  | .branch condition thenCase elseCase => by
      unfold evaluate
      refine .bind (evaluate_orderly nested has condition) fun _ _ grows _ => ?_
      split
      · exact evaluate_orderly nested (grows.has has) thenCase
      · exact evaluate_orderly nested (grows.has has) elseCase
  | .log value => by
      unfold evaluate
      refine .bind (evaluate_orderly nested has value) fun _ _ _ _ => ?_
      exact .bind (.change (.setLog _)) fun _ _ _ _ => .pure trivial
  | .index target key => by
      unfold evaluate
      refine .bind (evaluate_orderly nested has target) fun _ _ grows _ => ?_
      refine .bind (evaluate_orderly nested (grows.has has) key) fun _ _ _ _ => ?_
      refine .bind (requireEntry_orderly _ _) fun entry after _ _ => .given fun order => ?_
      exact .of_get (.pure (has_get (order.holds.tables entry.1) _))
  | .setIndex target key value => by
      unfold evaluate
      refine .bind (evaluate_orderly nested has target) fun _ _ grows _ => ?_
      refine .bind (evaluate_orderly nested (grows.has has) key) fun _ _ further _ => ?_
      refine .bind (evaluate_orderly nested (further.has (grows.has has)) value)
        fun result after _ known => ?_
      refine .bind (requireEntry_orderly _ _) fun entry last more _ => ?_
      have stored : ∀ table : Table, last.Has table → last.Has (table.set entry.2 result) :=
        fun table filled => has_set filled (more.has known)
      exact .bind (.change (.withTable entry.1 stored)) fun _ _ _ _ => .pure trivial
  | .typeName value => by
      unfold evaluate
      refine .bind (evaluate_orderly nested has value) fun _ _ _ _ => ?_
      exact .bind (typeNameOf_orderly _) fun _ _ _ _ => .pure trivial
  | .identical left right => by
      unfold evaluate
      refine .bind (evaluate_orderly nested has left) fun _ _ grows _ => ?_
      exact .bind (evaluate_orderly nested (grows.has has) right) fun _ _ _ _ => .pure trivial
  | .member target access name => by
      unfold evaluate
      refine .bind (evaluate_orderly nested has target) fun _ _ _ known => ?_
      refine .bind (requireObject_orderly known) fun id _ _ _ => ?_
      exact .bind (memberScope_orderly id access) fun scope _ _ _ => nested.read scope name
  | .setMember target access name value => by
      unfold evaluate
      refine .bind (evaluate_orderly nested has target) fun _ _ grows known => ?_
      refine .bind (requireObject_orderly known) fun id _ further _ => ?_
      refine .bind (memberScope_orderly id access) fun scope _ more _ => ?_
      refine .bind (evaluate_orderly nested (more.has (further.has (grows.has has))) value)
        fun result _ _ given => ?_
      exact .bind (nested.assign scope name given) fun _ _ _ _ => .pure trivial
  | .throw _ | .raiseHost _ | .raiseType _ _ | .raiseNotDeclared _ => by
      unfold evaluate
      exact .throw _
  | .attempt value => by
      unfold evaluate
      refine .bind (.attempt (evaluate_orderly nested has value)) fun answer after _ known => ?_
      cases answer with
      | ok result =>
          have flag : after.Has (Value.bool true) := trivial
          exact newList_orderly (has_cons flag (has_cons (known result rfl) has_nil))
      | error fault => exact describeFault_orderly fault
  | .arg position => by
      unfold evaluate
      refine .bind (runningCall_orderly has) fun call after _ known => .pure ?_
      cases given : call.args[position]? with
      | none => exact trivial
      | some value => exact known.2 value (List.mem_of_getElem? given)
  | .args => by
      unfold evaluate
      exact .bind (runningCall_orderly has) fun _ _ _ known => newList_orderly known.2
  | .argCount => by
      unfold evaluate
      exact .bind (runningCall_orderly has) fun _ _ _ _ => .pure trivial
  | .this => by
      unfold evaluate
      refine .bind (runningCall_orderly has) fun call after _ known => .pure ?_
      cases bound : call.receiver with
      | none => exact trivial
      | some receiver => exact known.1 receiver bound
  | .level => by
      unfold evaluate
      refine .bind (runningCall_orderly has) fun call after _ _ => .pure ?_
      cases call.receiver <;> exact trivial
  | .trace | .depth => by
      unfold evaluate
      exact .bind (runningCall_orderly has) fun _ _ _ _ => .of_get (.pure trivial)
  | .get name | .baseGet name => by
      unfold evaluate
      refine .bind (runningCall_orderly has) fun call _ _ _ => ?_
      exact .bind (call.scopeIn_orderly _) fun scope _ _ _ => nested.read scope name
  | .set name value | .baseSet name value => by
      unfold evaluate
      refine .bind (runningCall_orderly has) fun call _ grows _ => ?_
      refine .bind (evaluate_orderly nested (grows.has has) value) fun result _ _ given => ?_
      refine .bind (call.scopeIn_orderly _) fun scope _ further _ => ?_
      exact .bind (nested.assign scope name (further.has given)) fun _ _ _ _ => .pure trivial
  | .declare name type => by
      unfold evaluate
      refine .bind (runningCall_orderly has) fun call _ _ _ => ?_
      refine .bind (call.scopeIn_orderly _) fun scope _ _ _ => ?_
      exact .bind (declare_orderly (fits_unassigned type) scope) fun _ _ _ _ => .pure trivial
  | .call name args | .baseCall name args => by
      unfold evaluate
      refine .bind (runningCall_orderly has) fun call _ grows _ => ?_
      refine .bind (evaluateAll_orderly nested (grows.has has) args) fun values _ _ given => ?_
      refine .bind (call.scopeIn_orderly _) fun scope _ further _ => ?_
      exact .bind (nested.read scope name) fun target _ more _ =>
        callValue_orderly nested _ target (more.has (further.has given))
  | .create className args => by
      unfold evaluate
      refine .bind (runningCall_orderly has) fun call _ grows _ => ?_
      refine .bind (evaluateAll_orderly nested (grows.has has) args) fun values _ _ given => ?_
      exact .bind (createInstance_orderly nested className _ given) fun _ _ _ known => .pure known
  | .operate operator args => by
      unfold evaluate
      refine .bind (runningCall_orderly has) fun call _ grows _ => ?_
      exact .bind (evaluateAll_orderly nested (grows.has has) args) fun values _ _ given =>
        operate_orderly nested _ operator given

theorem evaluateAll_orderly {perform : Perform} (nested : perform.Orderly)
    {site : Option Invocation} {world : World} (has : world.Has site) : (exprs : List Expr) →
    OrderlyAt (evaluateAll perform site exprs) world
  | [] => by
      unfold evaluateAll
      exact .pure has_nil
  | expr :: rest => by
      unfold evaluateAll
      refine .bind (evaluate_orderly nested has expr) fun _ _ grows known => ?_
      exact .bind (evaluateAll_orderly nested (grows.has has) rest) fun _ _ further more =>
        .pure (has_cons (further.has known) more)

theorem evaluateEntries_orderly {perform : Perform} (nested : perform.Orderly)
    {site : Option Invocation} {world : World} (has : world.Has site) {table : Table}
    (filled : world.Has table) : (entries : List (Expr × Expr)) →
    OrderlyAt (evaluateEntries perform site table entries) world
  | [] => by
      unfold evaluateEntries
      exact .pure filled
  | (key, value) :: rest => by
      unfold evaluateEntries
      refine .bind (evaluate_orderly nested has key) fun _ _ grows _ => ?_
      refine .bind (evaluate_orderly nested (grows.has has) value) fun result _ further known => ?_
      refine .bind (requireKey_orderly _) fun name _ more _ => ?_
      have now := (grows.trans further).trans more
      exact evaluateEntries_orderly nested (now.has has) (has_set (now.has filled) (more.has known))
        rest

end

/-! ## The host boundary -/

section

variable {world : World}

theorem hostForm_orderly (type : ValueType) {value : Value} (has : world.Has value) :
    OrderlyAt (hostForm type value) world := by
  unfold hostForm
  split
  · exact .pure (has_some has)
  · exact .given fun order => .of_get (.pure fun host held => order.hosted held)
  case h_9 => exact .bind (newHost_orderly has) fun _ _ _ made => .pure (has_some made)
  all_goals exact .bind (newHost_orderly trivial) fun _ _ _ made => .pure (has_some made)

theorem toHost_orderly {value : Value} (has : world.Has value) (type : ValueType) :
    OrderlyAt (toHost value type) world := by
  have converted : ∀ {world : World} (unsupported : Fault), world.Has value →
      OrderlyAt (convertHost type value unsupported) world := by
    intro world unsupported has
    have formed : ∀ {world : World}, world.Has value →
        OrderlyAt (formHost type value unsupported) world := by
      intro world has
      refine .bind (hostForm_orderly type has) fun form _ _ made => ?_
      cases form with
      | some host => exact .pure (made host rfl)
      | none => exact .throw _
    refine .bind (accepts_orderly type value) fun accepted _ grows _ => ?_
    cases accepted with
    | true => exact formed (grows.has has)
    | false =>
        exact .bind (α := Unit) (.throw _) fun _ _ further _ => formed (further.has (grows.has has))
  refine .of_get ?_
  split
  · exact .bind (α := Unit) (.throw _) fun _ _ grows _ => .of_get (converted _ (grows.has has))
  · exact .of_get (converted _ has)

theorem bindHost_orderly (id : InstanceId) (place : Nat) {host : HostId} (has : world.Has host) :
    OrderlyAt (bindHost id place host) world := by
  refine .of_get ?_
  cases sits : world.level? id place with
  | none => exact .change (.adoptHost id has)
  | some level =>
      exact .bind (.change (.bindReference level.reference has)) fun _ _ grows _ =>
        .change (.adoptHost id (grows.has has))

theorem requireStoreAssembly_orderly (id : StoreId) :
    OrderlyAt (requireStoreAssembly id) world := by
  refine .of_get ?_
  split
  · exact .throw _
  · exact requireAssembly_orderly

theorem has_directValue? {object : HostObject} (has : world.Has object) :
    world.Has object.directValue? := by
  cases object with
  | dynamic value => exact has_some has
  | unit | boolean | int64 | int32 | float64 | text | staticText => exact has_some trivial
  | vector | counter | byte => exact has_none

variable {perform : Perform} (nested : perform.Orderly)
include nested

theorem wrapHost_orderly {host : HostId} (has : world.Has host) :
    OrderlyAt (wrapHost perform host) world := by
  refine .given fun order => .of_get ?_
  split
  · exact .pure has
  · next id described =>
      have registered : world.Has id := order.classForHost? _ id described
      refine .bind (newInstance_orderly registered .wrapper) fun created _ grows made => ?_
      refine .bind (bindHost_orderly created 0 (grows.has has)) fun _ _ further _ => ?_
      refine .bind (nested.construct .wrapper (further.has made) has_nil) fun _ _ last _ => ?_
      exact .pure (last.has (further.has made))

omit nested in
theorem coerceBack_orderly (type : ValueType) {value : Value} (has : world.Has value) :
    OrderlyAt (coerceBack type value) world := by
  refine .bind (coerce?_orderly type has) fun result _ _ known => ?_
  cases result with
  | some result => exact .pure (known result rfl)
  | none => exact .of_get (.throw _)

theorem fromHost_orderly (type : ValueType) {host : HostId} (has : world.Has host) :
    OrderlyAt (fromHost perform type host) world := by
  have taken : ∀ {world : World} {object : HostObject}, world.Has host → world.Has object →
      OrderlyAt (takeBack perform type host object) world := by
    intro world object has payload
    have direct := has_directValue? payload
    unfold takeBack
    cases given : object.directValue? with
    | some value =>
        exact .bind (.pure (direct value given)) fun _ _ _ known => coerceBack_orderly type known
    | none =>
        exact .bind (wrapHost_orderly nested has) fun _ _ _ known => coerceBack_orderly type known
  refine .bind (hostObject_orderly host) fun object after grows payload => .of_get ?_
  have has := grows.has has
  by_cases selective : after.marshaling = .selective
  · rw [if_pos selective]
    cases refusedCount? object with
    | some name =>
        exact .bind (α := Unit) (.throw _) fun _ _ further _ =>
          taken (further.has has) (further.has payload)
    | none => exact taken has payload
  · rw [if_neg selective]
    exact taken has payload

/-! ## Annotations -/

theorem createAnnotation_orderly (use : AnnotationUse ClassRefId) (target : String)
    {receiver : Option Receiver} (context : ContextId) (has : world.Has receiver) :
    OrderlyAt ( createAnnotation perform use target receiver context) world := by
  refine .of_get (.bind (resolveRef?_orderly use.cls) fun found _ grows known => ?_)
  cases found with
  | none => exact .throw _
  | some id =>
      refine .wrapFault ?_
      have site : ∀ {world : World}, world.Has receiver →
          world.Has (some (⟨context, receiver, []⟩ : Invocation)) :=
        fun has => has_some ⟨has, has_nil⟩
      refine .bind (evaluateAll_orderly nested (site (grows.has has)) use.args)
        fun args _ further given => ?_
      exact instantiate_orderly nested _ (further.has (known id rfl)) given

theorem createAnnotations_orderly (target : String) {receiver : Option Receiver}
    (context : ContextId) (uses : List (AnnotationUse ClassRefId)) (has : world.Has receiver) :
    OrderlyAt (createAnnotations perform target receiver context uses) world := by
  induction uses generalizing world with
  | nil => exact .pure has_nil
  | cons use rest ih =>
      refine .bind (createAnnotation_orderly nested use target context has)
        fun created _ grows made => ?_
      exact .bind (ih (grows.has has)) fun _ _ further more =>
        .pure (has_cons (further.has made) more)

end

/-! ## Variables -/

section

variable {world : World}

theorem annotateSlot_orderly (id : StoreId) (name : String) {annotations : List InstanceId}
    (has : world.Has annotations) : OrderlyAt (annotateSlot id name annotations) world := by
  have attaches : ∀ {world : World}, world.Has annotations → world.Advances
      (world.withStore id (·.modify name fun slot => { slot with annotations := annotations })) := by
    intro world has
    refine .modify id name (fun slot _ => .annotate slot annotations) fun _ slot _ fits => ?_
    exact { fits with annotations := has }
  refine .of_get ?_
  split
  · exact .change (attaches has)
  · exact .bind (α := Unit) (.throw _) fun _ _ grows _ => .change (attaches (grows.has has))

/-- The stored form of an accepted value is accepted, and no integer where a float is due. -/
theorem accepts_widen {type : ValueType} {value : Value}
    (accepted : world.accepts type value = true) :
    world.accepts type (type.widen value) = true ∧
      ∀ word, type.widen value = .int word → type ≠ .float := by
  cases type with
  | float =>
      cases value with
      | int word => exact ⟨rfl, fun _ same => by cases same⟩
      | null | bool | float | text | table | function | object | host =>
          exact ⟨accepted, fun _ same => by cases same⟩
  | any | null | bool | int | text | table | function | object | host =>
      exact ⟨accepted, fun _ _ same => by cases same⟩

theorem writeSlot_orderly {id : StoreId} {name : String} {slot : Slot} {value : Value}
    (there : ∃ later, (world.store id).slot? name = some later ∧ slot.Persists later)
    (isMutable : slot.immutable = false) (has : world.Has value)
    (accepted : world.accepts slot.type value = true) :
    OrderlyAt
      (Exec.change (·.withStore id (·.modify name (·.write (slot.type.widen value))))) world := by
  obtain ⟨later, found, persists⟩ := there
  obtain ⟨stored, widened⟩ := accepts_widen accepted
  refine .change (.modify id name (fun current at_ => ?_) fun _ current at_ fits => ?_)
  · rw [found] at at_
    cases at_
    exact .write _ (persists.immutable.trans isMutable)
  · rw [found] at at_
    cases at_
    obtain ⟨type, content, annotations, immutable⟩ := later
    cases content with
    | host accessor reference => exact fits
    | script old =>
        have same : type = slot.type := persists.type
        subst same
        refine ⟨fits.annotations, fun given kept => ?_, fun given kept => ?_, fun word kept => ?_⟩
        · cases kept
          exact has_widen has slot.type
        · cases kept
          exact stored
        · injection kept with kept
          injection kept with kept
          exact widened word kept

theorem storeValue_orderly {id : StoreId} {name : String} {slot : Slot}
    (there : ∃ later, (world.store id).slot? name = some later ∧ slot.Persists later)
    (isMutable : slot.immutable = false) {value : Value} (has : world.Has value) :
    OrderlyAt (storeValue id name slot value) world := by
  have asked := coerce?_apply slot.type value world
  have follows := Advances.resolveBases world (world.visitedByAccepts slot.type value)
  refine .given fun order => ?_
  have grows := (follows order).1
  cases accepted : world.accepts slot.type value with
  | false =>
      rw [if_neg (by simp [accepted])] at asked
      refine .congr (bind_of_done _ asked) follows ?_
      exact .bind (typeNameOf_orderly value) fun _ _ _ _ => .throw _
  | true =>
      rw [if_pos accepted] at asked
      refine .congr (bind_of_done _ asked) follows ?_
      obtain ⟨later, found, persists⟩ := there
      obtain ⟨latest, still, again⟩ := grows.slots id name later found
      have accepts := (accepts_resolveBases world
        (world.visitedByAccepts slot.type value) slot.type value).trans accepted
      obtain ⟨type, content, annotations, immutable⟩ := slot
      cases content with
      | script old =>
          exact writeSlot_orderly ⟨latest, still, persists.trans again⟩ isMutable (grows.has has)
            accepts
      | host accessor reference =>
          have known := has_widen (grows.has has) type
          refine .bind (requireStoreAssembly_orderly id) fun _ _ further _ => ?_
          refine .bind (resolveReference_orderly reference) fun host _ more _ => ?_
          refine .bind (toHost_orderly (more.has (further.has known)) type) fun raw _ _ _ => ?_
          exact accessor.write_orderly host raw

variable {perform : Perform} (nested : perform.Orderly)
include nested

theorem writeHooks_orderly (id : StoreId) (name : String) (slot : Slot) {value : Value}
    (has : world.Has value) : OrderlyAt (writeHooks perform id name slot value) world := by
  unfold writeHooks
  split
  · exact .pure has
  · exact .bind (requireStoreAssembly_orderly id) fun _ _ grows _ =>
      intercept_orderly nested _ name _ (grows.has has)

theorem readSlot_orderly (id : StoreId) (name : String) :
    OrderlyAt (readSlot perform id name) world := by
  have intercepted : ∀ {world : World} (slot : Slot) {value : Value}, world.Has value →
      OrderlyAt (do
        if slot.annotations.isEmpty then return value
        requireStoreAssembly id
        intercept perform .onRead name value slot.annotations : Exec Value) world := by
    intro world slot value has
    split
    · exact .pure has
    · exact .bind (requireStoreAssembly_orderly id) fun _ _ grows _ =>
        intercept_orderly nested _ name _ (grows.has has)
  refine .given fun order => .of_get ?_
  cases found : (world.store id).slot? name with
  | none => exact .throw _
  | some slot =>
      obtain ⟨before, after, split, _⟩ := List.lookup_eq_some_iff.mp found
      have fits := order.holds.slots id (name, slot) (by rw [split]; simp)
      obtain ⟨type, content, annotations, immutable⟩ := slot
      cases content with
      | script value =>
          cases value with
          | none => exact .bind (α := Value) (.throw _) fun _ _ _ known => intercepted _ known
          | some value =>
              exact .bind (.pure (fits.known value rfl)) fun _ _ _ known => intercepted _ known
      | host accessor reference =>
          refine .bind (resolveReference_orderly reference) fun host _ _ known => ?_
          refine .bind (accessor.read_orderly known) fun raw _ _ made => ?_
          refine .bind (requireStoreAssembly_orderly id) fun _ _ grows _ => ?_
          exact .bind (fromHost_orderly nested type (grows.has made)) fun _ _ _ given =>
            intercepted _ given

theorem assignSlot_orderly (id : StoreId) (name : String) {value : Value} (has : world.Has value) :
    OrderlyAt (assignSlot perform id name value) world := by
  cases found : (world.store id).slot? name with
  | none => exact .of_failed (assignSlot_of_missing perform value found) (.refl world)
  | some slot =>
      cases held : slot.immutable with
      | true => exact .of_failed (assignSlot_of_immutable perform value found held) (.refl world)
      | false =>
          refine .congr (assignSlot_of_mutable perform value found held) (.refl world) ?_
          exact .bind (writeHooks_orderly nested id name slot has) fun result _ grows given =>
            storeValue_orderly (grows.slots id name slot found) held given

/-! ## Functions as slots -/

omit nested in
/-- Taking the slot away again that was put there before leaves the state in order, with all
slots from before. -/
theorem World.InOrder.withdraw {first last : World} {store : StoreId} {name : String} {slot : Slot}
    (free : (first.store store).declares name = false)
    (grows : (first.withStore store (·.insert name slot)).Grows last) (order : last.InOrder) :
    first.Grows (last.withStore store (·.erase name)) ∧
      (last.withStore store (·.erase name)).InOrder := by
  have inserted : first.KeepsTypes (first.withStore store (·.insert name slot)) := {}
  have erased : last.KeepsTypes (last.withStore store (·.erase name)) := {}
  refine ⟨⟨(inserted.trans grows.toKeepsTypes).trans erased, .withdraw free grows.slots⟩,
    order.placed, .later ?_ order.placed erased⟩
  refine { order.holds with homes := fun other => ?_, slots := fun other => ?_ }
  · have home : ((last.withStore store (·.erase name)).store other).home = (last.store other).home :=
      Heap.get_modify_of _ _ _ _ Store.home fun _ => rfl
    rw [home]
    exact order.holds.homes other
  · rw [store_withStore]
    split
    · exact fun entry member => order.holds.slots store entry (List.mem_of_mem_filter member)
    · exact order.holds.slots other

theorem attachAnnotations_orderly (id : StoreId) (function : Function)
    {receiver : Option Receiver} (context : ContextId) (has : world.Has receiver) :
    OrderlyAt (attachAnnotations perform id function receiver context) world :=
  .bind (createAnnotations_orderly nested _ context function.annotations has)
    fun _ _ _ known => annotateSlot_orderly id function.name known

theorem installFunction_orderly {id : StoreId} {function : Function} {receiver : Option Receiver}
    (has : world.Has receiver) :
    OrderlyAt (installFunction perform id function receiver) world := by
  let made : World :=
    { world with callables := world.callables.push (.ofFunction function receiver) }
  have makes : world.Advances made := .pushCallable has
  cases taken : (world.store id).declares function.name with
  | true => exact .of_failed (installFunction_of_taken perform receiver taken) makes
  | false =>
      have inserts : made.Advances (world.install id function receiver) :=
        .insert id function.name (fits_function _)
      by_cases plain : function.annotations = []
      · exact .of_done (installFunction_of_plain perform receiver taken plain)
          (makes.trans inserts) fun _ => trivial
      · let ready : World := { world.install id function receiver with
          contexts := world.contexts.push (.fresh world.config.maxCallDepth) }
        have opens : (world.install id function receiver).Advances ready := .pushContext _
        intro order
        obtain ⟨grows, ordered⟩ := makes order
        obtain ⟨opened, waiting⟩ := (inserts.trans opens) ordered
        obtain ⟨attached, last, _⟩ := attachAnnotations_orderly nested id function
          world.contexts.next ((grows.trans opened).has has) waiting
        rw [installFunction_of_annotated perform receiver taken plain]
        unfold attachOrWithdraw Exec.recover
        rcases ends : attachAnnotations perform id function receiver world.contexts.next ready with
          ⟨outcome, after⟩
        rw [ends] at attached last
        cases outcome with
        | done result => exact ⟨(grows.trans opened).trans attached, last, fun _ _ => trivial⟩
        | failed fault =>
            have free : (made.store id).declares function.name = false := taken
            have inside : (made.withStore id (·.insert function.name
                (.function world.callables.next))).Grows after :=
              ((opens (inserts ordered).2).1).trans attached
            obtain ⟨kept, order⟩ := World.InOrder.withdraw free inside last
            exact ⟨grows.trans kept, order, fun _ same => by cases same⟩
        | exhausted => exact ⟨(grows.trans opened).trans attached, last, fun _ _ => trivial⟩

omit nested in
/-- What a store binds a function to exists. -/
theorem has_offer? (order : world.InOrder) {id : StoreId} {name : String} {function : Function}
    {receiver : Option Receiver} (offered : world.offer? id name = some (function, receiver)) :
    world.Has receiver := by
  have home := order.holds.homes id
  unfold World.offer? at offered
  cases sits : (world.store id).home with
  | free attached =>
      rw [sits] at offered
      cases offered
  | level owner place cls tier =>
      rw [sits] at offered home
      obtain ⟨found, _, same⟩ := Option.map_eq_some_iff.mp offered
      cases same
      exact has_some home
  | root tier =>
      rw [sits] at offered
      obtain ⟨found, _, same⟩ := Option.map_eq_some_iff.mp offered
      cases same
      exact has_none

theorem materialize_orderly (id : StoreId) (name : String) :
    OrderlyAt (materialize perform id name) world := by
  cases alive : world.alive with
  | false =>
      by_cases home : ∃ attached, (world.store id).home = .free attached
      · obtain ⟨attached, free⟩ := home
        exact .of_done (materialize_of_free perform free) (.refl world) fun _ => trivial
      · have bound : ∀ attached, (world.store id).home ≠ .free attached :=
          fun attached free => home ⟨attached, free⟩
        exact .of_failed (materialize_of_dropped perform bound alive) (.refl world)
  | true =>
      have asked : world.Advances (world.askedFor id name) := by
        unfold World.askedFor
        split
        · split
          · exact .refl world
          · exact .resolveBases world _
        · exact .refl world
        · exact .refl world
      cases offered : world.offer? id name with
      | none => exact .of_done (materialize_of_none perform alive offered) asked fun _ => trivial
      | some offer =>
          obtain ⟨function, receiver⟩ := offer
          have made := materialize_of_some perform alive offered
          by_cases living : (receiver.all fun target => (world.object target.owner).alive) = true
          · rw [if_pos living] at made
            refine .given fun order => .congr made asked ?_
            have bound := (asked order).1.has (has_offer? order offered)
            exact .bind (installFunction_orderly nested bound) fun _ _ _ _ => .pure trivial
          · rw [if_neg living] at made
            exact .of_failed made asked

/-! ## Stores and scopes -/

omit nested in
theorem orElseMissing_orderly {α : Type} [Naming α] (name : String) {run next : Exec α}
    (first : OrderlyAt run world) (second : ∀ after, world.Grows after → OrderlyAt next after) :
    OrderlyAt (orElseMissing name run next) world := by
  refine .recover first fun fault after grows => ?_
  split
  · exact second after grows
  · exact .throw fault

theorem readStore_orderly (id : StoreId) (name : String) :
    OrderlyAt (readStore perform id name) world := by
  refine orElseMissing_orderly name (readSlot_orderly nested id name) fun _ _ => ?_
  refine .bind (materialize_orderly nested id name) fun made _ _ _ => ?_
  cases made with
  | true => exact readSlot_orderly nested id name
  | false => exact .throw _

theorem assignStore_orderly (id : StoreId) (name : String) {value : Value} (has : world.Has value) :
    OrderlyAt (assignStore perform id name value) world := by
  refine orElseMissing_orderly name (assignSlot_orderly nested id name has) fun _ _ => ?_
  refine .bind (materialize_orderly nested id name) fun made _ _ _ => ?_
  cases made <;> exact .throw _

end

mutual

theorem readScope_orderly {perform : Perform} (nested : perform.Orderly) (name : String)
    {world : World} : (scope : Scope) → OrderlyAt (readScope perform name scope) world
  | .store id => by
      unfold readScope
      exact readStore_orderly nested id name
  | .composite sources => by
      unfold readScope
      exact readSources_orderly nested name sources

theorem readSources_orderly {perform : Perform} (nested : perform.Orderly) (name : String)
    {world : World} : (sources : List Scope) → OrderlyAt (readSources perform name sources) world
  | [] => by
      unfold readSources
      exact .throw _
  | source :: rest => by
      unfold readSources
      exact orElseMissing_orderly name (readScope_orderly nested name source) fun _ _ =>
        readSources_orderly nested name rest

end

mutual

theorem assignScope_orderly {perform : Perform} (nested : perform.Orderly) (name : String)
    {value : Value} {world : World} (has : world.Has value) :
    (scope : Scope) → OrderlyAt (assignScope perform name value scope) world
  | .store id => by
      unfold assignScope
      exact assignStore_orderly nested id name has
  | .composite sources => by
      unfold assignScope
      exact assignSources_orderly nested name has sources

theorem assignSources_orderly {perform : Perform} (nested : perform.Orderly) (name : String)
    {value : Value} {world : World} (has : world.Has value) :
    (sources : List Scope) → OrderlyAt (assignSources perform name value sources) world
  | [] => by
      unfold assignSources
      exact .throw _
  | source :: rest => by
      unfold assignSources
      exact orElseMissing_orderly name (assignScope_orderly nested name has source) fun _ grows =>
        assignSources_orderly nested name (grows.has has) rest

end

section

variable {world : World} {perform : Perform} (nested : perform.Orderly)
include nested

/-! ## Construction -/

theorem initializeField_orderly (field : Field) {receiver : Receiver} (store : StoreId)
    (context : ContextId) (bound : world.Has receiver) :
    OrderlyAt (initializeField perform receiver store field context) world := by
  obtain ⟨name, access, type, storage, annotations, owner⟩ := field
  cases storage with
  | host accessor => exact .pure trivial
  | script initializer =>
      cases initializer with
      | none => exact .pure trivial
      | some initializer =>
          have site : world.Has (some (⟨context, some receiver, []⟩ : Invocation)) :=
            has_some ⟨has_some bound, has_nil⟩
          exact .of_get (.wrapFault (.bind (evaluate_orderly nested site initializer)
            fun _ _ _ known => nested.assign _ name known))

theorem constructField_orderly (className : String) {receiver : Receiver} (level : Level)
    (options : CreateOptions) (context : ContextId) (field : Field) (bound : world.Has receiver) :
    OrderlyAt (constructField perform className receiver level options context field) world := by
  cases wanted : options.has field.flag with
  | false =>
      rw [constructField_of_unwanted wanted]
      exact .pure trivial
  | true =>
      rw [constructField_of_wanted wanted]
      refine .bind (.wrapFault (insertSlot_orderly _ _ (fits_fieldSlot _ _))) fun _ after grows _ => ?_
      have bound := grows.has bound
      have annotated : OrderlyAt
          (annotateField perform className receiver level options context field) after := by
        unfold annotateField
        split
        · refine .bind (createAnnotations_orderly nested _ context _ (has_some bound))
            fun created _ _ made => ?_
          exact .wrapFault (annotateSlot_orderly _ _ made)
        · exact .pure trivial
      refine .bind annotated fun _ _ further _ => ?_
      unfold fillField
      split
      · exact initializeField_orderly nested field _ context (further.has bound)
      · exact .pure trivial

theorem constructFields_orderly (className : String) {receiver : Receiver} (level : Level)
    (options : CreateOptions) (context : ContextId) (fields : List Field)
    (bound : world.Has receiver) :
    OrderlyAt (constructFields perform className receiver level options context fields) world := by
  induction fields generalizing world with
  | nil => exact .pure trivial
  | cons field rest ih =>
      exact .bind (constructField_orderly nested className level options context field bound)
        fun _ _ grows _ => ih (grows.has bound)

omit nested in
/-- Annotations are attached to an instance after those it has. -/
theorem World.Advances.attach {created : List InstanceId} (id : InstanceId)
    (has : world.Has created) :
    world.Advances (world.withObject id fun object =>
      { object with annotations := object.annotations ++ created }) :=
  .withObject id (fun _ => rfl) (fun _ _ same => same) fun _ known =>
    ⟨known.1, known.2.1, has_append known.2.2.1 has, known.2.2.2⟩

theorem constructLevel_orderly {id : InstanceId} (options : CreateOptions) (context : ContextId)
    (place : Nat) (bound : world.Has id) :
    OrderlyAt (constructLevel perform id options context place) world := by
  cases sits : world.level? id place with
  | none => exact .of_done (constructLevel_of_none sits) (.refl world) fun _ => trivial
  | some level =>
      have receiver : ∀ {world : World}, world.Has id → world.Has (⟨id, place⟩ : Receiver) :=
        fun has => has
      refine .congr (constructLevel_of_some sits) (.refl world) ?_
      have annotated : OrderlyAt
          (annotateLevel perform id options context place (world.cls level.cls)) world := by
        unfold annotateLevel
        split
        · refine .bind (createAnnotations_orderly nested _ context _ (has_some (receiver bound)))
            fun created _ _ made => ?_
          exact .change (.attach id made)
        · exact .pure trivial
      exact .bind annotated fun _ _ grows _ =>
        constructFields_orderly nested _ level options context _ (receiver (grows.has bound))

theorem constructLevels_orderly {id : InstanceId} (options : CreateOptions) (context : ContextId)
    (place : Nat) (bound : world.Has id) :
    OrderlyAt (constructLevels perform id options context place) world := by
  induction place generalizing world with
  | zero => exact .pure trivial
  | succ place ih =>
      exact .bind (constructLevel_orderly nested options context place bound) fun _ _ grows _ =>
        ih (grows.has bound)

theorem resolveConstructor_orderly (id : InstanceId) :
    OrderlyAt (resolveConstructor perform id) world := by
  refine .of_get (.bind (metaLink?_orderly _ _) fun link _ _ _ => ?_)
  cases link with
  | none => exact .of_get (newCallable_orderly has_none)
  | some link =>
      refine .of_get (.bind (openScope?_orderly id _) fun scope _ _ _ => ?_)
      cases scope with
      | none => exact .throw _
      | some scope => exact .bind (nested.read scope _) fun value _ _ _ => requireFunction_orderly value

omit nested in
theorem has_replacedArgs (order : world.InOrder) {args : List Value} (has : world.Has args)
    (result : Option Value) : world.Has (replacedArgs world args result) := by
  unfold replacedArgs
  split
  · split
    · exact has_sequence (order.holds.tables _)
    · exact has
  · exact has

theorem preConstruct_orderly {id : InstanceId} (context : ContextId) {args : List Value}
    (annotations : List InstanceId) (bound : world.Has id) (has : world.Has args) :
    OrderlyAt (preConstruct perform id context args annotations) world := by
  induction annotations generalizing args world with
  | nil => exact .pure has
  | cons annotation rest ih =>
      refine .bind (newList_orderly has) fun list _ grows listed => ?_
      have subject : ∀ {world : World}, world.Has id → world.Has (Value.object id) := fun has => has
      refine .bind (hook_orderly nested context annotation _
        (has_cons (subject (grows.has bound)) (has_cons listed has_nil))) fun result _ further _ => ?_
      have now := grows.trans further
      exact .given fun order =>
        .of_get (ih (now.has bound) (has_replacedArgs order (now.has has) result))

theorem postConstruct_orderly {id : InstanceId} (context : ContextId) {args : List Value}
    (annotations : List InstanceId) (bound : world.Has id) (has : world.Has args) :
    OrderlyAt (postConstruct perform id context args annotations) world := by
  induction annotations generalizing world with
  | nil => exact .pure trivial
  | cons annotation rest ih =>
      refine .bind (newList_orderly has) fun list _ grows listed => ?_
      have subject : ∀ {world : World}, world.Has id → world.Has (Value.object id) := fun has => has
      refine .bind (hook_orderly nested context annotation _
        (has_cons (subject (grows.has bound)) (has_cons listed has_nil))) fun result _ further _ => ?_
      have now := grows.trans further
      exact ih (now.has bound) (now.has has)

theorem callConstructor_orderly {id : InstanceId} {args : List Value} (context : ContextId)
    (bound : world.Has id) (has : world.Has args) :
    OrderlyAt (callConstructor perform id args context) world := by
  refine .bind (resolveConstructor_orderly nested id) fun constructor after grows _ => ?_
  refine .of_get (.of_get ?_)
  have bound := grows.has bound
  have has := grows.has has
  have phase : OrderlyAt (withFrame context
      (.synthetic ((after.classOf id).name ++ "." ++ MetaKey.preConstruct.methodName))
      (preConstruct perform id context args (after.object id).annotations)) after :=
    .withFrame context _ fun _ => preConstruct_orderly nested context _ bound has
  refine .bind phase fun args _ further given => ?_
  refine .bind (nested.call constructor context given) fun _ _ more _ => ?_
  exact postConstruct_orderly nested context _ (more.has (further.has bound)) (more.has given)

theorem finishInstance_orderly {id : InstanceId} (options : CreateOptions) {args : List Value}
    (className : String) (context : ContextId) (bound : world.Has id) (has : world.Has args) :
    OrderlyAt (finishInstance perform id options args className context) world := by
  have marked : ∀ {world : World}, OrderlyAt (do
      if options.has .markInitialized then
        Exec.change (·.withObject id fun object => { object with initialized := true }) :
          Exec Unit) world := by
    intro world
    split
    · exact .change (.withObject id (fun _ => rfl) (fun _ _ same => same) fun _ known => known)
    · exact .pure trivial
  unfold finishInstance
  by_cases wanted : options.has .callConstructor = true
  · rw [if_pos wanted]
    exact .bind (.wrapFault (callConstructor_orderly nested context bound has)) fun _ _ _ _ => marked
  · rw [if_neg wanted]
    exact marked

omit nested in
theorem constructionContext_orderly (options : CreateOptions) :
    OrderlyAt (constructionContext options) world := by
  unfold constructionContext
  split
  · exact .pure trivial
  · exact newConfiguredContext_orderly

theorem constructInstance_orderly {id : InstanceId} (options : CreateOptions) {args : List Value}
    (bound : world.Has id) (has : world.Has args) :
    OrderlyAt (constructInstance perform id options args) world := by
  cases initialized : (world.object id).initialized with
  | true => exact .of_failed (constructInstance_of_initialized initialized) (.refl world)
  | false =>
      refine .congr (constructInstance_of_new initialized) (.refl world) ?_
      refine .bind (constructionContext_orderly options) fun context _ grows _ => ?_
      refine .bind (constructLevels_orderly nested options context _ (grows.has bound))
        fun _ _ further _ => ?_
      have now := grows.trans further
      exact finishInstance_orderly nested options _ context (now.has bound) (now.has has)

/-! ## Calls -/

omit nested in
theorem liveReceiver_orderly {callable : Callable} (has : world.Has callable) :
    OrderlyAt (liveReceiver callable) world := by
  unfold liveReceiver
  split
  · exact .pure has_none
  · next receiver bound =>
      have known : world.Has (some receiver) := has_some (has receiver bound)
      refine .of_get ?_
      split
      · exact .pure known
      · exact .bind (α := Unit) (.throw _) fun _ _ grows _ => .pure (grows.has known)

omit nested in
theorem requireReceiver_orderly {callable : Callable} (has : world.Has callable) :
    OrderlyAt (requireReceiver callable) world := by
  refine .bind (liveReceiver_orderly has) fun receiver _ _ known => ?_
  cases receiver with
  | none => exact .throw _
  | some receiver => exact .pure (known receiver rfl)

omit nested in
theorem marshalArguments_orderly (params : List ValueType) {args : List Value}
    (has : world.Has args) : OrderlyAt (marshalArguments params args) world := by
  have handed : ∀ (pairs : List (ValueType × Value)) {world : World},
      (∀ pair ∈ pairs, world.Has pair.2) → OrderlyAt (hostArguments pairs) world := by
    intro pairs
    induction pairs with
    | nil => exact fun _ => .pure has_nil
    | cons pair rest ih =>
        intro world has
        obtain ⟨head, tail⟩ := List.forall_mem_cons.mp has
        refine .bind (toHost_orderly head pair.1) fun host _ grows made => ?_
        exact .bind (ih fun other member => grows.has (tail other member)) fun _ _ further more =>
          .pure (has_cons (further.has made) more)
  refine .bind (checkArity_orderly _ _) fun _ _ grows _ => ?_
  exact handed _ fun pair member => grows.has (has pair.2 (List.of_mem_zip member).2)

omit nested in
theorem levelHost_orderly (receiver : Receiver) : OrderlyAt (levelHost receiver) world := by
  have found : OrderlyAt (levelReference receiver) world := by
    refine .of_get ?_
    split
    · exact .pure trivial
    · exact .throw _
  exact .bind found fun reference _ _ _ => resolveReference_orderly reference

theorem forwardToBase_orderly (receiver : Receiver) {args : List Value} (context : ContextId)
    (has : world.Has args) : OrderlyAt (forwardToBase perform receiver args context) world := by
  refine .of_get ?_
  cases world.level? receiver.owner (receiver.level + 1) with
  | none => exact .pure trivial
  | some base =>
      refine .bind (metaLink?_orderly _ _) fun link _ grows _ => ?_
      cases link with
      | none => exact .pure trivial
      | some link =>
          refine .of_get (.bind (openScope?_orderly _ _) fun scope _ further _ => ?_)
          cases scope with
          | none => exact .throw _
          | some scope =>
              refine .bind (nested.read scope _) fun value _ more _ => ?_
              refine .bind (requireFunction_orderly value) fun constructor _ last _ => ?_
              exact nested.call constructor context
                (last.has (more.has (further.has (grows.has has))))

theorem runBody_orderly {callable : Callable} (body : FunctionBody) {args : List Value}
    (context : ContextId) (bound : world.Has callable) (has : world.Has args) :
    OrderlyAt (runBody perform callable body args context) world := by
  cases body with
  | script expr =>
      refine .bind (liveReceiver_orderly bound) fun receiver _ grows known => ?_
      exact evaluate_orderly nested (has_some ⟨known, grows.has has⟩) expr
  | hostMethod method =>
      refine .bind (requireReceiver_orderly bound) fun receiver _ grows _ => ?_
      refine .bind (levelHost_orderly receiver) fun host _ further held => ?_
      refine .bind (marshalArguments_orderly _ (further.has (grows.has has))) fun args _ more given => ?_
      refine .bind (method.invoke_orderly (more.has held) given) fun result _ _ made => ?_
      exact fromHost_orderly nested _ made
  | hostConstructor constructor =>
      refine .bind (requireReceiver_orderly bound) fun receiver _ grows _ => ?_
      refine .bind (marshalArguments_orderly _ (grows.has has)) fun args _ _ _ => ?_
      refine .bind (constructor.invoke_orderly args) fun host _ _ made => ?_
      exact .bind (bindHost_orderly _ _ made) fun _ _ _ _ => .pure trivial
  | passThrough =>
      exact .bind (requireReceiver_orderly bound) fun receiver _ grows _ =>
        forwardToBase_orderly nested receiver context (grows.has has)
  | abstract => exact .throw _

omit nested in
theorem checkReturn_orderly (returns : ValueType) {result : Value} (has : world.Has result) :
    OrderlyAt (checkReturn returns result) world := by
  have coerced : OrderlyAt (coerceReturn returns result) world := by
    refine .bind (coerce?_orderly returns has) fun stored _ _ known => ?_
    cases stored with
    | some stored => exact .pure (known stored rfl)
    | none => exact .bind (typeNameOf_orderly _) fun _ _ _ _ => .throw _
  refine .of_get ?_
  split
  · exact .pure has
  · exact coerced

theorem callFunction_orderly (id : CallableId) {args : List Value} (context : ContextId)
    (has : world.Has args) : OrderlyAt (callFunction perform id args context) world := by
  refine .bind requireAssembly_orderly fun _ after grows _ => ?_
  refine .given fun order => .of_get (.withFrame context _ fun deeper => ?_)
  cases held : (after.callables.get id).function with
  | none => exact .pure trivial
  | some function =>
      exact .bind (runBody_orderly nested function.body context (order.holds.callables id)
        (grows.has has)) fun result _ _ known => checkReturn_orderly function.returns known

end

/-! ## The machine -/

theorem step_orderly {perform : Perform} (nested : perform.Orderly) : (step perform).Orderly where
  call callable _ context _ has := callFunction_orderly nested callable context has
  read scope name _ := readScope_orderly nested name scope
  assign scope name _ _ has := assignScope_orderly nested name has scope
  construct options _ _ bound has := constructInstance_orderly nested options bound has

/-- Whatever the machine does within a budget is orderly. -/
theorem performUpTo_orderly (budget : Nat) : (performUpTo budget).Orderly := by
  have spent : ∀ {α : Type} [Naming α] {world : World}, OrderlyAt (Exec.exhaust : Exec α) world :=
    fun order => ⟨.refl _, order, fun _ same => by cases same⟩
  induction budget with
  | zero => exact ⟨fun _ _ _ _ _ => spent, fun _ _ _ => spent, fun _ _ _ _ _ => spent,
      fun _ _ _ _ _ => spent⟩
  | succ budget ih => exact step_orderly ih

end ScriptObjects

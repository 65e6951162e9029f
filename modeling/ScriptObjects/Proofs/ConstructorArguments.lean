import ScriptObjects.Proofs.Collisions
import ScriptObjects.Proofs.HookCalls
import ScriptObjects.Proofs.Tables

/-!
# The arguments of a constructor

A constructor runs between the hooks of the annotations of its instance.  Every hook receives the
arguments as a table of its own, made for that call alone: no state before the call has a table of
that number, so that nobody else can hold it.  A hook in front of the constructor may answer with
other arguments, which are then taken over item by item.

So the arguments travel as a list of values, not as a table.  A hook has the one chance to change
them that its answer gives; what it does later to a table that it received or answered with is
seen by no other hook and not by the constructor.
-/

namespace ScriptObjects

set_option autoImplicit false

open Exec World

/-! ## Tables are only added -/

theorem Proceeds.tables {first second : World} (proceeds : Proceeds first second) :
    first.tables.size ≤ second.tables.size := by
  induction proceeds with
  | refl => exact Nat.le_refl _
  | @run second third _ change ih =>
      refine Nat.le_trans ih ?_
      cases change with
      | table => simp
      | setTable id update => exact Nat.le_of_eq (Heap.size_modify ..).symm
      | touch reference => rw [touchRef_eq]
      | allocate id =>
          show second.tables.size ≤
            (second.lay second.instances.next 0 (second.ancestors id)).2.tables.size
          rw [lay_eq]
      | _ => exact Nat.le_refl _
  | host _ change ih =>
      refine Nat.le_trans ih ?_
      cases change <;> exact Nat.le_refl _

/-! ## Frames -/

theorem Context.eq_of_push? {context deeper : Context} {frame : Frame}
    (pushed : context.push? frame = .ok deeper) :
    deeper = ⟨frame :: context.frames, context.limit⟩ := by
  unfold Context.push? at pushed
  split at pushed
  · split at pushed <;> cases pushed
    rfl
  · cases pushed
    rfl

/-! ## Calls of hooks -/

/-- A call of a hook around a constructor, to which the arguments are passed. -/
abbrev ArgumentCall := HookCall (List Value)

namespace HookCall

/-- The table that the hook receives. -/
def list (call : ArgumentCall) : TableId := call.before.tables.next

/-- The state in which the hook begins. -/
def given (call : ArgumentCall) : World :=
  { call.before with tables := call.before.tables.push (.ofList call.passed) }

/-- The hook of the annotation is called with the instance and the new list. -/
def Happens (perform : Perform) (id : InstanceId) (context : ContextId) (key : MetaKey)
    (call : ArgumentCall) : Prop :=
  hook perform context call.attached key [.object id, .table call.list] call.given =
    (call.answer, call.after)

/-- The table that a hook receives holds the arguments, and there was none of its number. -/
theorem list_given (call : ArgumentCall) :
    call.given.tables.get call.list = .ofList call.passed ∧
      call.list.index = call.before.tables.size :=
  ⟨Heap.get_push_next _ _, rfl⟩

end HookCall

/-- What an answer makes of the arguments: a table with another table under `new_args` replaces them
by the items of that one, and any other answer leaves them as they are. -/
inductive Replaces (world : World) (args : List Value) : Option Value → List Value → Prop
  | replaced {table list : TableId}
      (entry : (world.tables.get table).get (.text "new_args") = .table list) :
      Replaces world args (some (.table table)) (world.tables.get list).sequence
  | unchanged {answer : Option Value}
      (other : ∀ table list, answer = some (.table table) →
        (world.tables.get table).get (.text "new_args") ≠ .table list) :
      Replaces world args answer args

theorem replaces_replacedArgs (world : World) (args : List Value) (answer : Option Value) :
    Replaces world args answer (replacedArgs world args answer) := by
  have untouched : (∀ table, answer ≠ some (.table table)) → Replaces world args answer args :=
    fun none => .unchanged fun table _ same => absurd same (none table)
  unfold replacedArgs
  split
  · next table =>
      split
      · next list entry => exact .replaced entry
      · next other =>
          refine .unchanged fun _ list same => ?_
          cases same
          exact other list
  · next other => exact untouched other

/-- The calls of the hooks in front of a constructor, whose answers may replace the arguments. -/
abbrev PreCalls (perform : Perform) (id : InstanceId) (context : ContextId) :=
  HookCalls (HookCall.Happens perform id context .preConstruct)
    (fun call answer left => Replaces call.after call.passed answer left) fun args => args

/-- The calls of the hooks behind a constructor, whose answers count for nothing. -/
abbrev PostCalls (perform : Perform) (id : InstanceId) (context : ContextId) :=
  HookCalls (HookCall.Happens perform id context .postConstruct)
    (fun call _ left => left = call.passed) fun _ => ()

section

variable (perform : Perform) (id : InstanceId) (context : ContextId)

/-- A hook receives the arguments in a new list, and then, if it answered, the others are called. -/
theorem HookCalls.first_of_list {α : Type} {key : MetaKey}
    {leaves : ArgumentCall → Option Value → List Value → Prop} {finish : List Value → α}
    {attached : InstanceId} {rest : List InstanceId} {args : List Value} {world : World}
    {next : Option Value → Exec α}
    (others : ∀ answer after, ∃ left,
      leaves ⟨attached, args, world, .done answer, after⟩ answer left ∧
      ∃ calls outcome last, next answer after = (outcome, last) ∧
        HookCalls (HookCall.Happens perform id context key) leaves finish rest left after calls
          outcome last) :
    ∃ calls outcome last, (do
      let list ← newList args
      let answer ← hook perform context attached key [.object id, list]
      next answer : Exec α) world = (outcome, last) ∧
      HookCalls (HookCall.Happens perform id context key) leaves finish (attached :: rest) args
        world calls outcome last := by
  have made : newList args world = (.done (.table world.tables.next),
      { world with tables := world.tables.push (.ofList args) }) := rfl
  rw [bind_of_done _ made]
  exact HookCalls.first (fun answer after hooked => hooked) fun answer after _ => others answer after

theorem preConstruct_calls (annotations : List InstanceId) (args : List Value) (world : World) :
    ∃ calls outcome last, preConstruct perform id context args annotations world = (outcome, last) ∧
      PreCalls perform id context annotations args world calls outcome last := by
  induction annotations generalizing args world with
  | nil => exact ⟨[], _, world, rfl, .finished args world⟩
  | cons attached rest ih =>
      exact HookCalls.first_of_list perform id context fun answer after =>
        ⟨_, replaces_replacedArgs after args answer, ih (replacedArgs after args answer) after⟩

theorem postConstruct_calls (annotations : List InstanceId) (args : List Value) (world : World) :
    ∃ calls outcome last, postConstruct perform id context args annotations world = (outcome, last) ∧
      PostCalls perform id context annotations args world calls outcome last := by
  induction annotations generalizing world with
  | nil => exact ⟨[], _, world, rfl, .finished args world⟩
  | cons attached rest ih =>
      exact HookCalls.first_of_list perform id context fun answer after => ⟨args, rfl, ih after⟩

end

/-! ## What the calls see -/

/-- The tables that hooks receive are new: each was made after everything that happened in the calls
before it. -/
structure NewLists (calls : List ArgumentCall) (world last : World) : Prop where
  grown : world.tables.size ≤ last.tables.size
  within : ∀ call ∈ calls, world.tables.size ≤ call.list.index ∧
    call.list.index < call.after.tables.size ∧ call.after.tables.size ≤ last.tables.size
  apart : calls.Pairwise fun earlier later => earlier.after.tables.size ≤ later.list.index

namespace NewLists

variable {calls more : List ArgumentCall} {first second third : World}

theorem nil (grown : first.tables.size ≤ second.tables.size) : NewLists [] first second :=
  ⟨grown, fun _ member => absurd member List.not_mem_nil, .nil⟩

theorem append (one : NewLists calls first second) (two : NewLists more second third) :
    NewLists (calls ++ more) first third where
  grown := Nat.le_trans one.grown two.grown
  within call member := by
    obtain early | late := List.mem_append.mp member
    · obtain ⟨new, made, done⟩ := one.within call early
      exact ⟨new, made, Nat.le_trans done two.grown⟩
    · obtain ⟨new, made, done⟩ := two.within call late
      exact ⟨Nat.le_trans one.grown new, made, done⟩
  apart := List.pairwise_append.mpr ⟨one.apart, two.apart, fun earlier early later late =>
    Nat.le_trans (one.within earlier early).2.2 (two.within later late).1⟩

/-- Between the states, some tables may have been added before and after. -/
theorem weaken {before after : World} (lists : NewLists calls first second)
    (earlier : before.tables.size ≤ first.tables.size)
    (later : second.tables.size ≤ after.tables.size) : NewLists calls before after := by
  have whole := ((nil earlier).append lists).append (nil later)
  rw [List.append_nil] at whole
  exact whole

theorem single {call : ArgumentCall} (proceeds : Proceeds call.given call.after) :
    NewLists [call] call.before call.after := by
  have made : call.before.tables.size < call.after.tables.size := by
    have grown := proceeds.tables
    unfold HookCall.given at grown
    rw [Heap.size_push] at grown
    exact grown
  refine ⟨Nat.le_of_lt made, fun other member => ?_, List.pairwise_singleton _ _⟩
  obtain rfl := List.mem_singleton.mp member
  exact ⟨Nat.le_refl _, made, Nat.le_refl _⟩

end NewLists

namespace HookCalls

variable {α : Type} {happens : ArgumentCall → Prop}
  {leaves : ArgumentCall → Option Value → List Value → Prop} {finish : List Value → α}
  {annotations : List InstanceId} {args : List Value} {world last : World} {calls : List ArgumentCall}
  {outcome : Outcome α}

theorem newLists (proceeds : ∀ call, happens call → Proceeds call.given call.after)
    (runs : HookCalls happens leaves finish annotations args world calls outcome last) :
    NewLists calls world last := by
  induction runs with
  | finished => exact .nil (Nat.le_refl _)
  | @answered _ call _ _ calls _ _ called _ _ _ ih =>
      exact (NewLists.single (proceeds call called)).append ih
  | stopped called => exact .single (proceeds _ called)

end HookCalls

/-- A hook answers with a table that holds the list it received under `new_args`, and has left that
list as it was. -/
def HookCall.Echoes (call : ArgumentCall) : Prop :=
  ∃ table, call.answer = .done (some (.table table)) ∧
    (call.after.tables.get table).get (.text "new_args") = .table call.list ∧
    call.after.tables.get call.list = .ofList call.passed

/-- A hook answers with the list that it received, or with nothing that replaces the arguments. -/
def HookCall.Retains (call : ArgumentCall) : Prop :=
  call.Echoes ∨ ∀ table list, call.answer = .done (some (.table table)) →
    (call.after.tables.get table).get (.text "new_args") ≠ .table list

/-- A hook that retains the arguments leaves every one of them in its place, nulls as well. -/
theorem HookCall.Retains.left_eq {call : ArgumentCall} (retains : call.Retains)
    (fits : call.passed.length ≤ TableKey.positions) {answer : Option Value} {left : List Value}
    (ends : call.answer = .done answer) (leaving : Replaces call.after call.passed answer left) :
    left = call.passed := by
  cases leaving with
  | unchanged => rfl
  | @replaced table list entry =>
      obtain ⟨echoed, answered, received, kept⟩ | other := retains
      · rw [ends] at answered
        cases answered
        rw [entry] at received
        cases received
        rw [kept, Table.sequence_ofList fits]
      · exact absurd entry (other table list ends)

/-! ## The call between the hooks -/

/-- The frame of the phase in front of the constructor of an instance. -/
def World.preConstructPhase (world : World) (id : InstanceId) : Frame :=
  .synthetic ((world.classOf id).name ++ "." ++ MetaKey.preConstruct.methodName)

section

variable (perform : Perform) (id : InstanceId) (context : ContextId) (args : List Value)
  (world : World)

/-- The constructor of an instance was resolved, and the hooks of the annotations that the instance
then had were called in front of it, with the frame of their phase on the context. -/
structure CallsInFront (constructor : CallableId) (annotations : List InstanceId)
    (calls : List ArgumentCall) (outcome : Outcome (List Value)) (last : World) : Prop where
  called : ∃ resolved deeper between,
    resolveConstructor perform id world = (.done constructor, resolved) ∧
    (resolved.object id).annotations = annotations ∧
    (resolved.context context).push? (resolved.preConstructPhase id) = .ok deeper ∧
    PreCalls perform id context annotations args (resolved.withContext context fun _ => deeper)
      calls outcome between ∧
    last = between.withContext context (·.truncate (resolved.context context).depth)

/-- How the constructor of an instance is called: the hooks in front of it, the arguments that it
is called with if it is, and the hooks behind it. -/
inductive ConstructorFlow :
    List ArgumentCall → Option (List Value) → List ArgumentCall → Outcome Unit → World → Prop
  /-- There is no constructor to call. -/
  | unresolved {stop : Outcome CallableId} {outcome : Outcome Unit} {last : World}
      (resolves : resolveConstructor perform id world = (stop, last))
      (stops : stop.Stops outcome) :
      ConstructorFlow [] none [] outcome last
  /-- There is no room on the call stack. -/
  | full {constructor : CallableId} {resolved : World} {limit : Nat}
      (resolves : resolveConstructor perform id world = (.done constructor, resolved))
      (full : (resolved.context context).push? (resolved.preConstructPhase id) = .error limit) :
      ConstructorFlow [] none [] (.failed (.stackOverflow limit)) resolved
  /-- A hook in front of the constructor does not answer. -/
  | stopped {constructor : CallableId} {annotations : List InstanceId} {pre : List ArgumentCall}
      {stop : Outcome (List Value)} {outcome : Outcome Unit} {last : World}
      (front : CallsInFront perform id context args world constructor annotations pre stop last)
      (stops : stop.Stops outcome) :
      ConstructorFlow pre none [] outcome last
  /-- The constructor is called with the arguments that the hooks left, and gives no result. -/
  | refused {constructor : CallableId} {annotations : List InstanceId} {pre : List ArgumentCall}
      {final : List Value} {stop : Outcome Value} {outcome : Outcome Unit} {between last : World}
      (front : CallsInFront perform id context args world constructor annotations pre (.done final)
        between)
      (calls : perform (.call constructor final context) between = (stop, last))
      (stops : stop.Stops outcome) :
      ConstructorFlow pre (some final) [] outcome last
  /-- The constructor gives a result, and the hooks behind it are called. -/
  | through {constructor : CallableId} {annotations : List InstanceId} {pre post : List ArgumentCall}
      {final : List Value} {result : Value} {outcome : Outcome Unit} {between built last : World}
      (front : CallsInFront perform id context args world constructor annotations pre (.done final)
        between)
      (calls : perform (.call constructor final context) between = (.done result, built))
      (behind : PostCalls perform id context annotations final built post outcome last) :
      ConstructorFlow pre (some final) post outcome last

theorem callConstructor_flow :
    ∃ pre called post outcome last,
      callConstructor perform id args context world = (outcome, last) ∧
      ConstructorFlow perform id context args world pre called post outcome last := by
  rcases resolves : resolveConstructor perform id world with ⟨found, resolved⟩
  unfold callConstructor
  cases found with
  | failed fault =>
      rw [bind_of_failed _ resolves]
      exact ⟨_, _, _, _, _, rfl, .unresolved resolves (.failed fault)⟩
  | exhausted =>
      rw [bind_of_exhausted _ resolves]
      exact ⟨_, _, _, _, _, rfl, .unresolved resolves .exhausted⟩
  | done constructor =>
  have phase : Frame.synthetic ((resolved.classOf id).name ++ "." ++
      MetaKey.preConstruct.methodName) = resolved.preConstructPhase id := rfl
  rw [bind_of_done _ resolves, get_bind_apply, get_bind_apply, phase]
  cases pushed : (resolved.context context).push? (resolved.preConstructPhase id) with
  | error limit =>
      rw [bind_of_failed _ (withFrame_of_full _ pushed)]
      exact ⟨_, _, _, _, _, rfl, .full resolves pushed⟩
  | ok deeper =>
  obtain ⟨pre, stop, between, runs, before⟩ := preConstruct_calls perform id context
    (resolved.object id).annotations args (resolved.withContext context fun _ => deeper)
  have framed := withFrame_of_pushed
    (preConstruct perform id context args (resolved.object id).annotations) rfl pushed
  rw [runs] at framed
  have front : CallsInFront perform id context args world constructor (resolved.object id).annotations
      pre stop (between.withContext context (·.truncate (resolved.context context).depth)) :=
    ⟨⟨resolved, deeper, between, resolves, rfl, pushed, before, rfl⟩⟩
  cases stop with
  | failed fault =>
      rw [bind_of_failed _ framed]
      exact ⟨_, _, _, _, _, rfl, .stopped front (.failed fault)⟩
  | exhausted =>
      rw [bind_of_exhausted _ framed]
      exact ⟨_, _, _, _, _, rfl, .stopped front .exhausted⟩
  | done final =>
  rw [bind_of_done _ framed]
  rcases calls : perform (.call constructor final context)
      (between.withContext context (·.truncate (resolved.context context).depth)) with
    ⟨answer, built⟩
  cases answer with
  | failed fault =>
      rw [bind_of_failed _ calls]
      exact ⟨_, _, _, _, _, rfl, .refused front calls (.failed fault)⟩
  | exhausted =>
      rw [bind_of_exhausted _ calls]
      exact ⟨_, _, _, _, _, rfl, .refused front calls .exhausted⟩
  | done result =>
      rw [bind_of_done _ calls]
      obtain ⟨post, outcome, last, ends, behind⟩ := postConstruct_calls perform id context
        (resolved.object id).annotations final built
      exact ⟨_, _, _, _, _, ends, .through front calls behind⟩

end

section

variable {perform : Perform} {id : InstanceId} {context : ContextId} {args : List Value}
  {world last : World}

theorem HookCall.Happens.proceeds (leads : perform.Leads) {key : MetaKey} {call : ArgumentCall}
    (happens : call.Happens perform id context key) : Proceeds call.given call.after := by
  have tracks := leads.tracks (fun _ => True) (fun _ => True)
  have proceeds := LeadsFreely.proceeds (hook_tracks tracks context call.attached key
    [.object id, .table call.list]).leads call.given
  rw [happens] at proceeds
  exact proceeds

theorem resolveConstructor_tables (leads : perform.Leads) {outcome : Outcome CallableId}
    (resolves : resolveConstructor perform id world = (outcome, last)) :
    world.tables.size ≤ last.tables.size := by
  have tracks := leads.tracks (fun _ => True) (fun _ => True)
  have proceeds := LeadsFreely.proceeds (resolveConstructor_tracks tracks id).leads world
  rw [resolves] at proceeds
  exact proceeds.tables

theorem CallsInFront.newLists (leads : perform.Leads) {constructor : CallableId}
    {annotations : List InstanceId} {calls : List ArgumentCall} {outcome : Outcome (List Value)}
    (front : CallsInFront perform id context args world constructor annotations calls outcome
      last) : NewLists calls world last := by
  obtain ⟨resolved, deeper, between, resolves, _, _, before, rfl⟩ := front.called
  have grown := resolveConstructor_tables leads resolves
  exact (before.newLists fun _ => HookCall.Happens.proceeds leads).weaken grown (Nat.le_refl _)

namespace ConstructorFlow

variable {pre post : List ArgumentCall} {called : Option (List Value)} {outcome : Outcome Unit}
  (flow : ConstructorFlow perform id context args world pre called post outcome last)
include flow

theorem newLists (leads : perform.Leads) : NewLists (pre ++ post) world last := by
  have calledTables : ∀ {request : Request} {answer between last},
      perform request between = (answer, last) → between.tables.size ≤ last.tables.size := by
    intro request answer between last ends
    have tracks := leads.tracks (fun _ => True) (fun _ => True)
    have proceeds := LeadsFreely.proceeds (tracks.leads _ _ request fun _ _ _ _ => trivial) between
    rw [ends] at proceeds
    exact proceeds.tables
  cases flow with
  | unresolved resolves => exact .nil (resolveConstructor_tables leads resolves)
  | full resolves => exact .nil (resolveConstructor_tables leads resolves)
  | stopped front =>
      rw [List.append_nil]
      exact front.newLists leads
  | refused front calls =>
      rw [List.append_nil]
      exact (front.newLists leads).weaken (Nat.le_refl _) (calledTables calls)
  | through front calls behind =>
      refine ((front.newLists leads).weaken (Nat.le_refl _) (calledTables calls)).append ?_
      exact behind.newLists fun _ => HookCall.Happens.proceeds leads

/-- The hooks behind the constructor receive the arguments that it was called with. -/
theorem behind : ∀ call ∈ post, called = some call.passed := by
  cases flow with
  | through _ _ behind =>
      obtain ⟨same, _⟩ := behind.unchanged fun _ _ _ _ _ leaving args => leaving.trans args
      exact fun call member => congrArg some (same call member).symm
  | _ => exact fun _ member => absurd member List.not_mem_nil

/-- Arguments that every hook in front of the constructor retains are what it is called with. -/
theorem retained (fits : args.length ≤ TableKey.positions) (retains : ∀ call ∈ pre, call.Retains) :
    (∀ call ∈ pre, call.passed = args) ∧ ∀ final, called = some final → final = args := by
  have front : ∀ {constructor annotations stop between},
      CallsInFront perform id context args world constructor annotations pre stop between →
      (∀ call ∈ pre, call.passed = args) ∧ ∀ final, stop = .done final → final = args := by
    intro constructor annotations stop between front
    obtain ⟨_, _, _, _, _, _, before, _⟩ := front.called
    refine before.unchanged fun call member answer left ends leaving same => ?_
    rw [← same] at fits ⊢
    exact (retains call member).left_eq fits ends leaving
  cases flow with
  | unresolved | full => exact ⟨fun _ member => absurd member List.not_mem_nil, nofun⟩
  | stopped before => exact ⟨(front before).1, nofun⟩
  | refused before | through before =>
      refine ⟨(front before).1, fun final same => ?_⟩
      cases same
      exact (front before).2 _ rfl

end ConstructorFlow

end

/-- What the hooks around a constructor and the constructor receive. -/
structure ArgumentsPass (args : List Value) (world last : World) (pre : List ArgumentCall)
    (called : Option (List Value)) (post : List ArgumentCall) : Prop where
  /-- Every hook receives a list of its own, made after all that the hooks before it did. -/
  lists : NewLists (pre ++ post) world last
  /-- That list holds the arguments as they are at its turn. -/
  given : ∀ call ∈ pre ++ post, call.given.tables.get call.list = .ofList call.passed
  /-- The hooks behind the constructor receive the arguments that it was called with. -/
  behind : ∀ call ∈ post, called = some call.passed
  /-- Where the hooks answer with the lists that they received, or with nothing that replaces the
  arguments, all the hooks and the constructor receive the same, with every null in its place. -/
  retained : args.length ≤ TableKey.positions → (∀ call ∈ pre, call.Retains) →
    (∀ call ∈ pre ++ post, call.passed = args) ∧ ∀ final, called = some final → final = args

/-- The arguments of a constructor travel as a list of values.  Each hook in front of it receives
them in a new table and replaces them by its answer or not at all; what is left when the last one has
answered is what the constructor is called with, and what each hook behind it receives in a new
table.  So nothing that a hook does to a table that it received or answered with before reaches a
later hook or the constructor. -/
theorem World.constructor_arguments (budget : Nat) (id : InstanceId) (context : ContextId)
    (args : List Value) (world : World) :
    ∃ pre called post outcome last,
      callConstructor (performUpTo budget) id args context world = (outcome, last) ∧
      ConstructorFlow (performUpTo budget) id context args world pre called post outcome last ∧
      ArgumentsPass args world last pre called post := by
  obtain ⟨pre, called, post, outcome, last, ends, flow⟩ :=
    callConstructor_flow (performUpTo budget) id context args world
  refine ⟨pre, called, post, outcome, last, ends, flow, ?_⟩
  constructor
  case lists => exact flow.newLists (performUpTo_leads budget)
  case given => exact fun call _ => call.list_given.1
  case behind => exact flow.behind
  case retained =>
    intro fits retains
    obtain ⟨front, final⟩ := flow.retained fits retains
    refine ⟨fun call member => ?_, final⟩
    obtain before | after := List.mem_append.mp member
    · exact front call before
    · exact final call.passed (flow.behind call after)

/-- An annotation that answers with the arguments it received, and a class that carries it. -/
def echoedSpecs : List ClassSpec :=
  [⟨"Echo", .marker, none, [],
     [bareFunction MetaKey.preConstruct.methodName (.table [(.text "new_args", .arg 1)])],
     [], none, none⟩,
   ⟨"Pair", .ordinary, none, [], [bareFunction constructorName .null], [⟨"Echo", []⟩], none, none⟩]

/-- The state after an instance of the class received its annotation, without the constructor. -/
def echoedState : World :=
  (performUpTo 12 (.construct ⟨0⟩ ⟨(CreateFlags.standard.erase .markInitialized).erase
    .callConstructor, none⟩ []) (sampleBefore echoedSpecs ⟨1⟩)).2

/-- The state in which the list for its hook is made, with the frame of the phase. -/
def echoedBefore : World :=
  let resolved := (resolveConstructor (performUpTo 12) ⟨0⟩ echoedState).2
  resolved.withContext ⟨0⟩ fun _ =>
    ⟨resolved.preConstructPhase ⟨0⟩ :: (resolved.context ⟨0⟩).frames, (resolved.context ⟨0⟩).limit⟩

/-- The run of that hook with a list of nulls and an integer. -/
def echoedRun : Outcome (Option Value) × World :=
  hook (performUpTo 12) ⟨0⟩ ⟨1⟩ .preConstruct
    [.object ⟨0⟩, .table echoedBefore.tables.next]
    { echoedBefore with tables := echoedBefore.tables.push (.ofList [.null, .int 1, .null]) }

/-- The only call in front of the constructor is one of a hook that echoes what it received. -/
theorem echoedBefore_echoes {constructor : CallableId} {annotations : List InstanceId}
    {calls : List ArgumentCall} {outcome : Outcome (List Value)} {last : World}
    (front : CallsInFront (performUpTo 12) ⟨0⟩ ⟨0⟩ [.null, .int 1, .null] echoedState constructor
      annotations calls outcome last) : ∃ call, calls = [call] ∧ call.Echoes := by
  obtain ⟨resolved, deeper, between, resolves, attached, pushed, before, _⟩ := front.called
  have carried : ((resolveConstructor (performUpTo 12) ⟨0⟩ echoedState).2.object ⟨0⟩).annotations =
      [⟨1⟩] := by decide +kernel
  have start : echoedBefore = resolved.withContext ⟨0⟩ fun _ => deeper := by
    unfold echoedBefore
    rw [resolves, Context.eq_of_push? pushed]
  rw [resolves, attached] at carried
  subst carried
  rw [← start] at before
  obtain ⟨answer, after, others, rfl, happens, later⟩ := before.uncons
  have ran : echoedRun = (answer, after) := happens
  have answered : echoedRun.1.result? = some (some (.table ⟨1⟩)) := by decide +kernel
  have entry : (echoedRun.2.tables.get ⟨1⟩).get (.text "new_args") =
      .table echoedBefore.tables.next := by decide +kernel
  have kept : (echoedRun.2.tables.get echoedBefore.tables.next).entries =
      (Table.ofList [.null, .int 1, .null]).entries := by decide +kernel
  rw [ran] at answered entry kept
  obtain rfl : answer = .done (some (.table ⟨1⟩)) := Outcome.eq_done answered
  obtain ⟨left, _, none⟩ := later _ rfl
  cases none
  exact ⟨_, rfl, ⟨1⟩, rfl, entry, Table.eq_of_entries kept⟩

/-- The hook echoes what it received, and the constructor receives the nulls in their places. -/
theorem World.constructor_arguments_echoed :
    ∃ call post last,
      callConstructor (performUpTo 12) ⟨0⟩ [.null, .int 1, .null] ⟨0⟩ echoedState =
        (.done (), last) ∧
      ConstructorFlow (performUpTo 12) ⟨0⟩ ⟨0⟩ [.null, .int 1, .null] echoedState [call]
        (some [.null, .int 1, .null]) post (.done ()) last ∧
      call.Echoes := by
  obtain ⟨pre, called, post, outcome, last, ends, flow, pass⟩ :=
    constructor_arguments 12 ⟨0⟩ ⟨0⟩ [.null, .int 1, .null] echoedState
  have done : (callConstructor (performUpTo 12) ⟨0⟩ [.null, .int 1, .null] ⟨0⟩
      echoedState).1.result? = some () := by decide +kernel
  rw [ends] at done
  obtain rfl : outcome = .done () := Outcome.eq_done done
  have through := flow
  cases through with
  | unresolved _ stops | stopped _ stops | refused _ _ stops => exact stops.not_done.elim
  | through front =>
  obtain ⟨call, rfl, echoes⟩ := echoedBefore_echoes front
  obtain ⟨_, same⟩ := pass.retained (by decide) fun other member =>
    .inl (List.mem_singleton.mp member ▸ echoes)
  obtain rfl := same _ rfl
  exact ⟨call, post, last, ends, flow, echoes⟩

end ScriptObjects

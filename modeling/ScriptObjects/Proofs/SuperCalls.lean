import ScriptObjects.Proofs.InstanceLevels
import ScriptObjects.Proofs.Writes

/-!
# Super calls climb the chain

A function is bound to the level of the class that declares it.  A lookup below a level looks only
at the levels past it, and then at the roots.  So a body that calls the base of a name hands over to
a body of a level further up, or to a function of the assembly, from which no way leads back into
the instance.  However the bodies of a chain call each other's base, every level has its turn at
most once.

That holds as long as a lookup answers with the function it finds.  The hooks of an annotation may
answer with any function value instead, and so may a variable; a function of the assembly with such
an annotation can hand the call back to the level that made it.
-/

namespace ScriptObjects

set_option autoImplicit false

open Exec

namespace World

/-! ## Where functions are found -/

/-- A store keeps a function value under a name for good. -/
def HoldsCallable (world : World) (store : StoreId) (name : String) (callable : CallableId) : Prop :=
  ∃ slot, (world.store store).slot? name = some slot ∧ slot.immutable = true ∧
    slot.content = .script (some (.function callable))

/-- A function is bound to the level of an instance whose class declares it, and that level does not
come before a place. -/
structure DeclaredFrom (world : World) (id : InstanceId) (place : Nat) (function : Function)
    (receiver : Receiver) : Prop where
  owner : receiver.owner = id
  further : place ≤ receiver.level
  declarer : ∃ level, world.level? id receiver.level = some level ∧
    function ∈ (world.cls level.cls).functions

/-- What may be found from a place of an instance on: functions of the levels there, and those of the
assembly, which are bound to nothing. -/
def FoundFrom (world : World) (id : InstanceId) (place : Nat) (function : Function) :
    Option Receiver → Prop
  | none => function ∈ world.functions
  | some receiver => world.DeclaredFrom id place function receiver

theorem DeclaredFrom.weaken {world : World} {id : InstanceId} {first second : Nat}
    {function : Function} {receiver : Receiver}
    (declared : world.DeclaredFrom id second function receiver) (earlier : first ≤ second) :
    world.DeclaredFrom id first function receiver :=
  { declared with further := Nat.le_trans earlier declared.further }

theorem LaidOut.offer?_root {world : World} (laid : world.LaidOut) {tier : Access} {name : String}
    {function : Function} {receiver : Option Receiver}
    (offered : world.offer? (rootStore tier) name = some (function, receiver)) :
    receiver = none ∧ function ∈ world.functions := by
  unfold offer? at offered
  rw [laid.roots tier] at offered
  obtain ⟨found, declared, same⟩ := Option.map_eq_some_iff.mp offered
  cases same
  exact ⟨rfl, List.mem_of_find?_eq_some (Option.filter_eq_some_iff.mp declared).1⟩

/-- In a settled session a level offers functions of its own class and of those past it. -/
theorem Settled.offer?_level {world : World} (settled : world.Settled) {id : InstanceId}
    {place : Nat} {level : Level} (sits : world.level? id place = some level) {tier : Access}
    {name : String} {function : Function} {receiver : Option Receiver}
    (offered : world.offer? (level.declarations tier) name = some (function, receiver)) :
    ∃ target, receiver = some target ∧ world.DeclaredFrom id place function target := by
  unfold offer? at offered
  rw [settled.sound.laid.stores id place level sits tier] at offered
  obtain ⟨found, nearest, same⟩ := Option.map_eq_some_iff.mp offered
  cases same
  obtain ⟨member, along, declared, _⟩ := levelFunction?_declared nearest
  rw [settled.ancestors_drop (settled.level_cls sits)] at along
  obtain ⟨offset, there⟩ := List.getElem?_of_mem along
  rw [List.getElem?_drop] at there
  obtain ⟨declarer, above, rfl⟩ := settled.level_of_chain (inside_of_level? sits) there
  have bound : world.boundLevel id place function = place + offset :=
    settled.boundLevel_eq above declared place
  exact ⟨_, rfl, rfl, bound ▸ Nat.le_add_right place offset, declarer, bound ▸ above, declared⟩

/-- The base of a level is what lies past it. -/
theorem sees_base {view : Viewpoint} {levels : List Level} {store : StoreId} {rooted : Bool}
    (mode : view.mode = .base) (member : store ∈ (compositeScope levels view rooted).stores) :
    (∃ tier, store = rootStore tier) ∨ ∃ place level tier, view.level < place ∧
      levels[place]? = some level ∧ store = level.declarations tier := by
  have seen : view.Sees (levels.drop (view.level + 1)) store := by
    unfold compositeScope chainSources at member
    rw [mode, Scope.stores, storesOf_append, List.mem_append] at member
    obtain chain | roots := member
    · exact sees_levels _ (fun _ there => there) chain
    · cases rooted with
      | false => cases roots
      | true =>
          rw [if_pos rfl, Scope.storesOf, Scope.storesOf, List.append_nil] at roots
          obtain ⟨tier, admitted, rfl⟩ := mem_stores_rootScope roots
          exact .root admitted
  cases seen with
  | global sits =>
      rw [List.getElem?_drop] at sits
      exact .inr ⟨_, _, .global, by omega, sits, rfl⟩
  | internal sits =>
      rw [List.getElem?_drop] at sits
      exact .inr ⟨_, _, .internal, by omega, sits, rfl⟩
  | own _ _ other => exact absurd mode other
  | root => exact .inl ⟨_, rfl⟩

/-- What the base of a level offers is bound past the level, or is of the assembly. -/
theorem Settled.offer?_base {world : World} (settled : world.Settled) {id : InstanceId}
    {view : Viewpoint} (mode : view.mode = .base) {rooted : Bool} {store : StoreId}
    (member : store ∈ (compositeScope (world.object id).levels view rooted).stores) {name : String}
    {function : Function} {receiver : Option Receiver}
    (offered : world.offer? store name = some (function, receiver)) :
    world.FoundFrom id (view.level + 1) function receiver := by
  obtain ⟨tier, rfl⟩ | ⟨place, level, tier, past, sits, rfl⟩ := sees_base mode member
  · obtain ⟨rfl, declared⟩ := settled.sound.laid.offer?_root offered
    exact declared
  · obtain ⟨target, rfl, declared⟩ := settled.offer?_level sits offered
    exact declared.weaken past

theorem LaidOut.offer?_kept {world : World} (laid : world.LaidOut) {store : StoreId} {name : String}
    {callable : CallableId} (keeps : world.HoldsCallable store name callable) :
    ∃ function receiver, world.callables.get? callable = some (.ofFunction function receiver) ∧
      world.offer? store name = some (function, receiver) := by
  obtain ⟨slot, found, held, content⟩ := keeps
  obtain ⟨function, receiver, ⟨other, _, same, made⟩, offered⟩ :=
    laid.functions store name slot found held
  obtain rfl : callable = other := by
    rw [content] at same
    cases same
    rfl
  exact ⟨function, receiver, made, offered⟩

/-! ## Looking up what is never a variable -/

/-- A store has nothing under a name but functions without annotations. -/
structure OnlyFunctionsAt (world : World) (name : String) (store : StoreId) : Prop where
  slots : ∀ slot, (world.store store).slot? name = some slot →
    slot.immutable = true ∧ slot.annotations = []
  offers : ∀ function receiver, world.offer? store name = some (function, receiver) →
    function.annotations = []

/-- A store that has a function gives it, unless it would have to be bound to an instance that is
gone. -/
theorem Settled.readStore_function {world : World} (settled : world.Settled) (perform : Perform)
    {store : StoreId} {name : String} (only : world.OnlyFunctionsAt name store)
    (answers : world.Answers name store = true) :
    ∃ function receiver, world.offer? store name = some (function, receiver) ∧
      ((∃ callable after, readStore perform store name world = (.done (.function callable), after) ∧
        after.callables.get? callable = some (.ofFunction function receiver)) ∨
      readStore perform store name world = (.failed (.instanceDropped function.label), world)) := by
  cases found : (world.store store).slot? name with
  | some slot =>
      obtain ⟨held, plain⟩ := only.slots slot found
      obtain ⟨function, receiver, ⟨callable, _, content, made⟩, offered⟩ :=
        settled.sound.laid.functions store name slot found held
      exact ⟨function, receiver, offered, .inl ⟨callable, world,
        orElseMissing_of_done (readSlot_of_function perform found content plain), made⟩⟩
  | none =>
      unfold Answers at answers
      rw [found, Option.isSome_none, Bool.false_or, Option.isSome_iff_exists] at answers
      obtain ⟨⟨function, receiver⟩, offered⟩ := answers
      refine ⟨function, receiver, offered, ?_⟩
      have plain := only.offers function receiver offered
      obtain ⟨_, rfl⟩ := World.offer?_declared offered
      have free : (world.store store).declares function.name = false := by
        simp [Store.declares, found]
      cases living : receiver.all fun target => (world.object target.owner).alive with
      | true =>
          have installs := materialize_of_plain perform settled.ready offered free plain living
          have slot := declares_install receiver (inside_of_offer? offered) free
          refine .inl ⟨world.callables.next, world.install store function receiver, ?_,
            Heap.get?_push_next _ _⟩
          refine (readStore_of_missing perform found).trans ?_
          rw [bind_of_done _ installs]
          exact readSlot_of_function perform slot rfl rfl
      | false =>
          have refuses := materialize_of_some perform settled.alive offered
          rw [living, if_neg Bool.false_ne_true, settled.bases.askedFor] at refuses
          exact .inr ((readStore_of_missing perform found).trans (bind_of_failed _ refuses))

theorem ModifiesOnly.onlyFunctionsAt {before after : World} {name : String} {store : StoreId}
    (only : before.OnlyFunctionsAt name store) (modifies : before.ModifiesOnly noSlot after) :
    after.OnlyFunctionsAt name store where
  slots slot found := only.slots slot ((modifies.slots store name id).symm.trans found)
  offers function receiver offered :=
    only.offers function receiver ((modifies.offer? store name).symm.trans offered)

/-- A function value that a lookup gives is that of a function that a store of the scope offers, if
the stores have nothing else under the name. -/
theorem Settled.read_function {world after : World} (settled : world.Settled) {scope : Scope}
    {name : String} (only : ∀ store ∈ scope.stores, world.OnlyFunctionsAt name store) {budget : Nat}
    {callable : CallableId}
    (reads : performUpTo budget (.read scope name) world = (.done (.function callable), after)) :
    ∃ store ∈ scope.stores, ∃ function receiver,
      world.offer? store name = some (function, receiver) ∧
      after.callables.get? callable = some (.ofFunction function receiver) := by
  cases budget with
  | zero => cases reads
  | succ budget =>
      have gives : ∀ store, scope.stores.find? (world.Answers name) = some store → ∀ here,
          world.ModifiesOnly noSlot here → Proceeds world here →
          ∃ function receiver, world.offer? store name = some (function, receiver) ∧
            ((∃ callable after, readStore (performUpTo budget) store name here =
                (.done (.function callable), after) ∧
              after.callables.get? callable = some (.ofFunction function receiver)) ∨
            readStore (performUpTo budget) store name here =
              (.failed (.instanceDropped function.label), here)) := by
        intro store first here reached proceeds
        have answers := (reached.answers id).trans (List.find?_some first)
        obtain ⟨function, receiver, offered, ends⟩ :=
          (settled.proceed proceeds).readStore_function (performUpTo budget)
            (reached.onlyFunctionsAt (only store (List.mem_of_find?_eq_some first))) answers
        exact ⟨function, receiver, (reached.offer? store name).symm.trans offered, ends⟩
      obtain ⟨here, reached, proceeds, looks⟩ := comes_to_first
        (readScope_tries (performUpTo budget) name) (readStore_missesUnknown _ name) settled.alive
        scope fun store first here reached proceeds fault last ends => by
          obtain ⟨_, _, _, ⟨_, _, gives, _⟩ | fails⟩ := gives store first here reached proceeds
          · rw [gives] at ends
            cases ends
          · rw [fails] at ends
            cases ends
            rfl
      replace looks := looks.symm.trans reads
      unfold lookAtFirst at looks
      cases first : scope.stores.find? (world.Answers name) with
      | none =>
          rw [first] at looks
          cases looks
      | some store =>
          rw [first, Option.elim_some] at looks
          obtain ⟨function, receiver, offered, ⟨other, last, gives, made⟩ | fails⟩ :=
            gives store first here reached proceeds
          · rw [gives] at looks
            cases looks
            exact ⟨store, List.mem_of_find?_eq_some first, function, receiver, offered, made⟩
          · rw [fails] at looks
            cases looks

/-- Among the members of an instance a name is that of functions without annotations, and it is that
of no variable, neither there nor in the assembly. -/
structure OnlyMemberFunctions (id : InstanceId) (name : String) (world : World) : Prop where
  declared : ∀ level ∈ (world.object id).levels, ∀ function ∈ (world.cls level.cls).functions,
    function.name = name → function.annotations = []
  slots : ∀ level ∈ (world.object id).levels, ∀ tier slot,
    (world.store (level.declarations tier)).slot? name = some slot →
    slot.immutable = true ∧ slot.annotations = []
  roots : ∀ tier slot, (world.store (rootStore tier)).slot? name = some slot → slot.immutable = true

/-- In the assembly, too, a name is that of functions without annotations. -/
structure OnlyFunctions (id : InstanceId) (name : String) (world : World) : Prop extends
    OnlyMemberFunctions id name world where
  assembly : ∀ function ∈ world.functions, function.name = name → function.annotations = []
  bare : ∀ tier slot, (world.store (rootStore tier)).slot? name = some slot →
    slot.annotations = []

section

variable {world : World} (settled : world.Settled) {id : InstanceId} {name : String}
  (only : world.OnlyFunctions id name)
include settled only

theorem OnlyFunctions.at_root (tier : Access) : world.OnlyFunctionsAt name (rootStore tier) where
  slots slot found := ⟨only.roots tier slot found, only.bare tier slot found⟩
  offers function _ offered :=
    only.assembly function (settled.sound.laid.offer?_root offered).2
      (World.offer?_declared offered).2

theorem OnlyFunctions.at_level {place : Nat} {level : Level}
    (sits : world.level? id place = some level) (tier : Access) :
    world.OnlyFunctionsAt name (level.declarations tier) where
  slots := only.slots level (List.mem_of_getElem? sits) tier
  offers function receiver offered := by
    obtain ⟨target, _, _, _, declarer, above, declared⟩ := settled.offer?_level sits offered
    exact only.declared declarer (List.mem_of_getElem? above) function declared
      (World.offer?_declared offered).2

end

end World

/-! ## Calls to the base -/

/-- In a body, a call to the base of a name: the arguments are evaluated, then the name is looked up
below the level of the body, and a function value is found. -/
structure BaseCall (name : String) where
  budget : Nat
  invocation : Invocation
  args : List Expr
  values : List Value
  before : World
  asked : World
  scope : Scope
  looking : World
  callable : CallableId
  after : World
  evaluates : evaluateAll (performUpTo budget) (some invocation) args before =
    (.done values, asked)
  opens : invocation.baseScope asked = (.done scope, looking)
  finds : performUpTo budget (.read scope name) looking = (.done (.function callable), after)

namespace BaseCall

variable {name : String} (call : BaseCall name)

/-- What is found is called. -/
theorem calls : evaluate (performUpTo call.budget) (some call.invocation)
      (.baseCall name call.args) call.before =
    performUpTo call.budget (.call call.callable call.values call.invocation.context) call.after := by
  rw [evaluate]
  refine (bind_of_done _ (show runningCall (some call.invocation) call.before =
    (.done call.invocation, call.before) from rfl)).trans ?_
  refine (bind_of_done _ call.evaluates).trans ?_
  refine (bind_of_done _ call.opens).trans ?_
  exact bind_of_done _ call.finds

/-- The function value that is called. -/
def callee : Callable := call.after.callables.get call.callable

/-- The running call as the body of the function sees it. -/
def body : Invocation := ⟨call.invocation.context, call.callee.receiver, call.values⟩

/-- The body of a function runs as it sees the call. -/
theorem runs {world : World} (expr : Expr)
    (living : call.callee.receiver.all (fun target => (world.object target.owner).alive) = true) :
    runBody (performUpTo call.budget) call.callee (.script expr) call.values
        call.invocation.context world =
      evaluate (performUpTo call.budget) (some call.body) expr world := by
  have receives : liveReceiver call.callee world = (.done call.callee.receiver, world) := by
    unfold liveReceiver
    cases bound : call.callee.receiver with
    | none => rfl
    | some target =>
        rw [bound, Option.all_some] at living
        simp [living]
  exact bind_of_done _ receives

theorem reaches : Proceeds call.before call.asked := by
  have leads : LeadsFreely (evaluateAll (performUpTo call.budget) (some call.invocation) call.args) :=
    (evaluateAll_tracks ((performUpTo_leads call.budget).tracks _ _) _ _ fun _ _ => trivial).leads
  have proceeds := leads.proceeds call.before
  rwa [call.evaluates] at proceeds

theorem looks : Proceeds call.asked call.looking := by
  have proceeds := LeadsFreely.proceeds (call.invocation.scopeIn_leads .base) call.asked
  have opens : call.invocation.scopeIn .base call.asked = (.done call.scope, call.looking) :=
    call.opens
  rwa [opens] at proceeds

theorem ends : Proceeds call.looking call.after := by
  have proceeds := performUpTo_proceeds call.budget (.read call.scope name) call.looking
  rwa [call.finds] at proceeds

theorem proceeds : Proceeds call.before call.after := (call.reaches.trans call.looks).trans call.ends

end BaseCall

/-- The base of a body is what lies past its level, and the roots; without a level it is the roots. -/
theorem Invocation.base_stores {invocation : Invocation} {world after : World} {scope : Scope}
    (opens : invocation.baseScope world = (.done scope, after)) {store : StoreId}
    (member : store ∈ scope.stores) :
    (∃ tier, store = World.rootStore tier) ∨ ∃ target place level tier,
      invocation.receiver = some target ∧ target.level < place ∧
      world.level? target.owner place = some level ∧ store = level.declarations tier := by
  unfold Invocation.baseScope Invocation.scopeIn at opens
  cases bound : invocation.receiver with
  | none =>
      rw [bound] at opens
      cases opens
      obtain ⟨tier, _, rfl⟩ := mem_stores_rootScope member
      exact .inl ⟨tier, rfl⟩
  | some target =>
      rw [bound] at opens
      cases sits : world.level? target.owner target.level with
      | none =>
          have opened := @openScope?_of_none world target.owner ⟨target.level, .localOnly, .base⟩ sits
          dsimp only at opens
          rw [bind_of_done _ opened] at opens
          cases opens
          obtain ⟨tier, _, rfl⟩ := mem_stores_rootScope member
          exact .inl ⟨tier, rfl⟩
      | some level =>
          have opened := @openScope?_composite world target.owner
            ⟨target.level, .localOnly, .base⟩ level sits nofun
          dsimp only at opens
          rw [bind_of_done _ opened] at opens
          cases opens
          obtain root | ⟨place, level, tier, past, there, rfl⟩ := World.sees_base rfl member
          · exact .inl root
          · exact .inr ⟨target, place, level, tier, rfl, past, there, rfl⟩

/-- A body calls a function of the assembly, or one that is bound past the level of the body. -/
theorem BaseCall.climbs {name : String} (call : BaseCall name) (settled : call.asked.Settled)
    {id : InstanceId} (own : ∀ target, call.invocation.receiver = some target → target.owner = id)
    (only : call.looking.OnlyFunctions id name) :
    ∃ function, call.callee = .ofFunction function call.callee.receiver ∧
      ∀ bound, call.callee.receiver = some bound → ∃ target,
        call.invocation.receiver = some target ∧
        call.looking.DeclaredFrom id (target.level + 1) function bound := by
  have later := settled.proceed call.looks
  have continues := settled.ready.continues call.looks
  have stores : ∀ store ∈ call.scope.stores, (∃ tier, store = World.rootStore tier) ∨
      ∃ target place level tier, call.invocation.receiver = some target ∧ target.level < place ∧
        call.looking.level? id place = some level ∧ store = level.declarations tier := by
    intro store member
    obtain root | ⟨target, place, level, tier, bound, past, sits, rfl⟩ :=
      Invocation.base_stores call.opens member
    · exact .inl root
    · rw [own target bound] at sits
      exact .inr ⟨target, place, level, tier, bound, past, continues.level? sits, rfl⟩
  have plain : ∀ store ∈ call.scope.stores, call.looking.OnlyFunctionsAt name store := by
    intro store member
    obtain ⟨tier, rfl⟩ | ⟨_, place, level, tier, _, _, sits, rfl⟩ := stores store member
    · exact only.at_root later tier
    · exact only.at_level later sits tier
  obtain ⟨store, member, function, receiver, offered, made⟩ := later.read_function plain call.finds
  have callee : call.callee = .ofFunction function receiver := by
    unfold callee Heap.get
    rw [made, Option.getD_some]
  refine ⟨function, by rw [callee]; rfl, fun bound same => ?_⟩
  rw [callee] at same
  obtain rfl : receiver = some bound := same
  obtain ⟨tier, rfl⟩ | ⟨target, place, level, tier, own, past, sits, rfl⟩ := stores store member
  · cases (later.sound.laid.offer?_root offered).1
  · obtain ⟨_, same, declared⟩ := later.offer?_level sits offered
    cases same
    exact ⟨target, own, declared.weaken past⟩

/-! ## Nested calls -/

/-- Calls to the base of a name that nest in each other: each is made, in some later state, by the
body that the one before it called.  A condition holds where the name is looked up.  Listed are the
receivers of the members among the functions called, outermost first. -/
inductive NestedBaseCalls (name : String) (condition : World → Prop) :
    World → Invocation → List Receiver → Prop
  | stop (world : World) (invocation : Invocation) :
      NestedBaseCalls name condition world invocation []
  | call {world : World} {receivers : List Receiver} (call : BaseCall name)
      (later : Proceeds world call.before) (holds : condition call.looking)
      (rest : NestedBaseCalls name condition call.after call.body receivers) :
      NestedBaseCalls name condition world call.invocation
        (call.callee.receiver.toList ++ receivers)

/-- A level of an instance past that of a receiver. -/
structure World.PastLevel (world : World) (id : InstanceId) (origin : Option Receiver)
    (receiver : Receiver) : Prop where
  owner : receiver.owner = id
  past : ∃ target, origin = some target ∧ target.level < receiver.level
  sits : ∃ level, world.level? id receiver.level = some level

theorem World.Continues.level?_earlier {before after : World} (continues : before.Continues after)
    {id : InstanceId} (inside : id.index < before.instances.size) (place : Nat) :
    after.level? id place = before.level? id place := by
  unfold World.level?
  rw [(continues.objects id inside).2]

theorem NestedBaseCalls.climb {name : String} {id : InstanceId} {world : World}
    {invocation : Invocation} {receivers : List Receiver} (settled : world.Settled)
    (inside : id.index < world.instances.size)
    (own : ∀ target, invocation.receiver = some target → target.owner = id)
    (nested : NestedBaseCalls name (World.OnlyFunctions id name) world invocation receivers) :
    (∀ receiver ∈ receivers, world.PastLevel id invocation.receiver receiver) ∧
      (receivers.map Receiver.level).Pairwise (· < ·) := by
  induction nested with
  | stop => exact ⟨fun _ none => (List.not_mem_nil none).elim, .nil⟩
  | @call world receivers call later only rest ih =>
      have reached := later.trans call.reaches
      obtain ⟨function, _, climbs⟩ := call.climbs (settled.proceed reached) own only
      have continues := settled.ready.continues (reached.trans call.looks)
      have after := later.trans call.proceeds
      have lasts := settled.ready.continues after
      have same := fun place => lasts.level?_earlier inside place
      cases bound : call.callee.receiver with
      | none =>
          -- No way leads back from the assembly: the body has no level to look past.
          obtain ⟨members, increasing⟩ := ih (settled.proceed after)
            (Nat.lt_of_lt_of_le inside lasts.instances) fun target same => by
              cases bound.symm.trans same
          refine ⟨fun receiver member => ?_, increasing⟩
          obtain ⟨_, ⟨target, own, _⟩, _⟩ := members receiver member
          cases bound.symm.trans own
      | some next =>
          obtain ⟨target, from_, owner, further, declarer, above, declared⟩ := climbs next bound
          obtain ⟨members, increasing⟩ := ih (settled.proceed after)
            (Nat.lt_of_lt_of_le inside lasts.instances) fun target same => by
              cases bound.symm.trans same
              exact owner
          have beyond : ∀ receiver ∈ receivers, next.level < receiver.level := by
            intro receiver member
            obtain ⟨_, ⟨target, same, past⟩, _⟩ := members receiver member
            cases bound.symm.trans same
            exact past
          rw [continues.level?_earlier inside] at above
          rw [Option.toList_some, List.singleton_append]
          refine ⟨fun receiver member => ?_, ?_⟩
          · obtain rfl | member := List.mem_cons.mp member
            · exact ⟨owner, ⟨target, from_, further⟩, declarer, above⟩
            · obtain ⟨owner, _, level, sits⟩ := members receiver member
              refine ⟨owner, ⟨target, from_, Nat.lt_trans further (beyond receiver member)⟩, level, ?_⟩
              rw [← same]
              exact sits
          · rw [List.map_cons, List.pairwise_cons]
            refine ⟨fun level member => ?_, increasing⟩
            obtain ⟨receiver, listed, rfl⟩ := List.mem_map.mp member
            exact beyond receiver listed

theorem length_le_of_increasing {bound : Nat} {levels : List Nat}
    (increasing : levels.Pairwise (· < ·)) (below : ∀ level ∈ levels, level < bound) :
    levels.length ≤ bound := by
  have nodup : levels.Nodup := increasing.imp Nat.ne_of_lt
  have among : levels ⊆ List.range bound := fun level member => List.mem_range.mpr (below level member)
  simpa using (List.subperm_of_subset nodup among).length_le

namespace World

/-- In a session whose registry is complete and was validated before anything was created, a
function value that a store of the base of a level keeps is of the assembly or bound past the level,
and one that a store of a level keeps is bound to that level or past it; it is bound to the level of
the class that declares the function.  So calls to the base of a name that nest in each other visit
levels further and further up, and no more members are called than the instance has levels, if the
name is that of functions without annotations only, in the chain and in the assembly, and not of a
variable. -/
theorem base_calls_climb {defined start : World} (reachable : Reachable defined)
    (valid : Session.validate defined = (.done (.ok ()), start))
    (nothing : start.instances.size = 0) (distinct : start.DistinctHashes) (id : InstanceId) :
    (∀ asked view scope opened world store name callable, Proceeds start asked →
      openScope? id view asked = (.done (some scope), opened) → Proceeds opened world →
      store ∈ scope.stores → world.HoldsCallable store name callable →
      ∃ function receiver, world.callables.get? callable = some (.ofFunction function receiver) ∧
        (view.mode = .base → world.FoundFrom id (view.level + 1) function receiver) ∧
        (view.mode = .declarations → ∃ target, receiver = some target ∧
          world.DeclaredFrom id view.level function target)) ∧
    ∀ world caller function place invocation name receivers, Proceeds start world →
      (world.callables.get caller).function = some function →
      (world.callables.get caller).receiver = some ⟨id, place⟩ →
      invocation.receiver = some ⟨id, place⟩ →
      NestedBaseCalls name (OnlyFunctions id name) world invocation receivers →
      (∀ receiver ∈ receivers, receiver.owner = id) ∧
        (place :: receivers.map Receiver.level).Pairwise (· < ·) ∧
        (place :: receivers.map Receiver.level).length ≤ (world.object id).levels.length := by
  obtain ⟨alive, _⟩ := reachable.sound
  have settled : start.Settled :=
    .of_validate reachable (validate_run_of_ok alive valid) distinct (.of_none nothing)
  have begins : Reachable start := by
    have follows := (validate_ok reachable.sound.2.registered (validate_run_of_ok alive valid)).1
    exact .proceed reachable follows.proceeds
  refine ⟨?_, ?_⟩
  · intro asked view scope opened world store name callable earlier opens later member keeps
    have opening := LeadsFreely.proceeds (openScope?_leads id view) asked
    rw [opens] at opening
    have before := settled.proceed earlier
    have now := before.proceed (opening.trans later)
    have continues := before.ready.continues (opening.trans later)
    obtain ⟨function, receiver, made, offered⟩ := now.sound.laid.offer?_kept keeps
    obtain ⟨level, sits⟩ : ∃ level, asked.level? id view.level = some level := by
      cases sits : asked.level? id view.level with
      | none =>
          rw [openScope?_of_none sits] at opens
          cases opens
      | some level => exact ⟨level, rfl⟩
    refine ⟨function, receiver, made, fun mode => ?_, fun mode => ?_⟩
    · have composed := before.opened_eq (by rw [mode]; decide) opens
      rw [composed, ← (continues.objects id (inside_of_level? sits)).2] at member
      exact now.offer?_base mode member offered
    · rw [openScope?_declarations sits mode] at opens
      cases opens
      obtain rfl : store = level.declarations view.access := List.mem_singleton.mp member
      exact now.offer?_level (continues.level? sits) offered
  · intro world caller function place invocation name receivers proceeds made bound own nested
    have now := settled.proceed proceeds
    have reached : Reachable world := .proceed begins proceeds
    obtain ⟨store, label, offered⟩ := reached.bindsOffers caller function _ made bound
    obtain ⟨origin, level, sits, same, _⟩ := now.sound.laid.offer?_bound offered
    obtain ⟨here, there⟩ := same ▸ level?_boundLevel sits function
    have inside := inside_of_level? sits
    obtain ⟨members, increasing⟩ := nested.climb now inside fun target same => by
      cases own.symm.trans same
      rfl
    have climbing : (place :: receivers.map Receiver.level).Pairwise (· < ·) := by
      rw [List.pairwise_cons]
      refine ⟨fun level member => ?_, increasing⟩
      obtain ⟨receiver, listed, rfl⟩ := List.mem_map.mp member
      obtain ⟨_, ⟨target, same, past⟩, _⟩ := members receiver listed
      cases own.symm.trans same
      exact past
    refine ⟨fun receiver member => (members receiver member).owner, climbing,
      length_le_of_increasing climbing fun level member => ?_⟩
    obtain rfl | member := List.mem_cons.mp member
    · exact (List.getElem?_eq_some_iff.mp there).1
    · obtain ⟨receiver, listed, rfl⟩ := List.mem_map.mp member
      obtain ⟨_, _, level, sits⟩ := members receiver listed
      exact (List.getElem?_eq_some_iff.mp sits).1

/-! ## Two small chains -/

/-- Whether a name is one of functions only among the members of an instance. -/
def checkMembers (world : World) (id : InstanceId) (name : String) : Bool :=
  ((world.object id).levels.all fun level =>
    ((world.cls level.cls).functions.all fun function =>
      function.name ≠ name || function.annotations.isEmpty) &&
    Access.all.all fun tier => ((world.store (level.declarations tier)).slot? name).all fun slot =>
      slot.immutable && slot.annotations.isEmpty) &&
  Access.all.all fun tier => ((world.store (rootStore tier)).slot? name).all fun slot =>
    slot.immutable

/-- Whether a name is one of functions only in the assembly. -/
def checkAssembly (world : World) (name : String) : Bool :=
  (world.functions.all fun function => function.name ≠ name || function.annotations.isEmpty) &&
  Access.all.all fun tier => ((world.store (rootStore tier)).slot? name).all fun slot =>
    slot.annotations.isEmpty

theorem mem_all (tier : Access) : tier ∈ Access.all := by
  cases tier <;> decide

theorem onlyMembers_of_check {world : World} {id : InstanceId} {name : String}
    (checked : world.checkMembers id name = true) : world.OnlyMemberFunctions id name := by
  unfold checkMembers at checked
  simp only [Bool.and_eq_true, List.all_eq_true, Option.all_eq_true] at checked
  obtain ⟨levels, roots⟩ := checked
  refine ⟨fun level member function declared named => ?_, fun level member tier slot found => ?_,
    fun tier slot found => roots tier (mem_all tier) slot found⟩
  · have plain := (levels level member).1 function declared
    simpa [named] using plain
  · simpa using (levels level member).2 tier (mem_all tier) slot found

theorem onlyFunctions_of_check {world : World} {id : InstanceId} {name : String}
    (members : world.checkMembers id name = true) (checked : world.checkAssembly name = true) :
    world.OnlyFunctions id name := by
  unfold checkAssembly at checked
  simp only [Bool.and_eq_true, List.all_eq_true, Option.all_eq_true] at checked
  obtain ⟨functions, roots⟩ := checked
  refine ⟨onlyMembers_of_check members, fun function declared named => ?_, fun tier slot found => ?_⟩
  · simpa [named] using functions function declared
  · simpa using roots tier (mem_all tier) slot found

section

variable (start : World) (cls : ClassId)

/-- An instance of a class is made, and its function is looked up. -/
def lookedUp : World :=
  (performUpTo 9 (.read (.store ⟨3⟩) "f") (newInstance cls .standard start).2).2

theorem proceeds_lookedUp : Proceeds start (lookedUp start cls) :=
  (LeadsFreely.proceeds (newInstance_leads cls .standard) start).trans
    (performUpTo_proceeds 9 (.read (.store ⟨3⟩) "f") (newInstance cls .standard start).2)

end

/-- The body of a function that is bound to the first level of an instance. -/
def firstBody : Invocation := ⟨ownContext, some ⟨⟨0⟩, 0⟩, []⟩

/-- In the body the base of the function is called. -/
def firstBaseCall (world : World) (alive : world.alive = true)
    (sits : (world.level? ⟨0⟩ 0).isSome) (callable : CallableId)
    (found : (performUpTo 9 (.read (compositeScope (world.object ⟨0⟩).levels ⟨0, .localOnly, .base⟩
      true) "f") (openScope? ⟨0⟩ ⟨0, .localOnly, .base⟩ world).2).1.result? =
        some (.function callable)) : BaseCall "f" where
  budget := 9
  invocation := firstBody
  args := []
  values := []
  before := world
  asked := world
  scope := compositeScope (world.object ⟨0⟩).levels ⟨0, .localOnly, .base⟩ true
  looking := (openScope? ⟨0⟩ ⟨0, .localOnly, .base⟩ world).2
  callable := callable
  after := _
  evaluates := by
    rw [evaluateAll]
    rfl
  opens := by
    obtain ⟨level, sits⟩ := Option.isSome_iff_exists.mp sits
    have opened := @openScope?_composite world ⟨0⟩ ⟨0, .localOnly, .base⟩ level sits nofun
    rw [alive, Bool.or_true] at opened
    unfold Invocation.baseScope Invocation.scopeIn firstBody
    dsimp only
    rw [bind_of_done _ opened, opened]
    rfl
  finds := done_of_result? found

theorem nested_firstBaseCall {condition : World → Prop} {world : World}
    (alive : world.alive = true) (sits : (world.level? ⟨0⟩ 0).isSome) {callable : CallableId}
    (found : (performUpTo 9 (.read (compositeScope (world.object ⟨0⟩).levels ⟨0, .localOnly, .base⟩
      true) "f") (openScope? ⟨0⟩ ⟨0, .localOnly, .base⟩ world).2).1.result? =
        some (.function callable))
    (holds : condition (openScope? ⟨0⟩ ⟨0, .localOnly, .base⟩ world).2) {bound : Receiver}
    (receiver : (firstBaseCall world alive sits callable found).callee.receiver = some bound) :
    NestedBaseCalls "f" condition world firstBody [bound] := by
  have nested : NestedBaseCalls "f" condition world firstBody
      ((firstBaseCall world alive sits callable found).callee.receiver.toList ++ []) :=
    .call (firstBaseCall world alive sits callable found) (.refl _) holds (.stop _ _)
  rwa [receiver] at nested

/-- A class with a function that calls the base of its name, which its base has. -/
def climbSpecs : List ClassSpec :=
  [bareClass "Base" none [] [bareFunction "f" .null],
   bareClass "Derived" (some "Base") [] [bareFunction "f" (.baseCall "f" [])]]

/-- An instance of the class, with its function. -/
def climbState : World := lookedUp (sampleStart climbSpecs) ⟨1⟩

/-- What lies past the level of the function. -/
def climbScope : Scope :=
  compositeScope (climbState.object ⟨0⟩).levels ⟨0, .localOnly, .base⟩ true

/-- The state in which the name is looked up there, and the state after it. -/
def climbLooking : World := (openScope? ⟨0⟩ ⟨0, .localOnly, .base⟩ climbState).2

def climbAfter : World := (performUpTo 9 (.read climbScope "f") climbLooking).2

/-- The function of the class calls that of its base, which is found past its level, and there is
room for both. -/
theorem base_calls_climb_override :
    (∃ function receiver,
      climbAfter.callables.get? ⟨1⟩ = some (.ofFunction function receiver) ∧
      climbAfter.FoundFrom ⟨0⟩ 1 function receiver) ∧
    NestedBaseCalls "f" (OnlyFunctions ⟨0⟩ "f") climbState firstBody [⟨⟨0⟩, 1⟩] ∧
    1 < (climbState.object ⟨0⟩).levels.length := by
  have alive : (defining default climbSpecs).alive = true := by decide +kernel
  have valid : Session.validate (defining default climbSpecs) =
      (.done (.ok ()), sampleStart climbSpecs) := by
    rw [validate_of_alive alive]
    rfl
  obtain ⟨finds, climbs⟩ := base_calls_climb (reachable_defining default climbSpecs) valid
    (by decide +kernel) (distinctHashes_of_nodup (by decide +kernel)) ⟨0⟩
  have nested : NestedBaseCalls "f" (OnlyFunctions ⟨0⟩ "f") climbState firstBody [⟨⟨0⟩, 1⟩] :=
    @nested_firstBaseCall _ climbState (by decide +kernel) (by decide +kernel) ⟨1⟩
      (by decide +kernel) (onlyFunctions_of_check (by decide +kernel) (by decide +kernel)) _
      (by decide +kernel)
  obtain ⟨function, made⟩ := Option.isSome_iff_exists.mp
    (show ((climbState.callables.get ⟨0⟩).function).isSome from by decide +kernel)
  obtain ⟨_, _, bounded⟩ := climbs climbState ⟨0⟩ function 0 firstBody "f" _
    (proceeds_lookedUp _ _) made (by decide +kernel) rfl nested
  obtain ⟨level, sits⟩ := Option.isSome_iff_exists.mp
    (show (climbState.level? ⟨0⟩ 0).isSome from by decide +kernel)
  have opens : openScope? ⟨0⟩ ⟨0, .localOnly, .base⟩ climbState =
      (.done (some climbScope), climbLooking) := by
    have opened := @openScope?_composite climbState ⟨0⟩ ⟨0, .localOnly, .base⟩ level sits nofun
    rw [show climbState.alive = true from by decide +kernel, Bool.or_true] at opened
    unfold climbScope climbLooking
    rw [opened]
  obtain ⟨found, receiver, kept, past, _⟩ := finds climbState ⟨0, .localOnly, .base⟩ climbScope
    climbLooking climbAfter ⟨6⟩ "f" ⟨1⟩ (proceeds_lookedUp _ _) opens
    (performUpTo_proceeds 9 _ _) (by decide +kernel)
    ⟨.function ⟨1⟩, by decide +kernel, rfl, rfl⟩
  exact ⟨⟨found, receiver, kept, past rfl⟩, nested, bounded⟩

/-- A class with a function that calls the base of its name, which is that of a function of the
assembly.  Whoever looks that one up is given what the session keeps under a name. -/
def againSpecs : List ClassSpec :=
  [⟨"Again", .marker, none, [], [bareFunction "onGet" (.var "own")], [], none, none⟩,
   bareClass "Derived" none [] [bareFunction "f" (.baseCall "f" [])]]

/-- The function of the assembly. -/
def againFunction : FunctionDecl String :=
  ⟨"f", .global, .ordinary, .any, .script .null, [⟨"Again", []⟩], none⟩

/-- The state after the function is defined. -/
def againDefined : World :=
  ((World.defineFunction againFunction).run (defining default againSpecs)).2

theorem reachable_againDefined : Reachable againDefined :=
  (reachable_defining default _).defineFunction againFunction

/-- The state after the registry is validated. -/
def againStart : World := (validate.run againDefined).2

/-- An instance of the class, with its function, which the session keeps. -/
def againState : World := (lookedUp againStart ⟨1⟩).bind "own" (.value (.function ⟨0⟩))

/-- The function calls the base of its name, which gives the function itself. -/
theorem base_call_returns : ¬ ∀ defined start world : World, Reachable defined →
    Session.validate defined = (.done (.ok ()), start) → start.instances.size = 0 →
    start.DistinctHashes → Proceeds start world →
    ∀ id caller function place invocation name receivers,
      (world.callables.get caller).function = some function →
      (world.callables.get caller).receiver = some ⟨id, place⟩ →
      invocation.receiver = some ⟨id, place⟩ →
      NestedBaseCalls name (OnlyMemberFunctions id name) world invocation receivers →
      (place :: receivers.map Receiver.level).Pairwise (· < ·) := by
  intro claim
  have alive : againDefined.alive = true := by decide +kernel
  have valid : Session.validate againDefined = (.done (.ok ()), againStart) := by
    rw [validate_of_alive alive]
    rfl
  have proceeds : Proceeds againStart againState :=
    (proceeds_lookedUp againStart ⟨1⟩).trans (.host (.refl _) (.bindings _))
  have nested : NestedBaseCalls "f" (OnlyMemberFunctions ⟨0⟩ "f") againState firstBody [⟨⟨0⟩, 0⟩] :=
    @nested_firstBaseCall _ againState (by decide +kernel) (by decide +kernel) ⟨0⟩
      (by decide +kernel) (onlyMembers_of_check (by decide +kernel)) _ (by decide +kernel)
  obtain ⟨function, made⟩ := Option.isSome_iff_exists.mp
    (show ((againState.callables.get ⟨0⟩).function).isSome from by decide +kernel)
  have climbs := claim againDefined againStart againState reachable_againDefined valid
    (by decide +kernel) (distinctHashes_of_nodup (by decide +kernel)) proceeds ⟨0⟩ ⟨0⟩ function 0
    firstBody "f" _ made (by decide +kernel) rfl nested
  exact absurd climbs (by decide)

end World

end ScriptObjects

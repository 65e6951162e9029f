import ScriptObjects.Proofs.Commands
import ScriptObjects.Proofs.Isolation
import ScriptObjects.Proofs.Members

/-!
# Reads and writes are well typed

A slot has a declared type.  What a read takes from the slot is a value of that type:
a slot that keeps its value keeps one that its type accepts, and what a host object gives
is checked on its way back.  What a write puts into the slot, or hands to the host, is a
value of the type as well, for it is checked behind the hooks of the slot.

The hooks of a read come last, and nothing checks what they answer.  So a read returns a
value of the declared type, or what a read hook of one of the annotations answered.
-/

namespace ScriptObjects

set_option autoImplicit false

open World Exec

/-! ## A lookup that succeeds -/

section

variable {α : Type} {name : String} {run next : Exec α} {world after : World} {result : α}

theorem orElseMissing_done (ends : orElseMissing name run next world = (.done result, after)) :
    run world = (.done result, after) ∨
      ∃ fault between, run world = (.failed fault, between) ∧
        next between = (.done result, after) := by
  unfold orElseMissing Exec.recover at ends
  rcases first : run world with ⟨outcome, between⟩
  rw [first] at ends
  cases outcome with
  | done => exact .inl ends
  | exhausted => cases ends
  | failed fault =>
      dsimp only at ends
      split at ends
      · exact .inr ⟨fault, between, rfl, ends⟩
      · cases ends

end

namespace Exec.OrderlyAt

variable {α : Type} [Naming α] {run : Exec α} {world after : World}

/-- Where a run led from order to order. -/
theorem ends {outcome : Outcome α} (orderly : OrderlyAt run world) (order : world.InOrder)
    (ran : run world = (outcome, after)) :
    world.Grows after ∧ after.InOrder ∧ ∀ result, outcome = .done result → after.Has result := by
  have given := orderly order
  rw [ran] at given
  exact given

end Exec.OrderlyAt

namespace TriesStores

variable {α : Type} [Naming α] {name : String} {atStore : StoreId → Exec α}
  {atScope : Scope → Exec α} {among : List Scope → Exec α} {start after : World} {result : α}

mutual

/-- A lookup through a scope that succeeds does so at a store of the scope, in an orderly state that
the stores before have led to. -/
theorem done_at (tries : TriesStores name atStore atScope among)
    (orderly : ∀ here, start.Grows here → ∀ scope, OrderlyAt (atScope scope) here) {here : World} :
    (scope : Scope) → start.Grows here → here.InOrder → atScope scope here = (.done result, after) →
      ∃ store ∈ scope.stores, ∃ there, start.Grows there ∧ there.InOrder ∧
        atStore store there = (.done result, after)
  | .store id, reached, order, ends => by
      rw [tries.store] at ends
      exact ⟨id, by simp [Scope.stores], here, reached, order, ends⟩
  | .composite sources, reached, order, ends => by
      rw [tries.composite] at ends
      exact done_among tries orderly sources reached order ends

theorem done_among (tries : TriesStores name atStore atScope among)
    (orderly : ∀ here, start.Grows here → ∀ scope, OrderlyAt (atScope scope) here) {here : World} :
    (sources : List Scope) → start.Grows here → here.InOrder →
      among sources here = (.done result, after) →
      ∃ store ∈ Scope.storesOf sources, ∃ there, start.Grows there ∧ there.InOrder ∧
        atStore store there = (.done result, after)
  | [], _, _, ends => by
      rw [tries.nil] at ends
      cases ends
  | source :: rest, reached, order, ends => by
      rw [tries.cons] at ends
      rw [Scope.storesOf]
      obtain first | ⟨fault, between, missed, later⟩ := orElseMissing_done ends
      · obtain ⟨store, member, there⟩ := done_at tries orderly source reached order first
        exact ⟨store, List.mem_append_left _ member, there⟩
      · obtain ⟨further, waiting, _⟩ := (orderly here reached source).ends order missed
        obtain ⟨store, member, there⟩ :=
          done_among tries orderly rest (reached.trans further) waiting later
        exact ⟨store, List.mem_append_right _ member, there⟩

end

end TriesStores

/-! ## What the host gives and takes -/

section

variable {world after : World} {type : ValueType} {value : Value}

theorem coerceBack_typed {given : Value}
    (ends : coerceBack type given world = (.done value, after)) :
    after.accepts type value = true := by
  unfold coerceBack at ends
  rw [bind_of_done _ (coerce?_apply type given world)] at ends
  cases accepted : world.accepts type given with
  | true =>
      rw [accepted] at ends
      cases ends
      exact (accepts_resolveBases world _ type _).trans (accepts_widen accepted).1
  | false =>
      rw [accepted] at ends
      cases ends

/-- What comes back from the host at a type is a value of the type. -/
theorem fromHost_typed {perform : Perform} {host : HostId}
    (ends : fromHost perform type host world = (.done value, after)) :
    after.accepts type value = true := by
  have taken : ∀ (object : HostObject) {world : World},
      takeBack perform type host object world = (.done value, after) →
      after.accepts type value = true := by
    intro object world ends
    unfold takeBack at ends
    cases direct : object.directValue? with
    | some given =>
        rw [direct] at ends
        exact coerceBack_typed ends
    | none =>
        rw [direct] at ends
        obtain ⟨given, between, _, last⟩ := bind_done ends
        exact coerceBack_typed last
  obtain ⟨object, between, _, rest⟩ := bind_done ends
  rw [get_bind_apply] at rest
  split at rest
  · cases refused : refusedCount? object with
    | some name =>
        rw [refused] at rest
        cases rest
    | none =>
        rw [refused] at rest
        exact taken object rest
  · exact taken object rest

/-- What goes to the host at a type is a value of the type. -/
theorem toHost_typed {host : HostId} (ends : toHost value type world = (.done host, after)) :
    world.accepts type value = true := by
  by_contra rejected
  have refused : ∀ {unsupported : Fault},
      convertHost type value unsupported world ≠ (.done host, after) := by
    intro unsupported done
    have asked : Exec.accepts type value world = (.done (world.accepts type value),
        world.resolveBases (world.visitedByAccepts type value)) := rfl
    unfold convertHost at done
    rw [bind_of_done _ asked, if_neg rejected] at done
    cases done
  unfold toHost at ends
  rw [get_bind_apply] at ends
  split at ends
  · cases ends
  · exact refused ends

end

/-! ## Reading a slot -/

/-- The part of a read that comes before the hooks: what the slot keeps, or what its host object
gives. -/
def fetchSlot (perform : Perform) (id : StoreId) (name : String) (slot : Slot) : Exec Value := do
  match slot.content with
  | .script (some value) => pure value
  | .script none => throw (.lookup (.notAssigned name))
  | .host accessor reference => do
      let host ← resolveReference reference
      let raw ← accessor.read host
      requireStoreAssembly id
      fromHost perform slot.type raw

/-- The part of a read in which the hooks of a slot see the value. -/
def readHooks (perform : Perform) (id : StoreId) (name : String) (slot : Slot) (value : Value) :
    Exec Value := do
  if slot.annotations.isEmpty then return value
  requireStoreAssembly id
  intercept perform .onRead name value slot.annotations

theorem readSlot_of_found (perform : Perform) {world : World} {id : StoreId} {name : String}
    {slot : Slot} (found : (world.store id).slot? name = some slot) :
    readSlot perform id name world =
      (fetchSlot perform id name slot >>= readHooks perform id name slot) world := by
  unfold readSlot fetchSlot
  rw [get_bind_apply, found]
  dsimp only
  cases slot.content with
  | script value => cases value <;> rfl
  | host accessor reference => simp only [bind_assoc]; rfl

namespace World

/-- A store does not reach its assembly. -/
def Detached (world : World) (store : StoreId) : Prop :=
  world.alive = false ∨ (world.store store).home = .free false

/-- A store that reaches its assembly lets its hooks be called, and another one does not. -/
theorem requireStoreAssembly_run (world : World) (store : StoreId) :
    requireStoreAssembly store world = (.done (), world) ∧ world.alive = true ∨
      requireStoreAssembly store world = (.failed .assemblyDropped, world) ∧
        world.Detached store := by
  by_cases lost : (world.store store).home = .free false
  · refine .inr ⟨?_, .inr lost⟩
    unfold requireStoreAssembly
    rw [get_bind_apply, lost]
    rfl
  · have asks : requireStoreAssembly store world = Exec.requireAssembly world := by
      unfold requireStoreAssembly
      rw [get_bind_apply]
      generalize (world.store store).home = home at lost ⊢
      cases home with
      | free attached =>
          cases attached with
          | false => exact absurd rfl lost
          | true => rfl
      | level | root => rfl
    rw [asks]
    unfold Exec.requireAssembly
    rw [get_bind_apply]
    cases alive : world.alive with
    | true => exact .inl ⟨rfl, rfl⟩
    | false => exact .inr ⟨rfl, .inl alive⟩

end World

/-- A value that passes through hooks comes to one that answers something else, and passes through
the others as this hook answered it. -/
inductive AnsweredBy (perform : Perform) (key : MetaKey) (name : String)
    (annotations : List InstanceId) (taken : Value) (begun : World) (value : Value) (after : World) :
    Prop
  | intro {earlier rest : List InstanceId} { annotation : InstanceId} {given : Value}
      {before answered : World} {link : MetaLink}
      (among : annotations = earlier ++ annotation :: rest)
      (passed : intercept perform key name taken earlier begun = (.done given, before))
      (linked : (before.metaTable (before.object annotation).cls).get? key = some link)
      (answers : hook perform World.ownContext annotation key [.text name, given] before =
        (.done (some value), answered))
      (kept : intercept perform key name value rest answered = (.done value, after)) :
      AnsweredBy perform key name annotations taken begun value after

/-- What passes the first hook passes the others later. -/
theorem AnsweredBy.cons {perform : Perform} {key : MetaKey} {name : String} {attached : InstanceId}
    {annotations : List InstanceId} {taken left value : Value} {begun between after : World}
    {answer : Option Value}
    (hooked : hook perform World.ownContext attached key [.text name, taken] begun =
      (.done answer, between)) (leaves : answer.getD taken = left)
    (later : AnsweredBy perform key name annotations left between value after) :
    AnsweredBy perform key name (attached :: annotations) taken begun value after := by
  obtain ⟨among, passed, linked, answers, kept⟩ := later
  subst among leaves
  refine .intro (List.cons_append).symm ?_ linked answers kept
  refine (bind_of_done _ hooked).trans ?_
  cases answer <;> exact passed

/-- Hooks that nothing answers leave the value as it was. -/
theorem intercept_done {perform : Perform} {key : MetaKey} {name : String}
    {annotations : List InstanceId} {value result : Value} {world after : World}
    (ends : intercept perform key name value annotations world = (.done result, after)) :
    result = value ∨ AnsweredBy perform key name annotations value world result after := by
  induction annotations generalizing value world with
  | nil =>
      cases ends
      exact .inl rfl
  | cons attached rest ih =>
      obtain ⟨answer, between, hooked, later⟩ := bind_done ends
      cases answer with
      | none => exact (ih later).imp_right fun answered => answered.cons hooked rfl
      | some given =>
          obtain rfl | answered := ih later
          · cases linked : (world.metaTable (world.object attached).cls).get? key with
            | none =>
                rw [hook_of_none perform _ _ linked] at hooked
                cases hooked
            | some link => exact .inr (.intro (List.nil_append _).symm rfl linked hooked later)
          · exact .inr (answered.cons hooked rfl)

/-- A slot that was there has the type that it was declared with. -/
theorem World.Grows.declared_type {start here : World} (reached : start.Grows here)
    {store : StoreId} {name : String} {slot : Slot}
    (found : (here.store store).slot? name = some slot) :
    ∀ old, (start.store store).slot? name = some old → slot.type = old.type := by
  intro old there
  obtain ⟨later, still, persists⟩ := reached.slots store name old there
  cases found.symm.trans still
  exact persists.type

/-- A read that came to a slot of a store: it took a value of the type of the slot, and returned it
through the hooks of the slot. -/
inductive ReadsTyped (perform : Perform) (start : World) (store : StoreId) (name : String) :
    Value → World → Prop
  | intro {here between after : World} {slot : Slot} {taken value : Value}
      (reached : start.Grows here) (found : (here.store store).slot? name = some slot)
      (declared : ∀ old, (start.store store).slot? name = some old → slot.type = old.type)
      (fetched : fetchSlot perform store name slot here = (.done taken, between))
      (typed : between.accepts slot.type taken = true)
      (hooked : readHooks perform store name slot taken between = (.done value, after))
      (returned : (value = taken ∧ after.accepts slot.type value = true) ∨
        AnsweredBy perform .onRead name slot.annotations taken between value after) :
      ReadsTyped perform start store name value after

section

variable {perform : Perform} (nested : perform.Orderly) {start world after : World} {id : StoreId}
  {name : String} {slot : Slot} {value : Value}
include nested

theorem fetchSlot_orderly (order : world.InOrder)
    (found : (world.store id).slot? name = some slot) :
    OrderlyAt (fetchSlot perform id name slot) world := by
  obtain ⟨before, after, split, _⟩ := List.lookup_eq_some_iff.mp found
  have fits := order.holds.slots id (name, slot) (by rw [split]; simp)
  obtain ⟨type, content, annotations, immutable⟩ := slot
  cases content with
  | script kept =>
      cases kept with
      | none => exact .throw _
      | some kept => exact .pure (fits.known kept rfl)
  | host accessor reference =>
      refine .bind (resolveReference_orderly reference) fun host _ _ known => ?_
      refine .bind (accessor.read_orderly known) fun raw _ _ made => ?_
      refine .bind (requireStoreAssembly_orderly id) fun _ _ grows _ => ?_
      exact fromHost_orderly nested type (grows.has made)

omit nested in
/-- What is taken from a slot is a value of its type. -/
theorem fetchSlot_typed (order : world.InOrder)
    (found : (world.store id).slot? name = some slot)
    (ends : fetchSlot perform id name slot world = (.done value, after)) :
    after.accepts slot.type value = true := by
  obtain ⟨before, rest, split, _⟩ := List.lookup_eq_some_iff.mp found
  have fits := order.holds.slots id (name, slot) (by rw [split]; simp)
  obtain ⟨type, content, annotations, immutable⟩ := slot
  cases content with
  | script kept =>
      cases kept with
      | none => cases ends
      | some kept =>
          cases ends
          exact fits.accepted value rfl
  | host accessor reference =>
      obtain ⟨host, _, _, rest⟩ := bind_done ends
      obtain ⟨raw, _, _, rest⟩ := bind_done rest
      obtain ⟨_, _, _, last⟩ := bind_done rest
      exact fromHost_typed last

theorem readHooks_orderly (has : world.Has value) :
    OrderlyAt (readHooks perform id name slot value) world := by
  unfold readHooks
  split
  · exact .pure has
  · exact .bind (requireStoreAssembly_orderly id) fun _ _ grows _ =>
      intercept_orderly nested _ name _ (grows.has has)

omit nested in
theorem readHooks_done {taken : Value}
    (ends : readHooks perform id name slot taken world = (.done value, after)) :
    value = taken ∨ AnsweredBy perform .onRead name slot.annotations taken world value after := by
  unfold readHooks at ends
  split at ends
  · cases ends
    exact .inl rfl
  · obtain ⟨_, _, required, last⟩ := bind_done ends
    obtain ⟨same, _⟩ | ⟨fails, _⟩ := requireStoreAssembly_run world id
    · cases same.symm.trans required
      exact intercept_done last
    · cases fails.symm.trans required

theorem readSlot_typed (reached : start.Grows world) (order : world.InOrder)
    (ends : readSlot perform id name world = (.done value, after)) :
    ReadsTyped perform start id name value after := by
  cases found : (world.store id).slot? name with
  | none =>
      unfold readSlot at ends
      rw [get_bind_apply, found] at ends
      cases ends
  | some slot =>
      rw [readSlot_of_found perform found] at ends
      obtain ⟨taken, between, fetched, hooked⟩ := bind_done ends
      obtain ⟨_, waiting, has⟩ := (fetchSlot_orderly nested order found).ends order fetched
      have known := has taken rfl
      have typed := fetchSlot_typed order found fetched
      obtain ⟨grows, _⟩ := (readHooks_orderly nested known).ends waiting hooked
      refine .intro reached found (reached.declared_type found) fetched typed hooked
        ((readHooks_done hooked).imp_left ?_)
      rintro rfl
      exact ⟨rfl, grows.toKeepsTypes.accepts waiting.placed known typed⟩

theorem readStore_typed (reached : start.Grows world) (order : world.InOrder)
    (ends : readStore perform id name world = (.done value, after)) :
    ReadsTyped perform start id name value after := by
  obtain first | ⟨fault, between, missed, later⟩ := orElseMissing_done ends
  · exact readSlot_typed nested reached order first
  · obtain ⟨further, waiting, _⟩ := (readSlot_orderly nested id name).ends order missed
    obtain ⟨made, installed, materialized, last⟩ := bind_done later
    obtain ⟨grows, ready, _⟩ := (materialize_orderly nested id name).ends waiting materialized
    cases made with
    | true => exact readSlot_typed nested ((reached.trans further).trans grows) ready last
    | false => cases last

end

/-! ## Writing a slot -/

/-- A write that came to a slot of a store: the slot keeps a value of its type, or its host object
was given one. -/
inductive WritesTyped (start : World) (store : StoreId) (name : String) : World → Prop
  | kept {here after : World} {slot last : Slot} {old : Option Value} {stored : Value}
      (reached : start.Grows here) (found : (here.store store).slot? name = some slot)
      (declared : ∀ old, (start.store store).slot? name = some old → slot.type = old.type)
      (script : slot.content = .script old)
      (there : (after.store store).slot? name = some last) (same : last.type = slot.type)
      (holds : last.content = .script (some stored))
      (typed : after.accepts slot.type stored = true) : WritesTyped start store name after
  | handed {here given crossed after : World} {slot : Slot} {accessor : Accessor}
      {reference : ReferenceId} {stored : Value} {host raw : HostId}
      (reached : start.Grows here) (found : (here.store store).slot? name = some slot)
      (declared : ∀ old, (start.store store).slot? name = some old → slot.type = old.type)
      (hosted : slot.content = .host accessor reference)
      (typed : given.accepts slot.type stored = true)
      (crosses : toHost stored slot.type given = (.done raw, crossed))
      (written : accessor.write host raw crossed = (.done (), after)) :
      WritesTyped start store name after

section

variable {perform : Perform} (nested : perform.Orderly) {start world after : World} {id : StoreId}
  {name : String} {slot : Slot} {value : Value}
include nested

omit nested in
theorem storeValue_typed {here : World} (reached : start.Grows here)
    (found : (here.store id).slot? name = some slot) (further : here.Grows world)
    (ends : storeValue id name slot value world = (.done (), after)) :
    WritesTyped start id name after := by
  cases content : slot.content with
  | script old =>
      rw [storeValue_of_script value content] at ends
      cases accepted : world.accepts slot.type value with
      | false =>
          rw [accepted] at ends
          cases ends
      | true =>
          rw [accepted] at ends
          cases ends
          let walked := world.resolveBases (world.visitedByAccepts slot.type value)
          let written := walked.withStore id (·.modify name (·.write (slot.type.widen value)))
          obtain ⟨current, there, persists⟩ := further.slots id name slot found
          obtain ⟨held, script⟩ := persists.script old content
          have still : (walked.store id).slot? name = some current := by
            unfold walked
            rw [resolveBases_eq]
            exact there
          have last : (written.store id).slot? name =
              some (current.write (slot.type.widen value)) := slot?_withStore_modify still _
          have stored : current.write (slot.type.widen value) =
              { current with content := .script (some (slot.type.widen value)) } := by
            unfold Slot.write
            rw [script]
          have asked : walked.accepts slot.type (slot.type.widen value) = true :=
            (accepts_resolveBases world _ slot.type _).trans (accepts_widen accepted).1
          have same : SameHierarchy walked written := .of_same rfl rfl rfl rfl
          rw [stored] at last
          exact .kept reached found (reached.declared_type found) content last persists.type rfl
            ((same.accepts rfl rfl slot.type _).trans asked)
  | host accessor reference =>
      unfold storeValue at ends
      rw [bind_of_done _ (coerce?_apply slot.type value world)] at ends
      cases accepted : world.accepts slot.type value with
      | false =>
          rw [accepted] at ends
          cases ends
      | true =>
          rw [accepted, if_pos rfl] at ends
          dsimp only at ends
          rw [content] at ends
          obtain ⟨_, _, _, rest⟩ := bind_done ends
          obtain ⟨host, given, _, rest⟩ := bind_done rest
          obtain ⟨raw, crossed, crosses, written⟩ := bind_done rest
          exact .handed reached found (reached.declared_type found) content (toHost_typed crosses)
            crosses written

theorem assignSlot_typed (reached : start.Grows world) (order : world.InOrder)
    (has : world.Has value) (ends : assignSlot perform id name value world = (.done (), after)) :
    WritesTyped start id name after := by
  cases found : (world.store id).slot? name with
  | none =>
      rw [assignSlot_of_missing perform value found] at ends
      cases ends
  | some slot =>
      cases held : slot.immutable with
      | true =>
          rw [assignSlot_of_immutable perform value found held] at ends
          cases ends
      | false =>
          rw [assignSlot_of_mutable perform value found held] at ends
          obtain ⟨result, between, hooked, last⟩ := bind_done ends
          obtain ⟨grows, waiting, _⟩ :=
            (writeHooks_orderly nested id name slot has).ends order hooked
          exact storeValue_typed reached found grows last

theorem assignStore_typed (reached : start.Grows world) (order : world.InOrder)
    (has : world.Has value) (ends : assignStore perform id name value world = (.done (), after)) :
    WritesTyped start id name after := by
  obtain first | ⟨fault, between, missed, later⟩ := orElseMissing_done ends
  · exact assignSlot_typed nested reached order has first
  · obtain ⟨made, installed, materialized, last⟩ := bind_done later
    cases made <;> cases last

end

/-! ## Through a scope -/

/-- In every state of a session, a read through a scope that succeeds has taken a value that the
declared type of the slot accepts, and returns it unless a read hook of an annotation of the slot
answered something else; and a write that succeeds has left a value in the slot that the declared
type accepts, or has handed one to its host object. -/
theorem access_typed {config : Config} {marshaling : MarshalRules} {world : World}
    (begins : History (.initial config marshaling) world) (budget : Nat) (scope : Scope)
    (name : String) :
    (∀ value after, performUpTo (budget + 1) (.read scope name) world = (.done value, after) →
      ∃ store ∈ scope.stores, ReadsTyped (performUpTo budget) world store name value after) ∧
    ∀ value after, world.Has value →
      performUpTo (budget + 1) (.assign scope name value) world = (.done (), after) →
      ∃ store ∈ scope.stores, WritesTyped world store name after := by
  obtain ⟨_, order⟩ := begins.advances (inOrder_initial config marshaling)
  have nested := performUpTo_orderly budget
  constructor
  · intro value after ends
    have orderly : ∀ here, world.Grows here → ∀ scope,
        OrderlyAt (readScope (performUpTo budget) name scope) here :=
      fun _ _ => readScope_orderly nested name
    obtain ⟨store, member, there, reached, ready, last⟩ :=
      (readScope_tries (performUpTo budget) name).done_at orderly scope (.refl world) order ends
    exact ⟨store, member, readStore_typed nested reached ready last⟩
  · intro value after has ends
    have orderly : ∀ here, world.Grows here → ∀ scope,
        OrderlyAt (assignScope (performUpTo budget) name value scope) here :=
      fun _ grows => assignScope_orderly nested name (grows.has has)
    obtain ⟨store, member, there, reached, ready, last⟩ :=
      (assignScope_tries (performUpTo budget) name value).done_at orderly scope (.refl world) order
        ends
    exact ⟨store, member, assignStore_typed nested reached ready (reached.has has) last⟩

/-- An annotation whose read hook answers a text. -/
def loudSpec : ClassSpec :=
  ⟨"Loud", .marker, none, [], [bareFunction "onGet" (.text "loud")], [], none, none⟩

/-- A class with a field for integers that has the annotation. -/
def tankSpec : ClassSpec :=
  ⟨"Tank", .ordinary, none,
    [⟨"level", .global, .int, .script (some (.int 1)), [⟨"Loud", []⟩], none⟩], [], [], none, none⟩

/-- A session with an instance of the class. -/
def tankCreated : World :=
  (Command.operate 9 (.create "Tank" .standard [])).after
    ((Command.define tankSpec).after ((Command.define loudSpec).after (.initial default .standard)))

theorem history_tankCreated : History (.initial default .standard) tankCreated :=
  .next (.next (.next (.start _) (.define loudSpec) trivial) (.define tankSpec) trivial)
    (.operate 9 (.create "Tank" .standard [])) has_nil

theorem read_tankCreated :
    (performUpTo 9 (.read (.store ⟨3⟩) "level") tankCreated).1.result? = some (.text "loud") := by
  decide +kernel

theorem access_typed_tank : ∃ store ∈ (Scope.store ⟨3⟩).stores,
    ReadsTyped (performUpTo 8) tankCreated store "level" (.text "loud")
      (performUpTo 9 (.read (.store ⟨3⟩) "level") tankCreated).2 :=
  (access_typed history_tankCreated 8 (.store ⟨3⟩) "level").1 _ _ (done_of_result? read_tankCreated)

/-- The field keeps an integer, and its read hook makes a text of it. -/
theorem read_untyped : ¬ ∀ (config : Config) (world after : World) (budget : Nat) (store : StoreId)
    (name : String) (slot : Slot) (value : Value), History (.initial config .standard) world →
    (world.store store).slot? name = some slot →
    performUpTo budget (.read (.store store) name) world = (.done value, after) →
    after.accepts slot.type value = true := by
  intro claim
  have found : ((tankCreated.store ⟨3⟩).slot? "level") =
      some ⟨.int, .script (some (.int 1)), [⟨1⟩], false⟩ := by decide +kernel
  have accepted := claim default tankCreated _ 9 ⟨3⟩ "level" _ _ history_tankCreated found
    (done_of_result? read_tankCreated)
  cases accepted

end ScriptObjects

import ScriptObjects.Proofs.AnnotationHooks
import ScriptObjects.Proofs.HookCalls
import ScriptObjects.Proofs.Milestones
import ScriptObjects.Proofs.Contents
import ScriptObjects.Proofs.TypedAccess

/-!
# Values pass through the hooks of a slot

A value on its way into a slot passes through the hooks for writes of all annotations of the slot,
and one on its way out through those for reads, in the order of the annotations.  Each hook sees
what the one before it answered, and annotations without the hook are skipped.

What the slot is, is looked at before the first hook: its type and its annotations.  Neither of them
can change until the last hook has answered, and then the type is asked about what is left, and
about nothing before.  So there is one write at the end or none: as long as no hook asks for a write
of the slot itself, a write that fails leaves the slot as it was, and a read always does.
-/

namespace ScriptObjects

set_option autoImplicit false

open Exec World

/-! ## Hooks in turn -/

section

variable {perform : Perform} {context : ContextId} {id : InstanceId} {key : MetaKey}
  {args : List Value} {world after : World}

/-- What a type of any result lets through is the result as it is. -/
theorem castReturn_of_any {value : Value} (any : key.expectedReturn = .any) :
    castReturn key value world = (.done value, world) := by
  unfold castReturn
  rw [any]
  rfl

end

/-- Asking a class for its meta-functions moves no level. -/
theorem World.levelOf?_keepMetaTable (world : World) (cls : ClassId) (id : InstanceId)
    (hash : TypeHash) :
    (world.keepMetaTable cls).levelOf? id hash = world.levelOf? id hash := by
  have evolves := metaLink?_leads cls .construct world world.permits_all fun _ _ => trivial
  have same : SameHierarchy world (world.keepMetaTable cls) := evolves.continues.hierarchy
  have object : (world.keepMetaTable cls).object id = world.object id := by
    rw [keepMetaTable_eq]
    rfl
  unfold World.levelOf?
  simp only [object, same.hash]

/-- A request to write a variable is made. -/
def Inquiry.isWrite (inquiry : Inquiry) : Bool :=
  match inquiry.request with
  | .assign .. => true
  | .call .. | .read .. | .construct .. => false

/-- A call of a hook of a slot, to which the value is passed. -/
abbrev Interception := HookCall Value

namespace HookCall

/-- The class of the annotation. -/
def cls (call : Interception) : ClassId := (call.before.object call.attached).cls

/-- The hook reads the function that a link leads to from the declarations of the level of its
class, and calls it with the name and the value as it is now.  If nothing hides the function, it is
bound to that level. -/
structure Runs (budget : Nat) (key : MetaKey) (name : String) (call : Interception)
    (link : MetaLink) (level : Level) (callable : CallableId) (fetched : World) (result : Value) :
    Prop where
  sits : call.before.level? call.attached
    ((call.before.levelOf? call.attached link.owner.hash).getD 0) = some level
  reads : performUpTo budget (.read (.store (level.declarations link.access)) key.methodName)
    (call.before.keepMetaTable call.cls) = (.done (.function callable), fetched)
  calls : performUpTo budget (.call callable [.text name, call.passed] ownContext) fetched =
    (.done result, call.after)
  bound : call.before.Fetchable call.attached key.methodName → link.function.annotations = [] →
    ∀ place declarer, call.before.LeadsTo call.attached link place declarer →
      level = declarer ∧ fetched.callables.get? callable =
        some (.ofFunction link.function (some ⟨call.attached, place⟩))

/-- The hook of the annotation is called with the name and the value as it is now.  It is skipped
exactly if the table of its class has no function for it; and where the class answers as its chain
stands, exactly if no class of the chain declares one.  A class answers so if the registry was valid
when it was first asked.  Otherwise the answer is the result of the function that the nearest class
of the chain declares. -/
structure Intercepts (budget : Nat) (key : MetaKey) (name : String) (call : Interception) :
    Prop where
  called : hook (performUpTo budget) ownContext call.attached key [.text name, call.passed]
    call.before = (call.answer, call.after)
  reachable : Reachable call.before
  skips : call.answer = .done none ↔ (call.before.metaTable call.cls).get? key = none
  inherits : call.before.AnswersAsChain call.cls key → (call.answer = .done none ↔
    ¬ (call.before.MayAnswer call.cls key ∧
      call.before.DeclaresAlong (call.before.ancestors call.cls) key))
  current : ∀ asked, FirstAsked call.cls asked call.before →
    (Session.validate asked).1 = .done (.ok ()) → call.before.AnswersAsChain call.cls key
  links : ∀ link, (call.before.metaTable call.cls).get? key = some link →
    link.key = key ∧ call.before.LinksNearest (call.before.ancestors call.cls) link
  answers : ∀ result, call.answer = .done (some result) →
    ∃ link, (call.before.metaTable call.cls).get? key = some link ∧
      ∃ level callable fetched, call.Runs budget key name link level callable fetched result

section

variable {budget : Nat} {key : MetaKey} {name : String} {call : Interception}
  (any : key.expectedReturn = .any)
  (called : hook (performUpTo budget) ownContext call.attached key [.text name, call.passed]
    call.before = (call.answer, call.after))
include any called

/-- A hook that answers has called a function. -/
theorem runs {link : MetaLink} (found : (call.before.metaTable call.cls).get? key = some link)
    (keyed : link.key = key) {answer : Option Value} (answered : call.answer = .done answer) :
    ∃ result level callable fetched, answer = some result ∧
      call.Runs budget key name link level callable fetched result := by
  have asked : Exec.metaLink? call.cls key call.before =
      (.done (some link), call.before.keepMetaTable call.cls) := by
    rw [← found]
    rfl
  rw [answered] at called
  unfold hook at called
  rw [get_bind_apply] at called
  change ((Exec.metaLink? call.cls key >>= _) call.before) = _ at called
  rw [bind_of_done _ asked] at called
  dsimp only at called
  rw [get_bind_apply, levelOf?_keepMetaTable] at called
  cases sits : (call.before.keepMetaTable call.cls).level? call.attached
      ((call.before.levelOf? call.attached link.owner.hash).getD 0) with
  | none =>
      rw [bind_of_done _ (openScope?_of_none sits)] at called
      cases called
  | some level =>
      rw [bind_of_done _ (openScope?_declarations sits rfl)] at called
      obtain ⟨value, fetched, reads, called⟩ := bind_done called
      cases value with
      | function callable =>
          obtain ⟨result, last, calls, called⟩ := bind_done called
          rw [bind_of_done _ (castReturn_of_any any)] at called
          cases called
          have sits : call.before.level? call.attached
              ((call.before.levelOf? call.attached link.owner.hash).getD 0) = some level := by
            rw [keepMetaTable_eq] at sits
            exact sits
          refine ⟨result, level, callable, fetched, rfl, sits, reads, wrapFault_done calls, ?_⟩
          intro fetchable plain place declarer leads
          have registered := fetchable.reachable.sound.2.registered
          have declares : call.before.level? call.attached place = some level := by
            rw [leads.levelOf?_eq fetchable.begins registered] at sits
            exact sits
          obtain rfl : declarer = level := Option.some.inj (leads.sits.symm.trans declares)
          refine ⟨rfl, ?_⟩
          cases budget with
          | zero => cases reads
          | succ budget =>
              subst keyed
              obtain ⟨_, after, again, fetches⟩ := fetchable.fetches leads plain call.cls 0 budget
              cases reads.symm.trans again
              exact fetches.keeps.made
      | _ =>
          obtain ⟨_, _, _, thrown⟩ := bind_done called
          cases thrown

theorem intercepts (reachable : Reachable call.before) : call.Intercepts budget key name := by
  have skips : call.answer = .done none ↔ (call.before.metaTable call.cls).get? key = none := by
    refine ⟨fun skipped => ?_, fun missing => ?_⟩
    · cases found : (call.before.metaTable call.cls).get? key with
      | none => rfl
      | some link =>
          have keyed := (reachable.links_nearest found).1
          obtain ⟨result, _, _, _, answered, _⟩ := runs any called found keyed skipped
          cases answered
    · rw [hook_of_none (performUpTo budget) ownContext _ missing] at called
      exact (congrArg Prod.fst called).symm
  refine ⟨called, reachable, skips, fun answers => skips.trans (reachable.answers_iff answers),
    fun asked first ok => first.answersAsChain ok key,
    fun link found => reachable.links_nearest found, fun result answered => ?_⟩
  cases found : (call.before.metaTable call.cls).get? key with
  | none =>
      rw [skips.mpr found] at answered
      cases answered
  | some link =>
      have keyed := (reachable.links_nearest found).1
      obtain ⟨_, level, callable, fetched, same, runs⟩ := runs any called found keyed answered
      cases same
      exact ⟨link, rfl, level, callable, fetched, runs⟩

end

/-- No request that the hook makes, directly or indirectly, may write the slot. -/
def KeepsOff (budget : Nat) (key : MetaKey) (store : StoreId) (name : String)
    (call : Interception) : Prop :=
  ∀ inquiry ∈ (hookAccount ownContext call.attached key
      [.text name, call.passed]).inquiries (performUpTo budget) (inquiriesUpTo budget) call.before,
    ¬ inquiry.Writes store name

theorem KeepsOff.same {budget : Nat} {key : MetaKey} {store : StoreId} {name : String}
    {call : Interception} (keepsOff : call.KeepsOff budget key store name)
    (intercepts : call.Intercepts budget key name) :
    SameContent store name call.before call.after := by
  have same := Account.keeps_content
    (hookAccount ownContext call.attached key [.text name, call.passed])
    (fun nested => hook_keeping nested _ _ key _) budget call.before keepsOff
  rw [intercepts.called] at same
  exact same

/-- A hook that asks for no write at all keeps off every variable. -/
theorem KeepsOff.of_no_writes {budget : Nat} {key : MetaKey} {store : StoreId} {name : String}
    {call : Interception}
    (none : ((hookAccount ownContext call.attached key [.text name, call.passed]).inquiries
      (performUpTo budget) (inquiriesUpTo budget) call.before).all (!·.isWrite) = true) :
    call.KeepsOff budget key store name := by
  intro inquiry member writes
  have clear := List.all_eq_true.mp none inquiry member
  obtain ⟨request, world⟩ := inquiry
  cases request with
  | assign scope label value => cases clear
  | call | read | construct => exact writes

end HookCall

/-- The calls of the hooks of annotations, each of which is passed what the one before it answered,
or was passed if it was skipped. -/
abbrev Interceptions (budget : Nat) (key : MetaKey) (name : String) :=
  HookCalls (HookCall.Intercepts budget key name)
    (fun call answer left => left = answer.getD call.passed) fun value => value

theorem intercept_calls (budget : Nat) (key : MetaKey) (any : key.expectedReturn = .any)
    (name : String) (annotations : List InstanceId) (value : Value) (world : World)
    (reachable : annotations ≠ [] → Reachable world) :
    ∃ calls outcome last,
      intercept (performUpTo budget) key name value annotations world = (outcome, last) ∧
      Interceptions budget key name annotations value world calls outcome last := by
  induction annotations generalizing value world with
  | nil => exact ⟨[], _, world, rfl, .finished value world⟩
  | cons attached rest ih =>
      have reachable := reachable (List.cons_ne_nil attached rest)
      refine HookCalls.first (fun answer after hooked => HookCall.intercepts any hooked reachable)
        fun answer after hooked => ?_
      have leads : LeadsFreely
          (hook (performUpTo budget) ownContext attached key [.text name, value]) :=
        (hook_tracks ((performUpTo_leads budget).tracks _ _) _ attached key _).leads
      have proceeds := leads.proceeds world
      rw [hooked] at proceeds
      have later := fun _ : rest ≠ [] => reachable.proceed proceeds
      cases answer with
      | none => exact ⟨value, rfl, ih value after later⟩
      | some result => exact ⟨result, rfl, ih result after later⟩

namespace World

/-! ## The slot while its hooks are called -/

/-- A store has a variable of a name, which keeps its value itself; as long as the assembly is there,
the state is one of a session. -/
structure ScriptSlot (world : World) (store : StoreId) (name : String) (slot : Slot) : Prop where
  found : (world.store store).slot? name = some slot
  script : ∃ kept, slot.content = .script kept
  isMutable : slot.immutable = false
  reachable : world.alive = true → Reachable world

/-- What lasts of a variable is all but its value. -/
theorem same_but_content {slot later : Slot} (stays : slot.Stays later)
    (persists : slot.Persists later) {kept : Option Value} (script : slot.content = .script kept) :
    ∃ held, later = { slot with content := .script held } := by
  obtain ⟨held, content⟩ := persists.script kept script
  refine ⟨held, ?_⟩
  obtain ⟨type, _, annotations, immutable⟩ := later
  cases content
  cases persists.type
  cases persists.immutable
  cases stays.annotations
  rfl

section

variable {world last : World} {store : StoreId} {name : String} {slot : Slot}
  (field : world.ScriptSlot store name slot)
include field

/-- A run keeps a variable with its type and its annotations. -/
theorem ScriptSlot.later {except : InstanceId → Prop} (reachable : Reachable world)
    (spares : Spares except world last) :
    ∃ held, last.ScriptSlot store name { slot with content := .script held } := by
  obtain ⟨kept, script⟩ := field.script
  obtain ⟨later, still, stays, persists⟩ := spares.slot field.found
  obtain ⟨held, rfl⟩ := same_but_content stays persists script
  exact ⟨held, still, ⟨held, rfl⟩, field.isMutable,
    fun _ => .proceed reachable spares.evolves.proceeds⟩

end

/-- If there are hooks to ask for, then the store has to reach its assembly. -/
theorem slotHooks_run (budget : Nat) (key : MetaKey) (any : key.expectedReturn = .any)
    (store : StoreId) (name : String) (annotations : List InstanceId) (value : Value)
    (world : World) (reachable : world.alive = true → Reachable world) (run : Exec Value)
    (shape : run = if annotations.isEmpty then pure value else do
      requireStoreAssembly store
      intercept (performUpTo budget) key name value annotations) :
    (annotations ≠ [] ∧ world.Detached store ∧ run world = (.failed .assemblyDropped, world)) ∨
      ∃ calls outcome last, run world = (outcome, last) ∧
        Interceptions budget key name annotations value world calls outcome last ∧
        (annotations ≠ [] → world.alive = true) := by
  have called := intercept_calls budget key any name annotations value world
  subst shape
  by_cases annotated : annotations = []
  · obtain ⟨calls, outcome, last, runs, hooks⟩ := called fun some => absurd annotated some
    subst annotated
    exact .inr ⟨calls, outcome, last, runs, hooks, fun some => absurd rfl some⟩
  · rw [if_neg (by simpa using annotated)]
    obtain ⟨passes, alive⟩ | ⟨fails, detached⟩ := requireStoreAssembly_run world store
    · obtain ⟨calls, outcome, last, runs, hooks⟩ := called fun _ => reachable alive
      exact .inr ⟨calls, outcome, last, (bind_of_done _ passes).trans runs, hooks, fun _ => alive⟩
    · exact .inl ⟨annotated, detached, bind_of_failed _ fails⟩

section

variable {world last : World} {store : StoreId} {name : String} {slot : Slot}
  (field : world.ScriptSlot store name slot) {budget : Nat} {key : MetaKey} {value : Value}
  {calls : List Interception} {outcome : Outcome Value}
include field

/-- The hooks of a variable leave it with its type and its annotations, and with its value as well if
they keep off it. -/
theorem ScriptSlot.through (alive : slot.annotations ≠ [] → world.alive = true)
    (hooks : Interceptions budget key name slot.annotations value world calls outcome last) :
    ∃ held, (last.store store).slot? name = some { slot with content := .script held } ∧
      ((∀ call ∈ calls, call.KeepsOff budget key store name) →
        slot.content = .script held) := by
  have there : ∃ held, (last.store store).slot? name =
      some { slot with content := .script held } := by
    -- Without annotations no hook is called, and then the assembly may be gone.
    by_cases annotated : slot.annotations = []
    · obtain ⟨held, script⟩ := field.script
      rw [annotated] at hooks
      cases hooks
      refine ⟨held, ?_⟩
      rw [← script]
      exact field.found
    · have reachable := field.reachable (alive annotated)
      have spares : world.Live → Spares (fun _ => True) world last := by
        refine hooks.lift (fun first second => first.Live → Spares (fun _ => True) first second)
          (fun _ _ => .refl _) (fun one two live => ?_) fun call _ intercepts live => ?_
        · exact (one live).trans (two (live.later (one live).evolves))
        · exact (hook_sparing (performUpTo_sparing budget) _ _ key _ (fun _ => True) _).ends live
            intercepts.called
      obtain ⟨held, later⟩ := field.later reachable (spares reachable.sound)
      exact ⟨held, later.found⟩
  obtain ⟨held, found⟩ := there
  refine ⟨held, found, fun keepsOff => ?_⟩
  have same : SameContent store name world last :=
    hooks.lift (SameContent store name) (fun _ => .refl _) (fun one two => one.trans two)
      fun call member intercepts => (keepsOff call member).same intercepts
  obtain ⟨latest, there, content⟩ := same slot field.found
  cases there.symm.trans found
  exact content.symm

end

/-! ## Writes -/

section

variable (budget : Nat) (store : StoreId) (name : String) (slot : Slot) (value : Value)
  (world : World)

/-- How a value is written to a variable: it passes through the hooks, and what they leave is stored
as the value or refused. -/
inductive WriteFlow : List Interception → Outcome Unit → World → Prop
  /-- There are hooks to ask for, but the store does not reach its assembly. -/
  | detached (annotated : slot.annotations ≠ []) (detached : world.Detached store) :
      WriteFlow [] (.failed .assemblyDropped) world
  /-- A hook does not answer. -/
  | stopped {calls : List Interception} {stop : Outcome Value} {outcome : Outcome Unit}
      {last : World}
      (hooks : Interceptions budget .onWrite name slot.annotations value world calls stop last)
      (stops : stop.Stops outcome) : WriteFlow calls outcome last
  /-- The type of the variable is asked about what the hooks left, and nothing else. -/
  | settled {calls : List Interception} {final : Value} {outcome : Outcome Unit}
      {between last : World}
      (hooks : Interceptions budget .onWrite name slot.annotations value world calls (.done final)
        between)
      (writes : between.WritesVariable store name slot final outcome last) :
      WriteFlow calls outcome last

/-- How a value is read from a variable: the value that it keeps passes through the hooks, and what
they leave is returned. -/
inductive ReadFlow : List Interception → Outcome Value → World → Prop
  | unassigned (empty : slot.content = .script none) :
      ReadFlow [] (.failed (.lookup (.notAssigned name))) world
  /-- There are hooks to ask for, but the store does not reach its assembly. -/
  | detached {kept : Value} (keeps : slot.content = .script (some kept))
      (annotated : slot.annotations ≠ []) (detached : world.Detached store) :
      ReadFlow [] (.failed .assemblyDropped) world
  | hooked {kept : Value} (keeps : slot.content = .script (some kept)) {calls : List Interception}
      {outcome : Outcome Value} {last : World}
      (hooks : Interceptions budget .onRead name slot.annotations kept world calls outcome last) :
      ReadFlow calls outcome last

end

section

variable {world : World} {store : StoreId} {name : String} {slot : Slot}
  (field : world.ScriptSlot store name slot) (budget : Nat)

/-- What the hooks left of a value is stored in the variable as it then is, or refused. -/
theorem storeValue_settles {between : World} {kept held : Option Value}
    (script : slot.content = .script kept)
    (found : (between.store store).slot? name = some { slot with content := .script held })
    (final : Value) :
    ∃ outcome last, storeValue store name slot final between = (outcome, last) ∧
      between.WritesVariable store name slot final outcome last := by
  have stores : storeValue store name slot final between = _ := storeValue_of_script final script
  let asked := between.resolveBases (between.visitedByAccepts slot.type final)
  have still : between.ModifiesOnly noSlot asked := .resolveBases between _
  cases accepted : between.accepts slot.type final with
  | false =>
      rw [accepted] at stores
      exact ⟨_, asked, stores, .refused accepted still⟩
  | true =>
      rw [accepted] at stores
      refine ⟨_, _, stores, .stored accepted (still.weaken.trans (.write asked store name _)) ?_⟩
      exact slot?_withStore_modify ((still.slots store name id).trans found) _

include field

/-- A write to a variable passes through its hooks; unless it succeeds, and as long as they keep off
the variable, the variable is what it was. -/
theorem ScriptSlot.write_flow (value : Value) :
    ∃ calls outcome last,
      assignSlot (performUpTo budget) store name value world = (outcome, last) ∧
      WriteFlow budget store name slot value world calls outcome last ∧
      (outcome ≠ .done () → (∀ call ∈ calls, call.KeepsOff budget .onWrite store name) →
        (last.store store).slot? name = some slot) := by
  obtain ⟨kept, script⟩ := field.script
  rw [assignSlot_of_mutable _ value field.found field.isMutable]
  have hooked := slotHooks_run budget .onWrite rfl store name slot.annotations value world
    field.reachable (writeHooks (performUpTo budget) store name slot value) rfl
  obtain ⟨annotated, detached, fails⟩ | ⟨calls, outcome, between, passes, hooks, alive⟩ := hooked
  · rw [bind_of_failed _ fails]
    exact ⟨[], _, world, rfl, .detached annotated detached, fun _ _ => field.found⟩
  obtain ⟨held, found, same⟩ := field.through alive hooks
  have unchanged : (∀ call ∈ calls, call.KeepsOff budget .onWrite store name) →
      (between.store store).slot? name = some slot := fun keepsOff => by
    rw [found, ← same keepsOff]
  cases outcome with
  | failed fault =>
      rw [bind_of_failed _ passes]
      exact ⟨calls, _, between, rfl, .stopped hooks (.failed fault), fun _ => unchanged⟩
  | exhausted =>
      rw [bind_of_exhausted _ passes]
      exact ⟨calls, _, between, rfl, .stopped hooks .exhausted, fun _ => unchanged⟩
  | done final =>
      rw [bind_of_done _ passes]
      obtain ⟨outcome, last, stores, writes⟩ := storeValue_settles script found final
      refine ⟨calls, outcome, last, stores, .settled hooks writes, fun refused keepsOff => ?_⟩
      cases writes with
      | stored => exact absurd rfl refused
      | refused _ nothing => exact (nothing.slots store name id).trans (unchanged keepsOff)

/-- A read of a variable returns what its hooks leave of the value, and as long as they keep off the
variable, the variable is what it was. -/
theorem ScriptSlot.read_flow :
    ∃ calls outcome last,
      readSlot (performUpTo budget) store name world = (outcome, last) ∧
      ReadFlow budget store name slot world calls outcome last ∧
      ((∀ call ∈ calls, call.KeepsOff budget .onRead store name) →
        (last.store store).slot? name = some slot) := by
  obtain ⟨kept, script⟩ := field.script
  rw [readSlot_of_found _ field.found]
  cases kept with
  | none =>
      have fetched : fetchSlot (performUpTo budget) store name slot world =
          (.failed (.lookup (.notAssigned name)), world) := by
        unfold fetchSlot
        rw [script]
        rfl
      rw [bind_of_failed _ fetched]
      exact ⟨[], _, world, rfl, .unassigned script, fun _ => field.found⟩
  | some kept =>
      have fetched : fetchSlot (performUpTo budget) store name slot world = (.done kept, world) := by
        unfold fetchSlot
        rw [script]
        rfl
      rw [bind_of_done _ fetched]
      have hooked := slotHooks_run budget .onRead rfl store name slot.annotations kept world
        field.reachable (readHooks (performUpTo budget) store name slot kept) rfl
      obtain ⟨annotated, detached, fails⟩ | ⟨calls, outcome, last, passes, hooks, alive⟩ := hooked
      · exact ⟨[], _, world, fails, .detached script annotated detached, fun _ => field.found⟩
      · obtain ⟨held, found, same⟩ := field.through alive hooks
        refine ⟨calls, outcome, last, passes, .hooked script hooks, fun keepsOff => ?_⟩
        rw [found, ← same keepsOff]

end

/-! ## Requests -/

/-- A fault in a lookup of a name is recognized for what it is, and is not taken for that of a
missing name. -/
def Recognizes (world : World) (name : String) : Prop :=
  world.Distinct name ∨ world.Ready ∧ world.Trusts name

section

variable {world last : World} {store : StoreId} {name : String} {slot : Slot}

theorem Recognizes.later (recognizes : world.Recognizes name) (reachable : Reachable world)
    (proceeds : Proceeds world last) : last.Recognizes name := by
  obtain ⟨alive, sound⟩ := reachable.sound
  have continues := (proceeds.sound_continues alive sound).2
  obtain distinct | ⟨ready, trusts⟩ := recognizes
  · exact .inl (distinct.later continues)
  · exact .inr ⟨ready.proceed proceeds, trusts.later continues⟩

theorem ScriptSlot.declared (field : world.ScriptSlot store name slot) :
    (world.store store).declares name = true := by
  simp [Store.declares, field.found]

section

variable (field : world.ScriptSlot store name slot) (recognizes : world.Recognizes name)
  (budget : Nat)
include field recognizes

theorem ScriptSlot.assign_recognized (value : Value) (fault : Fault) (after : World)
    (ends : assignSlot (performUpTo budget) store name value world = (.failed fault, after)) :
    fault.isMiss name = false := by
  obtain distinct | ⟨ready, trusts⟩ := recognizes
  · exact assignSlot_discerns (performUpTo_discerns name budget) distinct.notWrite store name value
      world (fun _ => field.declared) distinct.forReads fault after ends
  · exact assignSlot_passes (performUpTo_leads budget) (performUpTo_reads name budget) store name
      value world (fun _ => field.declared) ready trusts fault after ends

theorem ScriptSlot.read_recognized (fault : Fault) (after : World)
    (ends : readSlot (performUpTo budget) store name world = (.failed fault, after)) :
    fault.isMiss name = false := by
  obtain distinct | ⟨ready, trusts⟩ := recognizes
  · exact readSlot_discerns (performUpTo_discerns name budget) store name world
      (fun _ => field.declared) distinct.forReads fault after ends
  · exact readSlot_passes (performUpTo_leads budget) (performUpTo_reads name budget)
      (performUpTo_construct_foreign budget) store name world (fun _ => field.declared) ready trusts
      fault after ends

end

/-- A request through a scope ends as it ends at a variable, unless the fault that ends it there reads
as if the name were missing.  No fault does where such faults are recognized. -/
structure EndsInPlace {α : Type} (world here : World) (name : String) (atSlot : Exec α)
    (ended : Outcome α × World) : Prop where
  same : (∀ fault after, atSlot here = (.failed fault, after) → fault.isMiss name = false) →
    ended = atSlot here
  recognized : world.Recognizes name → ended = atSlot here

/-- A lookup through a scope comes to the variable, if its store is the first to answer. -/
theorem ScriptSlot.comes (field : world.ScriptSlot store name slot) {α : Type}
    {atStore : StoreId → Exec α} {atSlot : Exec α} {atScope : Scope → Exec α}
    {among : List Scope → Exec α} (reachable : Reachable world)
    (tries : TriesStores name atStore atScope among) (unknown : MissesUnknown name atStore)
    (inPlace : ∀ here, (∀ fault after, atSlot here = (.failed fault, after) →
      fault.isMiss name = false) → atStore store here = atSlot here)
    (recognized : ∀ {here : World}, here.ScriptSlot store name slot → here.Recognizes name →
      ∀ fault after, atSlot here = (.failed fault, after) → fault.isMiss name = false)
    {scope : Scope} (first : scope.stores.find? (world.Answers name) = some store) :
    ∃ here, world.ModifiesOnly noSlot here ∧ here.ScriptSlot store name slot ∧
      world.EndsInPlace here name atSlot (atScope scope world) := by
  obtain ⟨here, nothing, proceeds, looks⟩ := walks_to_first tries unknown reachable.sound.1 scope
  have there : here.ScriptSlot store name slot :=
    ⟨(nothing.slots store name id).trans field.found, field.script, field.isMutable,
      fun _ => .proceed reachable proceeds⟩
  unfold lookAtFirst at looks
  rw [first] at looks
  have same : (∀ fault after, atSlot here = (.failed fault, after) → fault.isMiss name = false) →
      atScope scope world = atSlot here := by
    intro other
    have stays := inPlace here other
    refine (looks fun found answers fault after ends => ?_).trans stays
    obtain rfl := Option.some.inj answers
    exact other fault after (stays.symm.trans ends)
  exact ⟨here, nothing, there, same, fun recognizes =>
    same (recognized there (recognizes.later reachable proceeds))⟩

end

/-! ## Initializers -/

/-- The fault of an initializer names the class that declares the field, or else that of the
instance. -/
def initializing (world : World) (receiver : Receiver) (field : Field) : Fault → Fault :=
  .initializer ((field.owner.map Owner.name).getD (world.classOf receiver.owner).name) field.name

section

variable (budget : Nat) (className : String) (receiver : Receiver) (level : Level)
  (options : CreateOptions) (context : ContextId) (field : Field) (initializer : Expr)
  (world : World)

/-- The variable of a field is declared and annotated. -/
abbrev declareAnnotated (perform : Perform) : Exec Unit := do
  declareField className level field
  annotateField perform className receiver level options context field

/-- How a field with an initializer is constructed: its variable is declared and annotated, and then
the value of the initializer is written to it like any other. -/
inductive FieldFlow : Outcome Unit → World → Prop
  /-- The variable cannot be declared, or an annotation not be created. -/
  | undeclared {stop outcome : Outcome Unit} {last : World}
      (declares : declareAnnotated className receiver level options context field
        (performUpTo (budget + 1)) world = (stop, last))
      (stops : stop.Stops outcome) : FieldFlow outcome last
  /-- The initializer has no value. -/
  | unevaluated {dressed last : World} {stop : Outcome Value} {outcome : Outcome Unit}
      (declares : declareAnnotated className receiver level options context field
        (performUpTo (budget + 1)) world = (.done (), dressed))
      (evaluates : Exec.wrapFault (dressed.initializing receiver field)
        (evaluate (performUpTo (budget + 1)) (some ⟨context, some receiver, []⟩) initializer) dressed =
          (stop, last))
      (stops : stop.Stops outcome) : FieldFlow outcome last
  /-- The value is written through the hooks of the annotations that were created. -/
  | written {dressed ready last : World} {slot : Slot} {held : Option Value} {value : Value}
      {outcome : Outcome Unit}
      (declares : declareAnnotated className receiver level options context field
        (performUpTo (budget + 1)) world = (.done (), dressed))
      (placed : dressed.ScriptSlot (level.declarations field.access) field.name slot)
      (typed : slot.type = field.type)
      (attached : MakesAll world dressed (field.wanted options) slot.annotations)
      (evaluates : evaluate (performUpTo (budget + 1)) (some ⟨context, some receiver, []⟩) initializer
        dressed = (.done value, ready))
      (still : ready.ScriptSlot (level.declarations field.access) field.name
        { slot with content := .script held })
      (writes : Exec.wrapFault (dressed.initializing receiver field)
        (assignSlot (performUpTo budget) (level.declarations field.access) field.name value) ready =
          (outcome, last)) : FieldFlow outcome last

end

section

variable {world dressed : World} (reachable : Reachable world) {perform : Perform}
  (nested : perform.Sparing) {className : String} {receiver : Receiver} {level : Level}
  {options : CreateOptions} {context : ContextId} {field : Field}
  (sits : world.level? receiver.owner receiver.level = some level)
  (declared : field ∈ (world.cls level.cls).fields)
include reachable nested sits declared

/-- A script field that was declared and annotated is a variable of its type. -/
theorem declareAnnotated_variable {initializer : Option Expr}
    (storage : field.storage = .script initializer)
    (done : declareAnnotated className receiver level options context field perform world =
      (.done (), dressed)) :
    ∃ slot, dressed.ScriptSlot (level.declarations field.access) field.name slot ∧
      slot.type = field.type ∧ MakesAll world dressed (field.wanted options) slot.annotations := by
  let store := level.declarations field.access
  have live : world.Live := reachable.sound
  obtain ⟨slot, found, attached, script⟩ := declareAnnotated_done nested (.refl live)
    live.2.laid sits declared done
  have spares : Spares (fun _ => True) world dressed :=
    (declareAnnotated_sparingAt nested className sits declared options context).ends live done
  have later : Reachable dressed := .proceed reachable spares.evolves.proceeds
  obtain ⟨_, placed, declares, annotates⟩ := bind_done done
  cases taken : (world.store store).declares field.name with
  | true =>
      rw [declareField_of_declared className taken] at declares
      cases declares
  | false =>
      rw [declareField_of_free className taken] at declares
      cases declares
      -- The type comes from the declaration, the annotations from what happened since.
      have there : ((world.withStore store
          (·.insert field.name (fieldSlot field level.reference))).store store).slot? field.name =
            some (.unassigned field.type) := by
        rw [store_withStore, if_pos ⟨rfl, live.2.laid.level_inside sits field.access⟩,
          ← fieldSlot_script level.reference storage]
        exact Store.slot?_insert_same _ _ taken
      have leads : LeadsFreely
          (annotateField perform className receiver level options context field) :=
        (annotateField_tracks (nested.leads.tracks _ _) (declareOnly_all _) className receiver level
          options context).leads
      have proceeds := leads.proceeds
        (world.withStore store (·.insert field.name (fieldSlot field level.reference)))
      rw [annotates] at proceeds
      obtain ⟨kept, still, persists⟩ := proceeds.keepsVariables _ _ _ there rfl
      cases still.symm.trans found
      exact ⟨slot, ⟨found, script initializer storage, persists.immutable, fun _ => later⟩,
        persists.type, attached⟩

end

/-- A field with an initializer is declared, annotated and then written like any variable. -/
theorem constructField_flow {world : World} (reachable : Reachable world) (budget : Nat)
    {receiver : Receiver} {level : Level} {options : CreateOptions} {field : Field}
    {initializer : Expr}
    (sits : world.level? receiver.owner receiver.level = some level)
    (declared : field ∈ (world.cls level.cls).fields)
    (storage : field.storage = .script (some initializer))
    (wanted : options.has field.flag = true) (assigns : options.has .assignScriptFields = true)
    (className : String) (context : ContextId) :
    ∃ outcome last,
      constructField (performUpTo (budget + 1)) className receiver level options context field world =
        (outcome, last) ∧
      FieldFlow budget className receiver level options context field initializer world outcome
        last := by
  have nested := performUpTo_sparing (budget + 1)
  rw [constructField_of_wanted wanted, ← bind_assoc]
  rcases dresses : declareAnnotated className receiver level options context field
    (performUpTo (budget + 1)) world with ⟨stop, dressed⟩
  cases stop with
  | failed fault =>
      rw [bind_of_failed _ dresses]
      exact ⟨_, dressed, rfl, .undeclared dresses (.failed fault)⟩
  | exhausted =>
      rw [bind_of_exhausted _ dresses]
      exact ⟨_, dressed, rfl, .undeclared dresses .exhausted⟩
  | done _ =>
  obtain ⟨slot, placed, typed, attached⟩ :=
    declareAnnotated_variable reachable nested sits declared storage dresses
  have spares : Spares (fun _ => True) world dressed :=
    (declareAnnotated_sparingAt nested className sits declared options context).ends reachable.sound
      dresses
  have later : Reachable dressed := .proceed reachable spares.evolves.proceeds
  have fills : fillField (performUpTo (budget + 1)) receiver level options context field dressed =
      Exec.wrapFault (dressed.initializing receiver field) (do
        let value ← evaluate (performUpTo (budget + 1)) (some ⟨context, some receiver, []⟩)
          initializer
        performUpTo (budget + 1) (.assign (.store (level.declarations field.access)) field.name
          value)) dressed := by
    unfold fillField initializeField
    rw [if_pos assigns, storage]
    rfl
  rw [bind_of_done _ dresses, fills]
  rcases evaluates : evaluate (performUpTo (budget + 1)) (some ⟨context, some receiver, []⟩)
    initializer dressed with ⟨answer, ready⟩
  cases answer with
  | failed fault =>
      rw [wrapFault_of_failed _ (bind_of_failed _ evaluates)]
      exact ⟨_, ready, rfl, .unevaluated dresses (wrapFault_of_failed _ evaluates) (.failed _)⟩
  | exhausted =>
      have stops : ∀ {α : Type} {run : Exec α}, run dressed = (.exhausted, ready) →
          Exec.wrapFault (dressed.initializing receiver field) run dressed = (.exhausted, ready) := by
        intro α run ends
        unfold Exec.wrapFault
        rw [ends]
      rw [stops (bind_of_exhausted _ evaluates)]
      exact ⟨_, ready, rfl, .unevaluated dresses (stops evaluates) .exhausted⟩
  | done value =>
      -- The initializer runs in between, so the slot may have a value already, but it is the same slot.
      have evaluated : Spares (fun _ => True) dressed ready :=
        (evaluate_sparing nested _ initializer (fun _ => True) dressed).ends later.sound evaluates
      obtain ⟨held, still⟩ := placed.later later evaluated
      -- The annotations were made since the field was declared, so their hooks are found.
      have underway := ((Underway.refl reachable.sound).later spares).later evaluated
      have newcomers : ∀ other ∈ slot.annotations, Newcomer world ready other := fun other member =>
        (MakesAll.newcomer attached member).later evaluated.evolves.continues
      have finds := assignSlot_finds reachable.sound.2.laid underway still.found placed.isMutable rfl
        newcomers budget value
      have inPlace : performUpTo (budget + 1)
          (.assign (.store (level.declarations field.access)) field.name value) ready =
            assignSlot (performUpTo budget) (level.declarations field.access) field.name value ready :=
        (congrFun ((assignScope_tries (performUpTo budget) field.name value).store _) ready).trans
          (orElseMissing_of_other fun fault after ends => finds fault after ends _)
      rcases writes : Exec.wrapFault (dressed.initializing receiver field)
        (assignSlot (performUpTo budget) (level.declarations field.access) field.name value) ready with
          ⟨outcome, last⟩
      refine ⟨outcome, last, ?_, .written dresses placed typed attached evaluates still writes⟩
      rw [← writes]
      unfold Exec.wrapFault
      rw [bind_of_done _ evaluates, inPlace]

/-! ## All accesses -/

/-- How a variable is written and read, directly and through every scope in which its store is the
first to answer. -/
structure PassesThroughHooks (world : World) (store : StoreId) (name : String) (slot : Slot)
    (budget : Nat) : Prop where
  writes : ∀ value, ∃ calls outcome last,
    assignSlot (performUpTo budget) store name value world = (outcome, last) ∧
    WriteFlow budget store name slot value world calls outcome last ∧
    (outcome ≠ .done () → (∀ call ∈ calls, call.KeepsOff budget .onWrite store name) →
      (last.store store).slot? name = some slot)
  reads : ∃ calls outcome last,
    readSlot (performUpTo budget) store name world = (outcome, last) ∧
    ReadFlow budget store name slot world calls outcome last ∧
    ((∀ call ∈ calls, call.KeepsOff budget .onRead store name) →
      (last.store store).slot? name = some slot)
  assigns : Reachable world → ∀ scope value,
    scope.stores.find? (world.Answers name) = some store →
      ∃ here, world.ModifiesOnly noSlot here ∧ here.ScriptSlot store name slot ∧
        world.EndsInPlace here name (assignSlot (performUpTo budget) store name value)
          (performUpTo (budget + 1) (.assign scope name value) world)
  looks : Reachable world → ∀ scope,
    scope.stores.find? (world.Answers name) = some store →
      ∃ here, world.ModifiesOnly noSlot here ∧ here.ScriptSlot store name slot ∧
        world.EndsInPlace here name (readSlot (performUpTo budget) store name)
          (performUpTo (budget + 1) (.read scope name) world)

/-- A value that is written to a variable passes through the hooks for writes of its annotations in
order, and what they leave is stored, if the type accepts it, in widened form.  Otherwise the write
fails, and the variable keeps what it had.  What is read passes through the hooks for reads, and the
variable is not changed.  The initializer of a field is written like any other value, through the
hooks of the annotations that were created for the field. -/
theorem values_pass_through_hooks (budget : Nat) :
    (∀ world store name slot, ScriptSlot world store name slot →
      world.PassesThroughHooks store name slot budget) ∧
    ∀ world receiver level field initializer, Reachable world →
      world.level? receiver.owner receiver.level = some level →
      field ∈ (world.cls level.cls).fields → field.storage = .script (some initializer) →
        ∀ options, options.has field.flag = true → options.has .assignScriptFields = true →
          ∀ className context, ∃ outcome last,
            constructField (performUpTo (budget + 1)) className receiver level options context field
              world = (outcome, last) ∧
            FieldFlow budget className receiver level options context field initializer world outcome
              last := by
  constructor
  · intro world store name slot field
    constructor
    case writes => exact field.write_flow budget
    case reads => exact field.read_flow budget
    case assigns =>
      intro reachable scope value first
      exact field.comes reachable (assignScope_tries (performUpTo budget) name value)
        (assignStore_missesUnknown _ name value) (fun _ other => orElseMissing_of_other other)
        (fun here recognizes => here.assign_recognized recognizes budget value) first
    case looks =>
      intro reachable scope first
      exact field.comes reachable (readScope_tries (performUpTo budget) name)
        (readStore_missesUnknown _ name) (fun _ other => orElseMissing_of_other other)
        (fun here recognizes => here.read_recognized recognizes budget) first
  · intro world receiver level field initializer reachable sits declared storage options wanted
      assigns className context
    exact constructField_flow reachable budget sits declared storage wanted assigns className context

/-- A field with two annotations: one without hooks, and one that inherits a hook which lets through
what is at most ten, and adds one to it. -/
def guardedSpecs : List ClassSpec :=
  [⟨"Note", .marker, none, [], [], [], none, none⟩,
   ⟨"Guard", .marker, none, [],
     [bareFunction MetaKey.onWrite.methodName (.branch (.operate .less [.int 10, .arg 1])
       (.throw "too much") (.operate .add [.arg 1, .int 1]))], [], none, none⟩,
   ⟨"Strict", .marker, some "Guard", [], [], [], none, none⟩,
   ⟨"Tank", .ordinary, none,
     [⟨"level", .global, .int, .script (some (.int 1)), [⟨"Note", []⟩, ⟨"Strict", []⟩], none⟩], [],
     [], none, none⟩]

/-- The state after an instance was constructed, whose initializer passed through the hook. -/
def guardedState : World := sampleAfter guardedSpecs ⟨3⟩

def guardedSlot : Slot := ⟨.int, .script (some (.int 2)), [⟨1⟩, ⟨2⟩], false⟩

theorem scriptSlot_guarded : guardedState.ScriptSlot ⟨3⟩ "level" guardedSlot where
  found := by decide +kernel
  script := ⟨_, rfl⟩
  isMutable := rfl
  reachable _ := .proceed (reachable_sampleStart guardedSpecs) (proceeds_sampleAfter guardedSpecs ⟨3⟩)

/-- The state after the annotation without hooks was asked about a value. -/
def guardedNoted (value : Value) : World :=
  (hook (performUpTo 12) ownContext ⟨1⟩ .onWrite [.text "level", value] guardedState).2

/-- The hooks of the field ask for no write. -/
theorem keepsOff_guarded {calls : List Interception} {outcome : Outcome Value} {last : World}
    (hooks : Interceptions 12 .onWrite "level" [⟨1⟩, ⟨2⟩] (.int 40) guardedState calls
      outcome last) :
    ∀ call ∈ calls, call.KeepsOff 12 .onWrite ⟨3⟩ "level" := by
  have missing : (guardedState.metaTable (guardedState.object ⟨1⟩).cls).get? .onWrite = none := by
    decide +kernel
  have first : ((hookAccount ownContext ⟨1⟩ .onWrite [.text "level", .int 40]).inquiries
      (performUpTo 12) (inquiriesUpTo 12) guardedState).all (!·.isWrite) = true := by
    decide +kernel
  have second : ((hookAccount ownContext ⟨2⟩ .onWrite [.text "level", .int 40]).inquiries
      (performUpTo 12) (inquiriesUpTo 12) (guardedNoted (.int 40))).all (!·.isWrite) = true := by
    decide +kernel
  have order := hooks.in_order
  obtain ⟨answer, after, others, rfl, intercepts, later⟩ := hooks.uncons
  have skips := intercepts.skips
  have called := intercepts.called
  unfold HookCall.cls at skips
  dsimp only at skips called
  obtain rfl : answer = .done none := skips.mpr missing
  have noted : guardedNoted (.int 40) = after := by
    unfold guardedNoted
    rw [called]
  obtain ⟨left, same, rest⟩ := later none rfl
  obtain rfl : left = .int 40 := same
  obtain ⟨answer, next, others, rfl, _⟩ := rest.uncons
  have alone : others = [] := by simpa using order
  subst alone noted
  intro call member
  obtain rfl | member := List.mem_cons.mp member
  · refine .of_no_writes ?_
    dsimp only
    exact first
  · obtain rfl := List.mem_singleton.mp member
    refine .of_no_writes ?_
    dsimp only
    exact second

def guardedWrite (value : Value) : Outcome Unit × World :=
  assignSlot (performUpTo 12) ⟨3⟩ "level" value guardedState

/-- The state of the instance with all but its fields, and its level. -/
def guardedBare : World :=
  (performUpTo 12 (.construct ⟨0⟩ ⟨(CreateFlags.standard.erase .markInitialized).erase
    .declareScriptFields, none⟩ []) (sampleBefore guardedSpecs ⟨3⟩)).2

def guardedLevel : Level := (guardedBare.level? ⟨0⟩ 0).getD default

theorem reachable_guardedBare : Reachable guardedBare :=
  .proceed (reachable_sampleStart guardedSpecs)
    ((LeadsFreely.proceeds (newInstance_leads ⟨3⟩ .standard) (sampleStart guardedSpecs)).trans
      (performUpTo_proceeds 12 _ (sampleBefore guardedSpecs ⟨3⟩)))

/-- A value that the inherited hook lets through is stored as the hook answered it; a value that it
refuses leaves what was stored before; and the initializer is written through the hook as well. -/
theorem values_pass_through_hooks_guarded :
    (∃ calls, WriteFlow 12 ⟨3⟩ "level" guardedSlot (.int 4) guardedState calls (.done ())
      (guardedWrite (.int 4)).2 ∧
      ((guardedWrite (.int 4)).2.store ⟨3⟩).slot? "level" =
        some { guardedSlot with content := .script (some (.int 5)) }) ∧
    (∃ calls fault, WriteFlow 12 ⟨3⟩ "level" guardedSlot (.int 40) guardedState calls
      (.failed fault) (guardedWrite (.int 40)).2 ∧
      ((guardedWrite (.int 40)).2.store ⟨3⟩).slot? "level" = some guardedSlot) ∧
    ∃ field initializer last, field.storage = .script (some initializer) ∧
      FieldFlow 11 "Tank" ⟨⟨0⟩, 0⟩ guardedLevel .standard ⟨0⟩ field initializer guardedBare (.done ())
        last ∧
      ((last.store guardedLevel.globals).slot? "level").map Slot.content =
        some (.script (some (.int 2))) := by
  have passes := (values_pass_through_hooks 12).1 guardedState ⟨3⟩ "level" guardedSlot
    scriptSlot_guarded
  refine ⟨?_, ?_, ?_⟩
  · obtain ⟨calls, outcome, last, runs, flow, _⟩ := passes.writes (.int 4)
    have ran : guardedWrite (.int 4) = (outcome, last) := runs
    have done : (guardedWrite (.int 4)).1.result? = some () := by decide +kernel
    have stored : ((guardedWrite (.int 4)).2.store ⟨3⟩).slot? "level" =
        some { guardedSlot with content := .script (some (.int 5)) } := by decide +kernel
    rw [ran] at done stored ⊢
    obtain rfl : outcome = .done () := Outcome.eq_done done
    exact ⟨calls, flow, stored⟩
  · obtain ⟨calls, outcome, last, runs, flow, unchanged⟩ := passes.writes (.int 40)
    have ran : guardedWrite (.int 40) = (outcome, last) := runs
    have refused : (guardedWrite (.int 40)).1.fault?.isSome = true := by decide +kernel
    rw [ran] at refused ⊢
    obtain ⟨fault, refused⟩ := Option.isSome_iff_exists.mp refused
    obtain rfl : outcome = .failed fault := Outcome.eq_failed refused
    refine ⟨calls, fault, flow, unchanged nofun fun call member => ?_⟩
    cases flow with
    | detached => cases member
    | stopped hooks => exact keepsOff_guarded hooks call member
    | settled hooks => exact keepsOff_guarded hooks call member
  · have sits : guardedBare.level? ⟨0⟩ 0 = some guardedLevel := by decide +kernel
    obtain ⟨field, declared⟩ : ∃ field, (guardedBare.cls guardedLevel.cls).fields.head? = some field :=
      Option.isSome_iff_exists.mp (by decide +kernel)
    have runs : ((guardedBare.cls guardedLevel.cls).fields.head?).all (fun field =>
        let ended := constructField (performUpTo 12) "Tank" ⟨⟨0⟩, 0⟩ guardedLevel .standard ⟨0⟩ field
          guardedBare
        ended.1.result? = some () ∧
          ((ended.2.store guardedLevel.globals).slot? "level").map Slot.content =
            some (.script (some (.int 2)))) = true := by decide +kernel
    have given : ((guardedBare.cls guardedLevel.cls).fields.head?).all (fun field =>
        CreateOptions.standard.has field.flag ∧ field.isInitialized = true) = true := by
      decide +kernel
    rw [declared, Option.all_some] at runs given
    obtain ⟨done, stored⟩ := of_decide_eq_true runs
    obtain ⟨flag, initialized⟩ := of_decide_eq_true given
    obtain ⟨initializer, storage⟩ : ∃ initializer, field.storage = .script (some initializer) := by
      unfold Field.isInitialized at initialized
      split at initialized
      · next initializer same => exact ⟨initializer, same⟩
      all_goals cases initialized
    obtain ⟨outcome, last, ran, flow⟩ := (values_pass_through_hooks 11).2 guardedBare ⟨⟨0⟩, 0⟩
      guardedLevel field initializer reachable_guardedBare sits (List.mem_of_head? declared) storage
      .standard flag rfl "Tank" ⟨0⟩
    rw [ran] at done stored
    obtain rfl : outcome = .done () := Outcome.eq_done done
    exact ⟨field, initializer, last, storage, flow, stored⟩

/-! ## A hook that is registered late -/

/-- A class was asked for its meta-functions before its base was registered, which declares a hook.
An instance of another class was constructed since, with a field that the class annotates. -/
def skippedState : World :=
  let asked := (defining default
    [⟨"Guard", .marker, some "Base", [], [], [], none, none⟩,
     ⟨"Tank", .ordinary, none,
       [⟨"level", .global, .int, .script (some (.int 1)), [⟨"Guard", []⟩], none⟩], [], [], none,
       none⟩]).keepMetaTable ⟨0⟩
  let validated := (validate.run (asked.orDefine
    ⟨"Base", .marker, none, [], [bareFunction MetaKey.onWrite.methodName (.int 7)], [], none,
      none⟩)).2
  (performUpTo 9 (.construct ⟨0⟩ .standard []) (newInstance ⟨1⟩ .standard validated).2).2

def skippedSlot : Slot := ⟨.int, .script (some (.int 1)), [⟨1⟩], false⟩

theorem reachable_skippedState : Reachable skippedState :=
  .proceed ((((reachable_defining default _).keepMetaTable ⟨0⟩).orDefine _).proceed
    ((validate_onlyFollows _).proceeds.trans (LeadsFreely.proceeds (newInstance_leads _ _) _)))
    (performUpTo_proceeds 9 _ _)

theorem scriptSlot_skipped : skippedState.ScriptSlot ⟨3⟩ "level" skippedSlot where
  found := by decide +kernel
  script := ⟨_, rfl⟩
  isMutable := rfl
  reachable _ := reachable_skippedState

/-- The hook of the annotation is skipped, although the base of its class declares one. -/
theorem hook_skipped : ¬ ∀ world store name slot, ScriptSlot world store name slot →
    (Session.validate world).1 = .done (.ok ()) → ∀ budget value calls outcome last,
      WriteFlow budget store name slot value world calls outcome last →
        ∀ call ∈ calls, call.answer = .done none → ¬ (call.before.MayAnswer call.cls .onWrite ∧
          call.before.DeclaresAlong (call.before.ancestors call.cls) .onWrite) := by
  intro claim
  obtain ⟨calls, outcome, last, _, flow, _⟩ := scriptSlot_skipped.write_flow 12 (.int 4)
  have valid : (Session.validate skippedState).1 = .done (.ok ()) := by
    rw [validate_of_alive (by decide +kernel)]
    exact congrArg Outcome.done (by decide +kernel)
  have attached : skippedState.alive = true ∧ (skippedState.store ⟨3⟩).home ≠ .free false := by
    decide +kernel
  have hooks : ∃ stop between,
      Interceptions 12 .onWrite "level" [⟨1⟩] (.int 4) skippedState calls stop between := by
    cases flow with
    | detached _ detached =>
        obtain lost | lost := detached
        · rw [attached.1] at lost
          cases lost
        · exact absurd lost attached.2
    | stopped hooks => exact ⟨_, _, hooks⟩
    | settled hooks => exact ⟨_, _, hooks⟩
  obtain ⟨stop, between, hooks⟩ := hooks
  obtain ⟨answer, after, others, rfl, intercepts, _⟩ := hooks.uncons
  have cls : (skippedState.object ⟨1⟩).cls = ⟨0⟩ := by decide +kernel
  have missing : (skippedState.metaTable ⟨0⟩).get? .onWrite = none := by
    rw [← Option.isNone_iff_eq_none]
    decide +kernel
  have mode : (skippedState.cls ⟨0⟩).mode = .marker := by decide +kernel
  have chain : skippedState.ancestors ⟨0⟩ = [⟨0⟩, ⟨2⟩] := by decide +kernel
  have declared : (skippedState.cls ⟨2⟩).functions.map FunctionDecl.name =
      [MetaKey.onWrite.methodName] := by decide +kernel
  obtain ⟨function, member, named⟩ := List.mem_map.mp (declared ▸ List.mem_singleton_self _)
  have skips := intercepts.skips
  have refutes := claim _ _ _ _ scriptSlot_skipped valid _ _ _ _ _ flow _ List.mem_cons_self
  unfold HookCall.cls at skips refutes
  dsimp only at skips refutes
  rw [cls] at skips refutes
  refine refutes (skips.mpr missing) ⟨fun _ => mode, ⟨2⟩, ?_, function, member, named⟩
  rw [chain]
  simp

end World

end ScriptObjects

import ScriptObjects.Proofs.FunctionSlots
import ScriptObjects.Proofs.MetaTables
import ScriptObjects.Proofs.Underway

/-!
# Hooks, constructions and lookups agree

An operator finds the function of a hook in two steps.  The table of the class tells which class
declares it and at which tier, whatever the tier; then the function is read from the declarations
of that tier on the level of that class, where the search for functions begins anew under rules of
its own.  The second search stops at once: the store of the level stands for the very function that
the table leads to, and binds it to the level.

A construction fetches its constructor in the same two steps, and so does everyone who reads the
name from those declarations.  They all get the identical function value.
-/

namespace ScriptObjects

set_option autoImplicit false

open Exec

/-! ## Tables stay -/

theorem HostChange.metaTable {first second : World} (change : HostChange first second)
    (registered : first.Registered) (id : ClassId) : second.metaTable id = first.metaTable id :=
  (change.continues registered).hierarchy.metaTable <| by
    unfold World.cls
    rw [change.classes]

/-- A class answers to requests for its meta-functions as it did before. -/
theorem Proceeds.metaTable {first second : World} (proceeds : Proceeds first second)
    (live : first.Live) (id : ClassId) : second.metaTable id = first.metaTable id := by
  induction proceeds with
  | refl => rfl
  | run _ change ih => exact (change.metaTable_eq id).trans ih
  | host before change ih =>
      have registered := (before.sound_continues live.1 live.2).1.registered
      exact (change.metaTable registered id).trans ih

namespace World

/-! ## Names that no variable hides -/

/-- No variable of a name was declared on an instance, apart from fields.  On a level whose class has
no such field, every slot of the name holds a function, and nothing is attached to it. -/
def Unhidden (world : World) (id : InstanceId) (name : String) : Prop :=
  ∀ place level, world.level? id place = some level → (world.cls level.cls).field? name = none →
    ∀ tier slot, (world.store (level.declarations tier)).slot? name = some slot →
      slot.immutable = true ∧ slot.annotations = []

/-- A class has no field with the name of one of its functions. -/
theorem Registered.field?_of_function {world : World} (registered : world.Registered) {id : ClassId}
    {function : Function} (declared : function ∈ (world.cls id).functions) :
    (world.cls id).field? function.name = none := by
  unfold ClassDef.field?
  rw [List.find?_eq_none]
  intro field member same
  exact (registered.name_ne member declared).symm (of_decide_eq_true same)

theorem LeadsTo.bare {world : World} {id : InstanceId} {link : MetaLink} {place : Nat}
    {level : Level} (leads : world.LeadsTo id link place level) (registered : world.Registered)
    (unhidden : world.Unhidden id link.key.methodName) :
    ∀ slot, (world.store (level.declarations link.access)).slot? link.key.methodName = some slot →
      slot.immutable = true ∧ slot.annotations = [] := by
  have none := registered.field?_of_function leads.declared
  rw [leads.named] at none
  exact unhidden place level leads.sits none link.access

/-! ## Fetching a function -/

/-- The function value that a store gives under the name of a function: the one in its slot, or else
the one that is made next. -/
def functionAt (world : World) (store : StoreId) (name : String) : CallableId :=
  match ((world.store store).slot? name).map Slot.content with
  | some (.script (some (.function callable))) => callable
  | _ => world.callables.next

theorem functionAt_held {world : World} {store : StoreId} {name : String} {callable : CallableId}
    (there : (world.store store).slot? name = some (.function callable)) :
    world.functionAt store name = callable := by
  unfold functionAt
  rw [there]
  rfl

theorem functionAt_missing {world : World} {store : StoreId} {name : String}
    (missing : (world.store store).slot? name = none) :
    world.functionAt store name = world.callables.next := by
  unfold functionAt
  rw [missing]
  rfl

/-- What fetching functions of a name leaves behind: tables that are kept, bases that were walked to,
and slots of the functions.  Call stacks are not spoken of. -/
structure Fetches (before : World) (name : String) (after : World) : Prop where
  proceeds : Proceeds before after
  rest : after = { before with
    classes := after.classes, classRefs := after.classRefs, stores := after.stores
    callables := after.callables, contexts := after.contexts }
  slots : ∀ store label, (after.store store).slot? label = (before.store store).slot? label ∨
    label = name ∧ (before.store store).slot? label = none ∧
      ∃ callable, (after.store store).slot? label = some (.function callable)

namespace Fetches

variable {name : String} {first second third : World}

theorem of_stores (proceeds : Proceeds first second)
    (rest : second = { first with
      classes := second.classes, classRefs := second.classRefs, callables := second.callables
      contexts := second.contexts }) : Fetches first name second where
  proceeds := proceeds
  rest := by
    rw [rest]
  slots store label := by
    left
    rw [rest]
    rfl

theorem refl (world : World) : Fetches world name world := of_stores (.refl world) rfl

theorem trans (one : Fetches first name second) (two : Fetches second name third) :
    Fetches first name third where
  proceeds := one.proceeds.trans two.proceeds
  rest := by
    rw [two.rest, one.rest]
  slots store label := by
    obtain same | ⟨named, missing, added⟩ := two.slots store label
    · rw [same]
      exact one.slots store label
    · obtain same | ⟨_, _, callable, there⟩ := one.slots store label
      · exact .inr ⟨named, same ▸ missing, added⟩
      · rw [there] at missing
        cases missing

theorem keepMetaTable (world : World) (id : ClassId) :
    Fetches world name (world.keepMetaTable id) := by
  refine of_stores (LeadsFreely.proceeds (metaLink?_leads id .construct) world) ?_
  rw [keepMetaTable_eq]

/-- A slot was added that holds a function. -/
theorem of_modifies {store : StoreId} {callable : CallableId} (proceeds : Proceeds first second)
    (modifies : first.ModifiesOnly (theSlot store name) second)
    (missing : (first.store store).slot? name = none)
    (there : (second.store store).slot? name = some (.function callable)) :
    Fetches first name second where
  proceeds := proceeds
  rest := by
    rw [modifies.rest]
  slots other label := by
    by_cases here : theSlot store name other label
    · obtain ⟨rfl, rfl⟩ := here
      exact .inr ⟨rfl, missing, callable, there⟩
    · exact .inl (modifies.slots other label here)

theorem withContext (world : World) (id : ContextId) (update : Context → Context) :
    Fetches world name (world.withContext id update) :=
  of_stores (.host (.refl world) (.context id update)) rfl

section

variable (fetches : Fetches first name second)
include fetches

theorem object (id : InstanceId) : second.object id = first.object id := by
  rw [fetches.rest]
  rfl

theorem level? (id : InstanceId) (place : Nat) : second.level? id place = first.level? id place := by
  unfold World.level?
  rw [fetches.object]

/-- A slot that was added is one of a function. -/
theorem unhidden (live : first.Live) {id : InstanceId} (unhidden : first.Unhidden id name) :
    second.Unhidden id name := by
  intro place level sits bare tier slot found
  rw [fetches.level?] at sits
  have hierarchy := (fetches.proceeds.sound_continues live.1 live.2).2.hierarchy
  rw [hierarchy.ask (ClassDef.field? · name) fun _ => rfl] at bare
  obtain same | ⟨_, _, callable, there⟩ := fetches.slots (level.declarations tier) name
  · exact unhidden place level sits bare tier slot (same.symm.trans found)
  · cases there.symm.trans found
    exact ⟨rfl, rfl⟩

end

end Fetches

/-- The functions of a name can be fetched on an instance: it lives, its levels belong to the chain
of its class, and no variable hides them. -/
structure Fetchable (world : World) (id : InstanceId) (name : String) : Prop where
  reachable : Reachable world
  living : (world.object id).alive = true
  begins : (world.object id).levels.map Level.cls <+: world.ancestors (world.object id).cls
  unhidden : world.Unhidden id name

namespace Fetches

variable {before after : World} {name : String} (fetches : before.Fetches name after)
include fetches

theorem hierarchy (reachable : Reachable before) : SameHierarchy before after :=
  (fetches.proceeds.sound_continues reachable.sound.1 reachable.sound.2).2.hierarchy

theorem fetchable {id : InstanceId} (fetchable : before.Fetchable id name) :
    after.Fetchable id name where
  reachable := .proceed fetchable.reachable fetches.proceeds
  living := by
    rw [fetches.object]
    exact fetchable.living
  begins := by
    rw [fetches.object, (fetches.hierarchy fetchable.reachable).ancestors]
    exact fetchable.begins
  unhidden := fetches.unhidden fetchable.reachable.sound fetchable.unhidden

theorem leadsTo (reachable : Reachable before) {id : InstanceId} {link : MetaLink} {place : Nat}
    {level : Level} (leads : before.LeadsTo id link place level) :
    after.LeadsTo id link place level :=
  leads.later (fetches.proceeds.sound_continues reachable.sound.1 reachable.sound.2).2

end Fetches

/-- The function value of a link on a level. -/
def memberAt (world : World) (level : Level) (link : MetaLink) : CallableId :=
  world.functionAt (level.declarations link.access) link.key.methodName

/-- The function of a link was fetched from its level.  It is bound to the level and sits in its slot,
and nothing else has happened. -/
structure Fetched (world : World) (id : InstanceId) (link : MetaLink) (place : Nat) (level : Level)
    (after : World) : Prop where
  fetches : world.Fetches link.key.methodName after
  contexts : after.contexts = world.contexts
  keeps : after.Keeps (level.declarations link.access) link.key.methodName
    (world.memberAt level link) link.function (some ⟨id, place⟩)

section

variable {world : World} (reachable : Reachable world) {store : StoreId} {name : String}
  {function : Function} {receiver : Option Receiver}
  (offered : world.offer? store name = some (function, receiver))
  (plain : function.annotations = []) (missing : (world.store store).slot? name = none)
include reachable offered plain missing

/-- A function that is not yet a slot becomes one when it is read. -/
theorem fetches_missing (living : (receiver.all fun target => (world.object target.owner).alive) = true)
    (budget : Nat) :
    ∃ after, performUpTo (budget + 1) (.read (.store store) name) world =
        (.done (.function world.callables.next), after) ∧
      world.Fetches name after ∧ after.contexts = world.contexts ∧
      after.Keeps store name world.callables.next function receiver := by
  obtain ⟨_, rfl⟩ := offer?_declared offered
  let asked := world.askedFor store function.name
  have reads : performUpTo (budget + 1) (.read (.store store) function.name) world =
      (.done (.function world.callables.next), asked.install store function receiver) :=
    (readStore_of_unannotated _ reachable.sound.1 missing offered plain).trans (if_pos living)
  have proceeds := performUpTo_proceeds (budget + 1) (.read (.store store) function.name) world
  rw [reads] at proceeds
  have modifies := (ModifiesOnly.askedFor world store function.name).trans
    (.install asked store function receiver)
  have there : ((asked.install store function receiver).store store).slot? function.name =
      some (.function world.callables.next) := by
    rw [← callables_askedFor world store function.name]
    refine declares_install _ (inside_of_offer? ((offer?_askedFor _ _ _ _ _).trans offered)) ?_
    rw [store_askedFor]
    simp [Store.declares, missing]
  have made : (asked.install store function receiver).callables.get? world.callables.next =
      some (.ofFunction function receiver) := by
    rw [← callables_askedFor world store function.name]
    exact Heap.get?_push_next _ _
  refine ⟨_, reads, .of_modifies proceeds modifies missing there, ?_, there, made, fun _ =>
    .proceed reachable proceeds⟩
  rw [modifies.rest]

end

section

variable {world : World} {id : InstanceId} {link : MetaLink} {place : Nat} {level : Level}
  (fetchable : world.Fetchable id link.key.methodName) (leads : world.LeadsTo id link place level)
  (plain : link.function.annotations = [])
include fetchable leads plain

/-- A read in the declarations of a level gives the function that a link leads to. -/
theorem Fetchable.reads (budget : Nat) :
    ∃ after, performUpTo (budget + 1)
        (.read (.store (level.declarations link.access)) link.key.methodName) world =
          (.done (.function (world.memberAt level link)), after) ∧
      world.Fetched id link place level after := by
  obtain ⟨_, sound⟩ := fetchable.reachable.sound
  have offered := leads.offered fetchable.begins sound
  unfold memberAt
  cases found : (world.store (level.declarations link.access)).slot? link.key.methodName with
  | some slot =>
      obtain ⟨held, none⟩ := leads.bare sound.registered fetchable.unhidden slot found
      obtain ⟨callable, keeps⟩ := keeps_held fetchable.reachable offered found held none
      have same := functionAt_held keeps.there
      rw [same]
      refine ⟨world, readStore_of_script _ keeps.there rfl rfl, .refl world, rfl, ?_⟩
      unfold memberAt
      rw [same]
      exact keeps
  | none =>
      have same := functionAt_missing found
      obtain ⟨after, reads, fetches, contexts, keeps⟩ :=
        fetches_missing fetchable.reachable offered plain found fetchable.living budget
      rw [same]
      refine ⟨after, reads, fetches, contexts, ?_⟩
      unfold memberAt
      rw [same]
      exact keeps

/-- The table of a class leads to the same store and the same function value. -/
theorem Fetchable.fetches (cls : ClassId) (fallback : Nat) (budget : Nat) :
    openScope? id ⟨((world.keepMetaTable cls).levelOf? id link.owner.hash).getD fallback, link.access,
        .declarations⟩ (world.keepMetaTable cls) =
      (.done (some (.store (level.declarations link.access))), world.keepMetaTable cls) ∧
    ∃ after, performUpTo (budget + 1)
        (.read (.store (level.declarations link.access)) link.key.methodName)
        (world.keepMetaTable cls) = (.done (.function (world.memberAt level link)), after) ∧
      world.Fetched id link place level after := by
  have asked : world.Fetches link.key.methodName (world.keepMetaTable cls) := .keepMetaTable world cls
  have later := asked.fetchable fetchable
  have leads := asked.leadsTo fetchable.reachable leads
  have same : (world.keepMetaTable cls).memberAt = world.memberAt := by
    rw [keepMetaTable_eq]
    rfl
  obtain ⟨after, reads, fetched⟩ := later.reads leads plain budget
  rw [same] at reads
  refine ⟨?_, after, reads, asked.trans fetched.fetches, fetched.contexts.trans ?_, ?_⟩
  · rw [leads.levelOf?_eq later.begins later.reachable.sound.2.registered, Option.getD_some]
    exact openScope?_declarations leads.sits rfl
  · rw [keepMetaTable_eq]
  · rw [← same]
    exact fetched.keeps

end

/-! ## Hooks and constructions -/

/-- The part of a hook that follows the fetching of its function. -/
def callHook (perform : Perform) (context : ContextId) (key : MetaKey) (callable : CallableId)
    (args : List Value) : Exec (Option Value) := do
  let result ← Exec.wrapFault (.hookFailed key) (perform (.call callable args context))
  return some (← castReturn key result)

/-- A function that was called did answer. -/
theorem callHook_answers {perform : Perform} {context : ContextId} {key : MetaKey}
    {callable : CallableId} {args : List Value} {world : World} :
    (callHook perform context key callable args world).1 ≠ .done none := by
  intro ends
  obtain ⟨result, after, _, rest⟩ := bind_done (Prod.ext ends rfl)
  obtain ⟨value, last, _, answer⟩ := bind_done rest
  cases answer

theorem hook_of_none (perform : Perform) (context : ContextId) {world : World} {id : InstanceId}
    {key : MetaKey} (args : List Value)
    (missing : (world.metaTable (world.object id).cls).get? key = none) :
    hook perform context id key args world =
      (.done none, world.keepMetaTable (world.object id).cls) := by
  have asked : Exec.metaLink? (world.object id).cls key world =
      (.done none, world.keepMetaTable (world.object id).cls) := by
    rw [← missing]
    rfl
  unfold hook
  rw [get_bind_apply, bind_of_done _ asked]
  rfl

section

variable {world : World} {id : InstanceId} {link : MetaLink} {place : Nat} {level : Level}
  (fetchable : world.Fetchable id link.key.methodName) (leads : world.LeadsTo id link place level)
  (plain : link.function.annotations = [])
  (found : (world.metaTable (world.object id).cls).get? link.key = some link)
include fetchable leads plain found

/-- A hook fetches the function of its link and calls it, and a construction fetches the same one. -/
theorem hook_of_link (budget : Nat) (context : ContextId) (args : List Value) :
    ∃ fetched, world.Fetched id link place level fetched ∧
      hook (performUpTo (budget + 1)) context id link.key args world =
        callHook (performUpTo (budget + 1)) context link.key (world.memberAt level link) args fetched ∧
      (link.key = .construct → resolveConstructor (performUpTo (budget + 1)) id world =
        (.done (world.memberAt level link), fetched)) := by
  have asked : Exec.metaLink? (world.object id).cls link.key world =
      (.done (some link), world.keepMetaTable (world.object id).cls) := by
    rw [← found]
    rfl
  obtain ⟨opens, after, reads, fetched⟩ :=
    fetchable.fetches leads plain (world.object id).cls 0 budget
  refine ⟨after, fetched, ?_, fun construct => ?_⟩
  · unfold hook
    rw [get_bind_apply, bind_of_done _ asked]
    dsimp only
    rw [get_bind_apply, bind_of_done _ opens]
    dsimp only
    rw [bind_of_done _ reads]
    rfl
  · rw [construct] at asked reads
    unfold resolveConstructor
    rw [get_bind_apply, bind_of_done _ asked]
    dsimp only
    rw [get_bind_apply, bind_of_done _ opens]
    exact bind_of_done _ reads

end

/-! ## What a body sees -/

/-- A body that is bound to a level finds what is local to that level before anything else. -/
theorem scope_of_body {world : World} {receiver : Receiver} {level : Level}
    (sits : world.level? receiver.owner receiver.level = some level) (context : ContextId)
    (args : List Value) :
    ∃ scope after, Invocation.scope ⟨context, some receiver, args⟩ world = (.done scope, after) ∧
      ∀ name, world.Answers name level.locals = true →
        scope.stores.find? (world.Answers name) = some level.locals := by
  have opens : openScope? receiver.owner ⟨receiver.level, .localOnly, .all⟩ world = _ :=
    openScope?_composite sits nofun
  refine ⟨_, _, bind_of_done _ opens, fun name answers => ?_⟩
  have first : (world.object receiver.owner).levels[receiver.level]? = some level := sits
  rw [Option.getD_some, compositeScope, Scope.stores, chainSources]
  simp only [first, if_true, Option.map_some, Option.toList_some, List.cons_append, Scope.storesOf,
    Scope.stores, List.nil_append]
  exact List.find?_cons_of_pos answers

/-! ## Sessions -/

theorem Ready.fetchable {world : World} (ready : world.Ready) (reachable : Reachable world)
    {id : InstanceId} (inside : id.index < world.instances.size)
    (living : (world.object id).alive = true) {name : String} (unhidden : world.Unhidden id name) :
    world.Fetchable id name where
  reachable := reachable
  living := living
  begins := ready.whole id inside ▸ List.prefix_rfl
  unhidden := unhidden

/-- In a session that was validated before anything was created, a hook answers that there is none
exactly if the table of the class has no link for its key.  Otherwise the link leads to the function
of the name on the most derived class that declares one, at whatever tier, and to the level of that
class on the instance.  The hook calls that function once, bound to that level, and the function
value is the identical one that is read from the declarations of the level at the tier of the
function, before and after, and that a construction resolves.  Its body finds what is local to that
level first. -/
theorem hook_fetches_member {defined start world : World} (reachable : Reachable defined)
    (valid : Session.validate defined = (.done (.ok ()), start))
    (nothing : start.instances.size = 0) (proceeds : Proceeds start world) {id : InstanceId}
    (inside : id.index < world.instances.size) (living : (world.object id).alive = true)
    {key : MetaKey} (unhidden : world.Unhidden id key.methodName)
    (plain : ∀ link, (world.metaTable (world.object id).cls).get? key = some link →
      link.function.annotations = []) (budget : Nat) (context : ContextId) (args : List Value) :
    ((hook (performUpTo (budget + 1)) context id key args world).1 = .done none ↔
      (world.metaTable (world.object id).cls).get? key = none) ∧
    ∀ link, (world.metaTable (world.object id).cls).get? key = some link →
      link.key = key ∧ world.LinksNearest (world.ancestors (world.object id).cls) link ∧
      ∃ place level fetched, world.LeadsTo id link place level ∧
        world.Fetched id link place level fetched ∧
        hook (performUpTo (budget + 1)) context id key args world =
          callHook (performUpTo (budget + 1)) context key (world.memberAt level link) args fetched ∧
        (∃ scope after,
          openScope? id ⟨place, link.access, .declarations⟩ world = (.done (some scope), world) ∧
          performUpTo (budget + 1) (.read scope key.methodName) world =
            (.done (.function (world.memberAt level link)), after)) ∧
        fetched.HoldsForGood (level.declarations link.access) key.methodName
          (world.memberAt level link) ∧
        (key = .construct → resolveConstructor (performUpTo (budget + 1)) id world =
          (.done (world.memberAt level link), fetched)) ∧
        ∀ later, Proceeds fetched later → ∃ scope after,
          Invocation.scope ⟨context, some ⟨id, place⟩, args⟩ later = (.done scope, after) ∧
          ∀ name, later.Answers name level.locals = true →
            scope.stores.find? (later.Answers name) = some level.locals := by
  have begins : start.Ready :=
    .of_validate reachable (validate_run_of_ok reachable.sound.1 valid) (.of_none nothing)
  have ready := begins.proceed proceeds
  have now : Reachable world := by
    have follows := (validate_onlyFollows defined).proceeds
    rw [validate_run_of_ok reachable.sound.1 valid] at follows
    exact (Reachable.proceed reachable follows).proceed proceeds
  have fetchable := ready.fetchable now inside living unhidden
  have levels : ∀ member ∈ world.ancestors (world.object id).cls,
      ∃ place level, world.level? id place = some level ∧ level.cls = member :=
    fun member => level_of_member (ready.whole id inside)
  have leads : ∀ link, (world.metaTable (world.object id).cls).get? key = some link →
      ∃ place level, world.LeadsTo id link place level := fun link found =>
    (ready.sound.registered.links found).2.leadsTo levels
  refine ⟨⟨fun none => ?_, fun missing => ?_⟩, fun link found => ?_⟩
  · cases found : (world.metaTable (world.object id).cls).get? key with
    | none => rfl
    | some link =>
        obtain ⟨rfl, _⟩ := now.links_nearest found
        obtain ⟨place, level, leads⟩ := leads link found
        obtain ⟨fetched, _, calls, _⟩ :=
          hook_of_link fetchable leads (plain link found) found budget context args
        rw [calls] at none
        exact absurd none callHook_answers
  · rw [hook_of_none _ context args missing]
  · obtain ⟨rfl, nearest⟩ := now.links_nearest found
    obtain ⟨place, level, leads⟩ := leads link found
    obtain ⟨fetched, fetches, calls, resolves⟩ :=
      hook_of_link fetchable leads (plain link found) found budget context args
    obtain ⟨after, reads, _⟩ := fetchable.reads leads (plain link found) budget
    refine ⟨rfl, nearest, place, level, fetched, leads, fetches, calls,
      ⟨_, after, openScope?_declarations leads.sits rfl, reads⟩,
      holdsForGood fetches.keeps.there, resolves, fun later since => ?_⟩
    refine scope_of_body ?_ context args
    have sits := (fetches.fetches.level? id place).trans leads.sits
    have continues := ((ready.proceed fetches.fetches.proceeds).continues since)
    exact continues.level? sits

/-- Whether no variable of a name hides the functions of the name on an instance. -/
def checkUnhidden (world : World) (id : InstanceId) (name : String) : Bool :=
  (world.object id).levels.all fun level =>
    ((world.cls level.cls).field? name).isSome || Access.all.all fun tier =>
      ((world.store (level.declarations tier)).slot? name).all fun slot =>
        slot.immutable && slot.annotations.isEmpty

theorem unhidden_of_check {world : World} {id : InstanceId} {name : String}
    (checked : world.checkUnhidden id name = true) : world.Unhidden id name := by
  intro place level sits bare tier slot found
  have passes := List.all_eq_true.mp checked level (List.mem_of_getElem? sits)
  rw [bare, Option.isSome_none, Bool.false_or] at passes
  have every : tier ∈ Access.all := by cases tier <;> decide
  have passes := List.all_eq_true.mp passes tier every
  rw [found, Option.all_some, Bool.and_eq_true, List.isEmpty_iff] at passes
  exact passes

/-- A class whose length is its secret code, and a class derived from it with a code of its own. -/
def vaultSpecs : List ClassSpec :=
  [bareClass "Safe" none [⟨"code", .localOnly, .any, .script (some (.int 7)), [], none⟩]
    [⟨"opLength", .internal, .ordinary, .any, .script (.get "code"), [], none⟩],
   bareClass "Vault" (some "Safe") [⟨"code", .localOnly, .any, .script (some (.int 9)), [], none⟩] []]

/-- The state after an instance of the derived class was created. -/
def vaultState : World := sampleAfter vaultSpecs ⟨1⟩

/-- The length is the code of the class that declares the hook. -/
theorem hook_fetches_member_vault :
    (hook (performUpTo 9) ownContext ⟨0⟩ .length [] vaultState).1.result? =
      some (some (.int 7)) ∧
    ∃ link level fetched, (vaultState.metaTable ⟨1⟩).get? .length = some link ∧
      vaultState.LeadsTo ⟨0⟩ link 1 level ∧
      hook (performUpTo 9) ownContext ⟨0⟩ .length [] vaultState =
        callHook (performUpTo 9) ownContext .length (vaultState.memberAt level link) [] fetched := by
  have alive : (defining default vaultSpecs).alive = true := by decide +kernel
  have valid : Session.validate (defining default vaultSpecs) =
      (.done (.ok ()), sampleStart vaultSpecs) := by
    rw [validate_of_alive alive]
    rfl
  have cls : (vaultState.object ⟨0⟩).cls = ⟨1⟩ := by decide +kernel
  have linked : ((vaultState.metaTable ⟨1⟩).get? .length).any (fun link =>
      vaultState.levelOf? ⟨0⟩ link.owner.hash = some 1 && link.function.annotations.isEmpty) = true := by
    decide +kernel
  obtain ⟨link, found, placed⟩ := (Option.any_eq_true _ _).mp linked
  rw [Bool.and_eq_true, decide_eq_true_eq, List.isEmpty_iff] at placed
  have answers : (vaultState.metaTable (vaultState.object ⟨0⟩).cls).get? .length = some link := by
    rw [cls]
    exact found
  have plain : ∀ other, (vaultState.metaTable (vaultState.object ⟨0⟩).cls).get? .length = some other →
      other.function.annotations = [] := fun other same => by
    cases answers.symm.trans same
    exact placed.2
  obtain ⟨_, _, place, level, fetched, leads, _, calls, _⟩ :=
    (hook_fetches_member (reachable_defining default vaultSpecs) valid (by decide +kernel)
      (proceeds_sampleAfter vaultSpecs ⟨1⟩) (by decide +kernel) (by decide +kernel)
      (unhidden_of_check (by decide +kernel)) plain 8 ownContext []).2 link answers
  obtain rfl : place = 1 := by
    have begins : (vaultState.object ⟨0⟩).levels.map Level.cls <+:
        vaultState.ancestors (vaultState.object ⟨0⟩).cls := by decide +kernel
    have reached := (reachable_sampleStart vaultSpecs).proceed (proceeds_sampleAfter vaultSpecs ⟨1⟩)
    exact Option.some.inj
      ((leads.levelOf?_eq begins reached.sound.2.registered).symm.trans placed.1)
  exact ⟨by decide +kernel, link, level, fetched, found, leads, calls⟩

end World

end ScriptObjects

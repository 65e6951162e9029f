import ScriptObjects.Proofs.Probes

/-!
# What was written is read

A write through a scope and the read after it probe the sources of the scope each for itself.
They come to the same store.  A source that has nothing under the name is left as it was, but
for bases that were walked to, and the store that answers the write goes on answering.  So a
read gives what was written before it, from the slot in which it was stored, and no other slot
has changed.

A write that is refused changes no slot.  All that an attempt can leave behind is the slot of a
function, which was turned into one on the way.

This holds in every state in which the assembly is there.  The registry need not be complete:
what an unfinished chain does not answer now it does not answer in the next moment either.
-/

namespace ScriptObjects

set_option autoImplicit false

open Exec

namespace World

/-! ## Which slots differ -/

/-- No slot at all. -/
def noSlot : StoreId → String → Prop := fun _ _ => False

/-- The slot of one name in one store. -/
def theSlot (store : StoreId) (name : String) : StoreId → String → Prop :=
  fun other label => other = store ∧ label = name

/-- The second state differs from the first in some slots; beyond them there may be new function
values, and bases that were walked to. -/
structure ModifiesOnly (changed : StoreId → String → Prop) (before after : World) : Prop where
  rest : after = { before with
    stores := after.stores, callables := after.callables, classRefs := after.classRefs }
  hierarchy : SameHierarchy before after
  homes : ∀ store, (after.store store).home = (before.store store).home
  slots : ∀ store name, ¬ changed store name →
    (after.store store).slot? name = (before.store store).slot? name
  grown : before.callables.size ≤ after.callables.size
  values : ∀ callable, callable.index < before.callables.size →
    after.callables.get callable = before.callables.get callable

namespace ModifiesOnly

variable {changed : StoreId → String → Prop} {first second third : World}

theorem resolveBases (world : World) (visited : List ClassId) :
    ModifiesOnly changed world (world.resolveBases visited) := by
  refine ⟨?_, .resolveBases world visited, fun store => ?_, fun store name _ => ?_, ?_, ?_⟩
  all_goals rw [resolveBases_eq]
  · rfl
  · rfl
  · exact fun _ _ => rfl

theorem refl (world : World) : ModifiesOnly changed world world := resolveBases world []

theorem askedFor (world : World) (store : StoreId) (name : String) :
    ModifiesOnly changed world (world.askedFor store name) := by
  obtain ⟨visited, follows⟩ := askedFor_follows world store name
  rw [follows]
  exact resolveBases world visited

theorem trans (one : ModifiesOnly changed first second) (two : ModifiesOnly changed second third) :
    ModifiesOnly changed first third where
  rest := by
    rw [two.rest, one.rest]
  hierarchy := one.hierarchy.trans two.hierarchy
  homes store := (two.homes store).trans (one.homes store)
  slots store name kept := (two.slots store name kept).trans (one.slots store name kept)
  grown := Nat.le_trans one.grown two.grown
  values callable old :=
    (two.values callable (Nat.lt_of_lt_of_le old one.grown)).trans (one.values callable old)

theorem weaken (modifies : ModifiesOnly noSlot first second) : ModifiesOnly changed first second :=
  { modifies with slots := fun store name _ => modifies.slots store name id }

/-- A store is changed at one name. -/
theorem withStore (world : World) (store : StoreId) (name : String) (change : Store → Store)
    (home : ∀ given, (change given).home = given.home)
    (others : ∀ label, label ≠ name →
      (change (world.store store)).slot? label = (world.store store).slot? label) :
    ModifiesOnly (theSlot store name) world (world.withStore store change) where
  rest := rfl
  hierarchy := .of_same rfl rfl rfl rfl
  homes _ := Heap.get_modify_of _ _ _ _ Store.home home
  slots other label kept := by
    rw [store_withStore]
    split
    · next here =>
        rw [here.1]
        exact others label fun same => kept ⟨here.1, same⟩
    · rfl
  grown := Nat.le_refl _
  values _ _ := rfl

theorem insert (world : World) (store : StoreId) (name : String) (slot : Slot) :
    ModifiesOnly (theSlot store name) world (world.withStore store (·.insert name slot)) := by
  refine withStore world store name _ (fun _ => rfl) fun label other => ?_
  rw [Store.slot?_insert, if_neg other, Option.or_none]

theorem write (world : World) (store : StoreId) (name : String) (value : Value) :
    ModifiesOnly (theSlot store name) world
      (world.withStore store (·.modify name (·.write value))) := by
  refine withStore world store name _ (fun _ => rfl) fun label other => ?_
  rw [Store.slot?_modify, if_neg other]

theorem pushCallable (world : World) (callable : Callable) :
    ModifiesOnly changed world { world with callables := world.callables.push callable } where
  rest := rfl
  hierarchy := .of_same rfl rfl rfl rfl
  homes _ := rfl
  slots _ _ _ := rfl
  grown := by simp
  values _ old := Heap.get_push_of_lt world.callables callable old

theorem install (world : World) (store : StoreId) (function : Function)
    (receiver : Option Receiver) :
    ModifiesOnly (theSlot store function.name) world (world.install store function receiver) :=
  (pushCallable world _).trans (.insert _ store function.name _)

section

variable (modifies : ModifiesOnly changed first second)
include modifies

theorem alive : second.alive = first.alive := by
  rw [modifies.rest]

theorem object (id : InstanceId) : second.object id = first.object id := by
  rw [modifies.rest]
  rfl

theorem offer? (store : StoreId) (name : String) : second.offer? store name = first.offer? store name :=
  offer?_congr modifies.hierarchy (by rw [modifies.rest]) (modifies.homes store)
    (fun _ _ _ _ _ => by rw [modifies.object]) name

theorem accepts (type : ValueType) (value : Value) :
    second.accepts type value = first.accepts type value :=
  modifies.hierarchy.accepts (by rw [modifies.rest]) (by rw [modifies.rest]) type value

theorem typeName (value : Value) : second.typeName value = first.typeName value := by
  cases value with
  | object id =>
      simp only [World.typeName, classOf, modifies.object, modifies.hierarchy.name]
  | host id => rw [modifies.rest]; rfl
  | _ => rfl

theorem answers {store : StoreId} {name : String} (kept : ¬ changed store name) :
    second.Answers name store = first.Answers name store := by
  unfold Answers
  rw [modifies.slots store name kept, modifies.offer?]

end

/-- A store that answers goes on answering, and so it stays the first that does. -/
theorem first_answers {store : StoreId} {name : String} {stores : List StoreId}
    (modifies : ModifiesOnly (theSlot store name) first second)
    (found : stores.find? (first.Answers name) = some store)
    (there : ((second.store store).slot? name).isSome) :
    stores.find? (second.Answers name) = some store := by
  have same : second.Answers name = first.Answers name := by
    funext other
    by_cases here : other = store
    · subst here
      rw [List.find?_some found]
      unfold Answers
      rw [there, Bool.true_or]
    · exact modifies.answers fun changed => here changed.1
  rw [same]
  exact found

end ModifiesOnly

/-! ## Looking up through a scope -/

/-- Where a store has nothing under a name, a lookup reports the name as missing, and leaves behind
what it asked of the hierarchy. -/
def MissesUnknown {α : Type} (name : String) (atStore : StoreId → Exec α) : Prop :=
  ∀ (here : World) (store : StoreId), here.alive = true → (here.store store).slot? name = none →
    here.offer? store name = none →
      atStore store here = (.failed (.lookup (.notDeclared name)), here.askedFor store name)

theorem readStore_missesUnknown (perform : Perform) (name : String) :
    MissesUnknown name (readStore perform · name) :=
  fun _ _ alive missing nothing => readStore_of_unknown perform alive missing nothing

theorem assignStore_missesUnknown (perform : Perform) (name : String) (value : Value) :
    MissesUnknown name (assignStore perform · name value) :=
  fun _ _ alive missing nothing => assignStore_of_unknown perform alive missing nothing value

section

variable {α : Type} {name : String} {atStore : StoreId → Exec α} {atScope : Scope → Exec α}
  {among : List Scope → Exec α} (tries : TriesStores name atStore atScope among)
  (unknown : MissesUnknown name atStore) {world : World} (alive : world.alive = true)
include tries unknown alive

/-- A lookup comes to the first store that answers, and leaves all slots on the way as they are.  It
ends there unless it misses the name there after all. -/
theorem walks_to_first (scope : Scope) :
    ∃ here, world.ModifiesOnly noSlot here ∧ Proceeds world here ∧
      ((∀ store, scope.stores.find? (world.Answers name) = some store →
        ∀ fault after, atStore store here = (.failed fault, after) → fault.isMiss name = false) →
        atScope scope world = world.lookAtFirst name atStore scope.stores here) := by
  have misses : ∀ here, world.ModifiesOnly noSlot here ∧ Proceeds world here →
      ∀ store, world.Answers name store = false → ∃ later,
        (world.ModifiesOnly noSlot later ∧ Proceeds world later) ∧
          atStore store here = (.failed (.lookup (.notDeclared name)), later) := by
    intro here ⟨reached, proceeds⟩ store silent
    obtain ⟨missing, nothing⟩ := answers_eq_false silent
    have asked : Evolves (fun _ => True) (fun _ => True) here (here.askedFor store name) :=
      .askedFor here store name
    exact ⟨_, ⟨reached.trans (.askedFor here store name), proceeds.trans asked.proceeds⟩,
      unknown here store (reached.alive.trans alive) ((reached.slots store name id).trans missing)
        ((reached.offer? store name).trans nothing)⟩
  obtain ⟨here, ⟨reached, proceeds⟩, looks⟩ :=
    tries.reaches_first misses scope world ⟨.refl world, .refl world⟩
  exact ⟨here, reached, proceeds, looks⟩

/-- Where the first store that answers does not miss the name, a lookup ends there. -/
theorem comes_to_first (scope : Scope)
    (hits : ∀ store, scope.stores.find? (world.Answers name) = some store → ∀ here,
      world.ModifiesOnly noSlot here → Proceeds world here →
        ∀ fault after, atStore store here = (.failed fault, after) → fault.isMiss name = false) :
    ∃ here, world.ModifiesOnly noSlot here ∧ Proceeds world here ∧
      atScope scope world = world.lookAtFirst name atStore scope.stores here := by
  obtain ⟨here, reached, proceeds, looks⟩ := walks_to_first tries unknown alive scope
  exact ⟨here, reached, proceeds, looks fun store found => hits store found here reached proceeds⟩

/-- A lookup through a scope in which a store is the first to answer ends at that store. -/
theorem comes_to_store {scope : Scope} {store : StoreId}
    (first : scope.stores.find? (world.Answers name) = some store)
    (hits : ∀ here, world.ModifiesOnly noSlot here → Proceeds world here →
      ∀ fault after, atStore store here = (.failed fault, after) → fault.isMiss name = false) :
    ∃ here, world.ModifiesOnly noSlot here ∧ Proceeds world here ∧
      atScope scope world = atStore store here := by
  obtain ⟨here, reached, proceeds, looks⟩ := comes_to_first tries unknown alive scope
    fun other found => by
      obtain rfl : store = other := Option.some.inj (first.symm.trans found)
      exact hits
  unfold lookAtFirst at looks
  rw [first] at looks
  exact ⟨here, reached, proceeds, looks⟩

end

section

variable {world : World} {name : String} (alive : world.alive = true) (scope : Scope) (budget : Nat)
include alive

/-- A value that a slot keeps is read through every scope in which its store is the first to
answer. -/
theorem read_kept {store : StoreId} {slot : Slot} {kept : Option Value}
    (first : scope.stores.find? (world.Answers name) = some store)
    (found : (world.store store).slot? name = some slot) (plain : slot.annotations = [])
    (content : slot.content = .script kept) :
    ∃ later, world.ModifiesOnly noSlot later ∧
      performUpTo (budget + 1) (.read scope name) world =
        (kept.elim (.failed (.lookup (.notAssigned name))) .done, later) := by
  have reads : ∀ here, world.ModifiesOnly noSlot here →
      readStore (performUpTo budget) store name here =
        (kept.elim (.failed (.lookup (.notAssigned name))) .done, here) :=
    fun here reached =>
      readStore_of_script _ ((reached.slots store name id).trans found) plain content
  obtain ⟨here, reached, _, looks⟩ := comes_to_store (readScope_tries (performUpTo budget) name)
    (readStore_missesUnknown _ name) alive first fun here reached _ fault after ends => by
      rw [reads here reached] at ends
      cases kept <;> cases ends
      rfl
  exact ⟨here, reached, looks.trans (reads here reached)⟩

end

/-! ## Writing to a variable -/

/-- A name resolves through a scope to a variable that its slot keeps, without annotations. -/
structure ResolvesToVariable (world : World) (scope : Scope) (name : String) (store : StoreId)
    (slot : Slot) : Prop where
  first : scope.stores.find? (world.Answers name) = some store
  found : (world.store store).slot? name = some slot
  isMutable : slot.immutable = false
  plain : slot.annotations = []
  script : ∃ kept, slot.content = .script kept

/-- A write to a variable stores what its type accepts, in widened form; what its type does not
accept is refused, and changes no slot. -/
inductive WritesVariable (world : World) (store : StoreId) (name : String) (slot : Slot)
    (value : Value) : Outcome Unit → World → Prop
  | stored {after : World} (accepted : world.accepts slot.type value = true)
      (only : world.ModifiesOnly (theSlot store name) after)
      (there : (after.store store).slot? name = some
        { slot with content := .script (some (slot.type.widen value)) }) :
      WritesVariable world store name slot value (.done ()) after
  | refused {after : World} (rejected : world.accepts slot.type value = false)
      (nothing : world.ModifiesOnly noSlot after) :
      WritesVariable world store name slot value
        (.failed (.lookup (.typeMismatch name slot.type.name (world.typeName value)))) after

section

variable {world : World} {scope : Scope} {name : String} {store : StoreId} {slot : Slot}
  (resolves : world.ResolvesToVariable scope name store slot)
include resolves

/-- Where the probes have come to the store of a variable, the write ends there. -/
theorem ResolvesToVariable.assigns {here : World} (reached : world.ModifiesOnly noSlot here)
    (perform : Perform) (value : Value) :
    ∃ outcome after, assignStore perform store name value here = (outcome, after) ∧
      world.WritesVariable store name slot value outcome after := by
  obtain ⟨first, found, isMutable, plain, old, content⟩ := resolves
  have there : (here.store store).slot? name = some slot := (reached.slots store name id).trans found
  have assigns := assignStore_of_variable perform value there isMutable plain content
  rw [reached.accepts, reached.typeName] at assigns
  let asked := here.resolveBases (here.visitedByAccepts slot.type value)
  have still : world.ModifiesOnly noSlot asked := reached.trans (.resolveBases here _)
  cases accepted : world.accepts slot.type value with
  | false =>
      rw [accepted] at assigns
      exact ⟨_, asked, assigns, .refused accepted still⟩
  | true =>
      rw [accepted] at assigns
      refine ⟨_, _, assigns, .stored accepted (still.weaken.trans (.write asked store name _)) ?_⟩
      have kept : (asked.store store).slot? name = some slot := (still.slots store name id).trans found
      rw [slot?_withStore_modify kept]
      simp only [Slot.write, content]

theorem ResolvesToVariable.writes (alive : world.alive = true) (value : Value) (budget : Nat) :
    ∃ outcome after, performUpTo (budget + 1) (.assign scope name value) world = (outcome, after) ∧
      world.WritesVariable store name slot value outcome after := by
  obtain ⟨here, reached, _, looks⟩ := comes_to_store
    (assignScope_tries (performUpTo budget) name value) (assignStore_missesUnknown _ name value) alive
    resolves.first fun here reached _ fault after ends => by
      obtain ⟨outcome, last, assigns, writes⟩ := resolves.assigns reached (performUpTo budget) value
      rw [assigns] at ends
      cases writes <;> cases ends
      rfl
  obtain ⟨outcome, after, assigns, writes⟩ := resolves.assigns reached (performUpTo budget) value
  exact ⟨outcome, after, looks.trans assigns, writes⟩

/-- After a write that succeeded, the name resolves to the same slot, and the value is read. -/
theorem WritesVariable.read_back (alive : world.alive = true) {value : Value}
    {after : World} (writes : world.WritesVariable store name slot value (.done ()) after) :
    scope.stores.find? (after.Answers name) = some store ∧
      ∀ budget, ∃ later, after.ModifiesOnly noSlot later ∧
        performUpTo (budget + 1) (.read scope name) after =
          (.done (slot.type.widen value), later) := by
  cases writes with
  | stored _ only there =>
      have first := only.first_answers resolves.first (by rw [there]; rfl)
      exact ⟨first, fun budget =>
        read_kept (only.alive.trans alive) scope budget first there resolves.plain rfl⟩

end

/-! ## Writing to what is no variable -/

/-- A name resolves through a scope to a function, which is not annotated if it is yet to be turned
into a slot; or to nothing. -/
def ResolvesToFunction (world : World) (scope : Scope) (name : String) : Prop :=
  ∀ store, scope.stores.find? (world.Answers name) = some store →
    match (world.store store).slot? name with
    | some slot => slot.immutable = true
    | none => ∀ function receiver, world.offer? store name = some (function, receiver) →
        function.annotations = []

/-- The first store that answers has turned the function that it stands for into its slot, and
nothing else has changed. -/
structure Materializes (world : World) (scope : Scope) (name : String) (after : World)
    (store : StoreId) (function : Function) (receiver : Option Receiver) (callable : CallableId) :
    Prop where
  first : scope.stores.find? (world.Answers name) = some store
  missing : (world.store store).slot? name = none
  offered : world.offer? store name = some (function, receiver)
  only : world.ModifiesOnly (theSlot store name) after
  there : (after.store store).slot? name = some (.function callable)
  made : after.callables.get? callable = some (.ofFunction function receiver)

/-- A write is refused where the name means a function or nothing.  Unless a function is turned into
a slot by the attempt, no slot changes. -/
inductive RefusesWrite (world : World) (scope : Scope) (name : String) : Fault → World → Prop
  | unknown {after : World} (silent : scope.stores.find? (world.Answers name) = none)
      (nothing : world.ModifiesOnly noSlot after) :
      RefusesWrite world scope name (.lookup (.notDeclared name)) after
  | held {after : World} {store : StoreId} {slot : Slot}
      (first : scope.stores.find? (world.Answers name) = some store)
      (found : (world.store store).slot? name = some slot) (held : slot.immutable = true)
      (nothing : world.ModifiesOnly noSlot after) :
      RefusesWrite world scope name (.lookup (.immutableFunction name)) after
  | materialized {after : World} {store : StoreId} {function : Function}
      {receiver : Option Receiver} {callable : CallableId}
      (materializes : world.Materializes scope name after store function receiver callable) :
      RefusesWrite world scope name (.lookup (.immutableFunction name)) after
  /-- The instance that the function would be bound to is gone. -/
  | dropped {after : World} {store : StoreId} {function : Function} {receiver : Receiver}
      (first : scope.stores.find? (world.Answers name) = some store)
      (offered : world.offer? store name = some (function, some receiver))
      (gone : (world.object receiver.owner).alive = false)
      (nothing : world.ModifiesOnly noSlot after) :
      RefusesWrite world scope name (.instanceDropped function.label) after

theorem RefusesWrite.hits {world after : World} {scope : Scope} {name : String} {fault : Fault}
    {store : StoreId} (refuses : world.RefusesWrite scope name fault after)
    (first : scope.stores.find? (world.Answers name) = some store) : fault.isMiss name = false := by
  cases refuses with
  | unknown silent => rw [silent] at first; cases first
  | held | materialized | dropped => rfl

/-- The state after a store turned the function that it stands for into its slot. -/
theorem materializes_install {world here : World} {scope : Scope} {name : String} {store : StoreId}
    {function : Function} {receiver : Option Receiver}
    (first : scope.stores.find? (world.Answers name) = some store)
    (missing : (world.store store).slot? name = none)
    (offered : world.offer? store name = some (function, receiver))
    (reached : world.ModifiesOnly noSlot here) :
    world.Materializes scope name (here.install store function receiver) store function receiver
      here.callables.next := by
  obtain ⟨_, rfl⟩ := World.offer?_declared offered
  have free : (here.store store).declares function.name = false := by
    simp [Store.declares, reached.slots store function.name id, missing]
  have inside := inside_of_offer? ((reached.offer? store function.name).trans offered)
  exact ⟨first, missing, offered, reached.weaken.trans (.install here store function receiver),
    declares_install receiver inside free, Heap.get?_push_next _ _⟩

section

variable {world : World} {scope : Scope} {name : String}
  (resolves : world.ResolvesToFunction scope name)
include resolves

/-- Where the probes have come to the store of a function, the write is refused there. -/
theorem ResolvesToFunction.assigns {here : World} (alive : world.alive = true) {store : StoreId}
    (first : scope.stores.find? (world.Answers name) = some store)
    (reached : world.ModifiesOnly noSlot here) (perform : Perform) (value : Value) :
    ∃ fault after, assignStore perform store name value here = (.failed fault, after) ∧
      world.RefusesWrite scope name fault after := by
  have answers := List.find?_some first
  have plain := resolves store first
  have same := reached.slots store name id
  cases found : (world.store store).slot? name with
  | some slot =>
      rw [found] at plain
      exact ⟨_, _, assignStore_of_immutable perform value (same.trans found) plain,
        .held first found plain reached⟩
  | none =>
      rw [found] at plain
      unfold Answers at answers
      rw [found, Option.isSome_none, Bool.false_or, Option.isSome_iff_exists] at answers
      obtain ⟨⟨function, receiver⟩, offered⟩ := answers
      have assigns := assignStore_of_unannotated perform (reached.alive.trans alive)
        (same.trans found) ((reached.offer? store name).trans offered)
        (plain function receiver offered) value
      have asked := reached.trans (.askedFor here store name)
      split at assigns
      · exact ⟨_, _, assigns, .materialized (materializes_install first found offered asked)⟩
      · next gone =>
          cases receiver with
          | none => exact absurd rfl gone
          | some receiver =>
              rw [Option.all_some, reached.object, Bool.not_eq_true] at gone
              exact ⟨_, _, assigns, .dropped first offered gone asked⟩

theorem ResolvesToFunction.refuses (alive : world.alive = true) (value : Value) (budget : Nat) :
    ∃ fault after, performUpTo (budget + 1) (.assign scope name value) world =
        (.failed fault, after) ∧ world.RefusesWrite scope name fault after := by
  obtain ⟨here, reached, _, looks⟩ := comes_to_first
    (assignScope_tries (performUpTo budget) name value) (assignStore_missesUnknown _ name value) alive
    scope fun store first here reached _ fault after ends => by
      obtain ⟨raised, last, assigns, refuses⟩ :=
        resolves.assigns alive first reached (performUpTo budget) value
      rw [assigns] at ends
      cases ends
      exact refuses.hits first
  unfold lookAtFirst at looks
  cases first : scope.stores.find? (world.Answers name) with
  | none =>
      rw [first] at looks
      exact ⟨_, _, looks, .unknown first reached⟩
  | some store =>
      rw [first] at looks
      obtain ⟨fault, after, assigns, refuses⟩ :=
        resolves.assigns alive first reached (performUpTo budget) value
      exact ⟨fault, after, looks.trans assigns, refuses⟩

end

/-! ## Declaring -/

end World

mutual

/-- The store to which a scope adds what is declared through it. -/
def Scope.declaresIn? : Scope → Option StoreId
  | .store id => some id
  | .composite sources => Scope.firstDeclaresIn? sources

/-- The store to which the first of several scopes adds what is declared through it. -/
def Scope.firstDeclaresIn? : List Scope → Option StoreId
  | [] => none
  | source :: _ => source.declaresIn?

end

mutual

/-- The store for new declarations is the first that lookups try. -/
theorem Scope.stores_of_declaresIn? {store : StoreId} : (scope : Scope) →
    scope.declaresIn? = some store → ∃ rest, scope.stores = store :: rest
  | .store id, target => by
      rw [declaresIn?] at target
      obtain rfl : id = store := Option.some.inj target
      exact ⟨[], rfl⟩
  | .composite sources, target => by
      rw [declaresIn?] at target
      exact storesOf_of_declaresIn? sources target

theorem Scope.storesOf_of_declaresIn? {store : StoreId} : (sources : List Scope) →
    Scope.firstDeclaresIn? sources = some store → ∃ rest, Scope.storesOf sources = store :: rest
  | [], target => by
      rw [firstDeclaresIn?] at target
      cases target
  | source :: others, target => by
      rw [firstDeclaresIn?] at target
      obtain ⟨rest, stores⟩ := stores_of_declaresIn? source target
      exact ⟨rest ++ Scope.storesOf others, by rw [Scope.storesOf, stores]; rfl⟩

end

mutual

/-- A declaration through a scope is one in its store for new declarations. -/
theorem declare_eq (name : String) (slot : Slot) : (scope : Scope) →
    declare scope name slot =
      scope.declaresIn?.elim (throw (.lookup (.noSources name))) fun id => insertSlot id name slot
  | .store id => by
      rw [declare, Scope.declaresIn?]
      rfl
  | .composite sources => by
      rw [declare, Scope.declaresIn?]
      exact declareFirst_eq name slot sources

theorem declareFirst_eq (name : String) (slot : Slot) : (sources : List Scope) →
    declareFirst sources name slot = (Scope.firstDeclaresIn? sources).elim
      (throw (.lookup (.noSources name))) fun id => insertSlot id name slot
  | [] => by
      rw [declareFirst, Scope.firstDeclaresIn?]
      rfl
  | source :: rest => by
      rw [declareFirst, Scope.firstDeclaresIn?]
      exact declare_eq name slot source

end

namespace World

/-- A declaration that succeeds adds the slot to the first store of the scope, which had none of
that name. -/
theorem declare_done {name : String} {slot : Slot} {world after : World} {scope : Scope}
    (declared : declare scope name slot world = (.done (), after)) :
    ∃ store rest, scope.stores = store :: rest ∧ (world.store store).declares name = false ∧
      after = world.withStore store (·.insert name slot) := by
  rw [declare_eq] at declared
  cases target : scope.declaresIn? with
  | none =>
      rw [target] at declared
      cases declared
  | some store =>
      rw [target, Option.elim_some] at declared
      obtain ⟨rest, stores⟩ := scope.stores_of_declaresIn? target
      cases taken : (world.store store).declares name with
      | true =>
          rw [insertSlot_of_declared slot taken] at declared
          cases declared
      | false =>
          rw [insertSlot_of_free slot taken] at declared
          cases declared
          exact ⟨store, rest, stores, taken, rfl⟩

/-- After a declaration a name resolves to the new variable. -/
theorem declare_resolves {world after : World} {scope : Scope} {name : String} {type : ValueType}
    (inside : ∀ store ∈ scope.stores, store.index < world.stores.size)
    (declared : declare scope name (.unassigned type) world = (.done (), after)) :
    ∃ store, (world.store store).declares name = false ∧
      world.ModifiesOnly (theSlot store name) after ∧
      after.ResolvesToVariable scope name store (.unassigned type) := by
  obtain ⟨store, rest, stores, free, rfl⟩ := declare_done declared
  have there : ((world.withStore store (·.insert name (.unassigned type))).store store).slot? name =
      some (.unassigned type) := by
    rw [store_withStore, if_pos ⟨rfl, inside store (by rw [stores]; exact List.mem_cons_self)⟩]
    exact Store.slot?_insert_same _ _ free
  refine ⟨store, free, .insert world store name _, ⟨?_, there, rfl, rfl, none, rfl⟩⟩
  rw [stores, List.find?_cons_of_pos]
  unfold Answers
  rw [there]
  rfl

/-! ## Reading what was written -/

/-- While the assembly is there, what is written to a variable through a scope is read back from
the slot in which it was stored, and no other slot has changed.  A write that is refused changes no
slot; the most it leaves behind is the slot of a function, turned into one by the attempt.  What
is declared through a scope is what the name then resolves to, as yet without a value. -/
theorem written_is_read {world : World} (alive : world.alive = true) (scope : Scope)
    (name : String) :
    (∀ store slot, world.ResolvesToVariable scope name store slot → ∀ value budget,
      ∃ outcome after,
        performUpTo (budget + 1) (.assign scope name value) world = (outcome, after) ∧
        world.WritesVariable store name slot value outcome after ∧
        (outcome = .done () → scope.stores.find? (after.Answers name) = some store ∧
          ∀ budget, ∃ later, after.ModifiesOnly noSlot later ∧
            performUpTo (budget + 1) (.read scope name) after =
              (.done (slot.type.widen value), later))) ∧
    (world.ResolvesToFunction scope name → ∀ value budget, ∃ fault after,
      performUpTo (budget + 1) (.assign scope name value) world = (.failed fault, after) ∧
      world.RefusesWrite scope name fault after) ∧
    ((∀ store ∈ scope.stores, store.index < world.stores.size) → ∀ type after,
      declare scope name (.unassigned type) world = (.done (), after) → ∃ store,
        (world.store store).declares name = false ∧
        world.ModifiesOnly (theSlot store name) after ∧
        after.ResolvesToVariable scope name store (.unassigned type) ∧
        ∀ budget, ∃ later, after.ModifiesOnly noSlot later ∧
          performUpTo (budget + 1) (.read scope name) after =
            (.failed (.lookup (.notAssigned name)), later)) := by
  refine ⟨fun store slot resolves value budget => ?_, fun resolves value budget =>
    resolves.refuses alive value budget, fun inside type after declared => ?_⟩
  · obtain ⟨outcome, after, assigns, writes⟩ := resolves.writes alive value budget
    refine ⟨outcome, after, assigns, writes, fun succeeds => ?_⟩
    subst succeeds
    exact writes.read_back resolves alive
  · obtain ⟨store, free, only, resolves⟩ := declare_resolves inside declared
    exact ⟨store, free, only, resolves, fun budget =>
      read_kept (only.alive.trans alive) scope budget resolves.first resolves.found rfl rfl⟩

/-- A class with a field and a function. -/
def gaugeSpecs : List ClassSpec :=
  [bareClass "Gauge" none [bareField "level" none] [bareFunction "reset" (.null)]]

/-- The state after an instance of the class was created and looked at. -/
def gaugeOpened : World := sampleOpened gaugeSpecs ⟨0⟩ ⟨0, .global, .all⟩

/-- Its scope; what is declared there goes to its local variables. -/
def gaugeScope : Scope := sampleScope gaugeSpecs ⟨0⟩ ⟨0, .global, .all⟩

theorem written_is_read_gauge :
    (∃ after later,
      performUpTo 9 (.assign gaugeScope "level" (.int 5)) gaugeOpened = (.done (), after) ∧
      performUpTo 9 (.read gaugeScope "level") after = (.done (.int 5), later)) ∧
    (∃ fault after,
      performUpTo 9 (.assign gaugeScope "reset" (.int 5)) gaugeOpened = (.failed fault, after) ∧
      gaugeOpened.RefusesWrite gaugeScope "reset" fault after) ∧
    ∃ store after,
      declare gaugeScope "limit" (.unassigned .int) gaugeOpened = (.done (), after) ∧
      after.ResolvesToVariable gaugeScope "limit" store (.unassigned .int) := by
  have alive : gaugeOpened.alive = true := by decide +kernel
  refine ⟨?_, ?_, ?_⟩
  · have resolves : gaugeOpened.ResolvesToVariable gaugeScope "level" ⟨3⟩ (.unassigned .any) :=
      ⟨by decide +kernel, by decide +kernel, rfl, rfl, none, rfl⟩
    obtain ⟨outcome, after, assigns, writes, reads⟩ :=
      (written_is_read alive gaugeScope "level").1 ⟨3⟩ (.unassigned .any) resolves (.int 5) 8
    cases writes with
    | refused rejected =>
        have accepted : gaugeOpened.accepts .any (.int 5) = true := rfl
        cases accepted.symm.trans rejected
    | stored =>
        obtain ⟨later, _, read⟩ := (reads rfl).2 8
        exact ⟨after, later, assigns, read⟩
  · refine (written_is_read alive gaugeScope "reset").2.1 ?_ (.int 5) 8
    have first : gaugeScope.stores.find? (gaugeOpened.Answers "reset") = some ⟨3⟩ := by
      decide +kernel
    have missing : (gaugeOpened.store ⟨3⟩).slot? "reset" = none := by decide +kernel
    intro store found
    obtain rfl : (⟨3⟩ : StoreId) = store := Option.some.inj (first.symm.trans found)
    rw [missing]
    exact fun function receiver offered =>
      (unannotated_of_check (by decide +kernel) "reset").functions function
        (World.offer?_declared offered).1 (World.offer?_declared offered).2
  · have ends : (declare gaugeScope "limit" (.unassigned .int) gaugeOpened).1.result? = some () := by
      decide +kernel
    have declared := done_of_result? ends
    obtain ⟨store, _, _, resolves, _⟩ := (written_is_read alive gaugeScope "limit").2.2
      (by decide +kernel) .int _ declared
    exact ⟨store, _, declared, resolves⟩

end World

end ScriptObjects

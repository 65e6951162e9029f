import ScriptObjects.Proofs.TwoStates

/-!
# Levels and tiers are isolated

A scope of an instance sees the stores of some levels and tiers and of some tiers of the
roots.  What the other stores hold does not matter to it: in two states that differ only
there, a lookup gives the same result, goes on to states that again differ only there, and
touches none of them.

The stores themselves are apart as well: a function that was turned into a slot has the
tier of its store, and a store of local members has functions of its own class only.
-/

namespace ScriptObjects

set_option autoImplicit false

open Exec

/-! ## Hidden stores -/

/-- Whether a viewpoint on an instance hides the stores of a home: the local members of other
levels, and its own unless it looks for them; the internal members where its tier does not admit
them; and the variables of the assembly at tiers above its own. -/
def Viewpoint.hides (view : Viewpoint) (id : InstanceId) : StoreHome → Bool
  | .level owner place _ .localOnly =>
      owner = id && !(place = view.level && view.access = .localOnly && view.mode ≠ .base)
  | .level owner _ _ .internal => owner = id && !view.access.admits .internal
  | .level _ _ _ .global | .free _ => false
  | .root tier => !view.access.admits tier

/-- The stores that a viewpoint on an instance hides. -/
def World.Hidden (world : World) (id : InstanceId) (view : Viewpoint) (store : StoreId) : Prop :=
  view.hides id (world.store store).home = true

/-! ## Scopes in two states -/

mutual

/-- The stores of a scope, in the order in which they are tried. -/
def Scope.stores : Scope → List StoreId
  | .store id => [id]
  | .composite sources => Scope.storesOf sources

/-- The stores of several scopes, in the order in which they are tried. -/
def Scope.storesOf : List Scope → List StoreId
  | [] => []
  | source :: rest => source.stores ++ Scope.storesOf rest

end

namespace World

/-- A name resolves to a script variable without annotations, to a function without annotations,
or to nothing: the first store of the scope that answers does so without running a body. -/
def ResolvesPlainly (world : World) (scope : Scope) (name : String) : Prop :=
  ∀ store, scope.stores.find? (world.Answers name) = some store → world.AnswersPlainly name store

/-- A store that does not answer has no slot of the name and stands for nothing. -/
theorem answers_eq_false {world : World} {name : String} {store : StoreId}
    (silent : world.Answers name store = false) :
    (world.store store).slot? name = none ∧ world.offer? store name = none := by
  unfold Answers at silent
  rwa [Bool.or_eq_false_iff, Option.isSome_eq_false_iff, Option.isSome_eq_false_iff,
    Option.isNone_iff_eq_none, Option.isNone_iff_eq_none] at silent

theorem answersPlainly_of_silent {world : World} {name : String} {store : StoreId}
    (silent : world.Answers name store = false) : world.AnswersPlainly name store := by
  obtain ⟨missing, nothing⟩ := answers_eq_false silent
  unfold AnswersPlainly
  rw [missing, nothing]
  exact fun _ _ none => nomatch none

end World

/-- A lookup through scopes tries their stores one after another. -/
structure TriesStores {α : Type} (name : String) (atStore : StoreId → Exec α)
    (atScope : Scope → Exec α) (among : List Scope → Exec α) : Prop where
  store : ∀ id, atScope (.store id) = atStore id
  composite : ∀ sources, atScope (.composite sources) = among sources
  nil : among [] = throw (.lookup (.notDeclared name))
  cons : ∀ source rest, among (source :: rest) = orElseMissing name (atScope source) (among rest)

theorem readScope_tries (perform : Perform) (name : String) :
    TriesStores name (readStore perform · name) (readScope perform name)
      (readSources perform name) := by
  refine ⟨fun _ => ?_, fun _ => ?_, ?_, fun _ _ => ?_⟩
  · rw [readScope]
  · rw [readScope]
  · rw [readSources]
  · rw [readSources]

theorem assignScope_tries (perform : Perform) (name : String) (value : Value) :
    TriesStores name (assignStore perform · name value) (assignScope perform name value)
      (assignSources perform name value) := by
  refine ⟨fun _ => ?_, fun _ => ?_, ?_, fun _ _ => ?_⟩
  · rw [assignScope]
  · rw [assignScope]
  · rw [assignSources]
  · rw [assignSources]

namespace TriesStores

variable {α : Type} {hidden : StoreId → Prop} {first second : World} {name : String}
  {atStore : StoreId → Exec α} {atScope : Scope → Exec α} {among : List Scope → Exec α}

mutual

/-- A lookup that does the same at the stores of a scope does the same at the scope. -/
theorem looksUp (tries : TriesStores name atStore atScope among)
    (stores : ∀ id, ¬ hidden id → first.AnswersPlainly name id →
      LooksUp hidden name (atStore id) first second (first.Answers name id)) :
    (scope : Scope) → (∀ store ∈ scope.stores, ¬ hidden store) →
      first.ResolvesPlainly scope name →
      LooksUp hidden name (atScope scope) first second (scope.stores.any (first.Answers name))
  | .store id, seen, plain => by
      rw [tries.store, Scope.stores, List.any_cons, List.any_nil, Bool.or_false]
      refine stores id (seen id (by simp [Scope.stores])) ?_
      cases answers : first.Answers name id with
      | false => exact World.answersPlainly_of_silent answers
      | true => exact plain id (by simp [Scope.stores, answers])
  | .composite sources, seen, plain => by
      rw [tries.composite]
      exact looksUp_among tries stores sources seen plain

theorem looksUp_among (tries : TriesStores name atStore atScope among)
    (stores : ∀ id, ¬ hidden id → first.AnswersPlainly name id →
      LooksUp hidden name (atStore id) first second (first.Answers name id)) :
    (sources : List Scope) → (∀ store ∈ Scope.storesOf sources, ¬ hidden store) →
      first.ResolvesPlainly (.composite sources) name →
      LooksUp hidden name (among sources) first second
        ((Scope.storesOf sources).any (first.Answers name))
  | [], _, _ => by
      rw [tries.nil]
      exact .misses rfl rfl
  | source :: rest, seen, plain => by
      have parts : (Scope.composite (source :: rest)).stores = source.stores ++ Scope.storesOf rest :=
        rfl
      rw [tries.cons, Scope.storesOf, List.any_append]
      refine .orElseMissing (looksUp tries stores source
        (fun store member => seen store (List.mem_append_left _ member)) fun store found => ?_)
        fun silent => looksUp_among tries stores rest
          (fun store member => seen store (List.mem_append_right _ member)) fun store found => ?_
      · refine plain store ?_
        rw [parts, List.find?_append, found, Option.some_or]
      · refine plain store ?_
        rw [parts, List.find?_append, List.find?_eq_none.mpr, Option.none_or]
        · exact found
        · simpa using silent

end

end TriesStores

/-! ## Questions in two states -/

/-- What a host reference resolves to has nothing to do with stores. -/
theorem resolveReference_storeless (id : ReferenceId) (world : World) :
    ∃ outcome references, ∀ stores, resolveReference id { world with stores := stores } =
      (outcome, { world with stores := stores, references := references }) := by
  unfold resolveReference
  cases bound : (world.references.get id).bound with
  | some host =>
      exact ⟨.done host, world.references, fun stores => by
        simp only [get_bind_apply, bound, pure_apply]⟩
  | none =>
      cases fallback : (world.references.get id).owner.bind fun owner =>
          if (world.object owner).alive then (world.object owner).host else none with
      | none =>
          refine ⟨.failed (.unresolvedReference (world.references.get id).className),
            world.references, fun stores => ?_⟩
          have same : ((world.references.get id).owner.bind fun owner =>
              if (World.object { world with stores := stores } owner).alive then
                (World.object { world with stores := stores } owner).host else none) = none :=
            fallback
          simp only [get_bind_apply, bound, same, throw_apply]
      | some host =>
          have same : ∀ stores, ((world.references.get id).owner.bind fun owner =>
              if (World.object { world with stores := stores } owner).alive then
                (World.object { world with stores := stores } owner).host else none) = some host :=
            fun _ => fallback
          cases fits : (world.references.get id).described.all
              (· = (world.hosts.get host).type) with
          | true =>
              refine ⟨.done host, (world.bindReference id host).references, fun stores => ?_⟩
              simp only [get_bind_apply, bound, same, fits, if_true]
              rfl
          | false =>
              refine ⟨.failed (.unresolvedReference (world.references.get id).className),
                world.references, fun stores => ?_⟩
              simp only [get_bind_apply, bound, same, fits, Bool.false_eq_true, if_false, throw_apply]

variable {hidden : StoreId → Prop} {first second : World}

mutual

theorem isDeclared_beside (beside : World.Beside hidden first second) (name : String) :
    (scope : Scope) → (∀ store ∈ scope.stores, ¬ hidden store) →
    second.isDeclared name scope = first.isDeclared name scope
  | .store id, seen => by
      rw [World.isDeclared, World.isDeclared, beside.visible id (seen id (by simp [Scope.stores]))]
  | .composite sources, seen => by
      rw [World.isDeclared, World.isDeclared]
      exact isDeclaredInAny_beside beside name sources seen

theorem isDeclaredInAny_beside (beside : World.Beside hidden first second) (name : String) :
    (sources : List Scope) → (∀ store ∈ Scope.storesOf sources, ¬ hidden store) →
    second.isDeclaredInAny name sources = first.isDeclaredInAny name sources
  | [], _ => rfl
  | source :: rest, seen => by
      rw [World.isDeclaredInAny, World.isDeclaredInAny,
        isDeclared_beside beside name source
          fun store member => seen store (List.mem_append_left _ member),
        isDeclaredInAny_beside beside name rest
          fun store member => seen store (List.mem_append_right _ member)]

end

/-- Whether a run gave a result, where it came to an end. -/
def Outcome.succeeds {α : Type} : Outcome α → Outcome Bool
  | .done _ => .done true
  | .failed _ => .done false
  | .exhausted => .exhausted

/-- A slot backed by a host object has a value if its reference resolves. -/
theorem isSlotAssigned_of_host {world after : World} {id : StoreId} {name : String} {slot : Slot}
    {accessor : Accessor} {reference : ReferenceId} {outcome : Outcome HostId}
    (found : (world.store id).slot? name = some slot)
    (content : slot.content = .host accessor reference)
    (resolves : resolveReference reference world = (outcome, after)) :
    isSlotAssigned id name world = (outcome.succeeds, after) := by
  simp only [isSlotAssigned, get_bind_apply, found, content]
  cases outcome with
  | done host =>
      have tried : attempt (resolveReference reference) world = (.done (.ok host), after) := by
        simp only [attempt, resolves]
      rw [bind_of_done _ tried]
      rfl
  | failed fault =>
      have tried : attempt (resolveReference reference) world = (.done (.error fault), after) := by
        simp only [attempt, resolves]
      rw [bind_of_done _ tried]
      rfl
  | exhausted =>
      have tried : attempt (resolveReference reference) world = (.exhausted, after) := by
        simp only [attempt, resolves]
      rw [bind_of_exhausted _ tried]
      rfl

/-- Whether a slot has a value is asked of the slot and of what its host reference resolves to. -/
theorem isSlotAssigned_isolated (beside : World.Beside hidden first second) (name : String)
    {id : StoreId} (seen : ¬ hidden id) : IsolatedAt hidden (isSlotAssigned id name) first second := by
  have same := congrArg (Store.slot? · name) (beside.visible id seen)
  unfold isSlotAssigned
  cases found : (first.store id).slot? name with
  | none =>
      refine .of_same beside (.done false) ?_ ?_
      all_goals simp only [get_bind_apply, found, same.trans found, pure_apply]
  | some slot =>
      cases content : slot.content with
      | script value =>
          refine .of_same beside (.done value.isSome) ?_ ?_
          all_goals simp only [get_bind_apply, found, same.trans found, content, pure_apply]
      | host accessor reference =>
          obtain ⟨outcome, references, resolves⟩ := resolveReference_storeless reference first
          have one := resolves first.stores
          have two := resolves second.stores
          rw [← beside.rest, show ({ first with stores := second.stores, references := references } :
            World) = { second with references := references } by rw [beside.rest]] at two
          exact .of_references beside _ references (isSlotAssigned_of_host found content one)
            (isSlotAssigned_of_host (same.trans found) content two)

mutual

theorem isAssigned_isolated (beside : World.Beside hidden first second) (name : String) :
    (scope : Scope) → (∀ store ∈ scope.stores, ¬ hidden store) →
    IsolatedAt hidden (isAssigned name scope) first second
  | .store id, seen => by
      rw [isAssigned]
      exact isSlotAssigned_isolated beside name (seen id (by simp [Scope.stores]))
  | .composite sources, seen => by
      rw [isAssigned]
      exact isAssignedInFirst_isolated beside name sources seen

theorem isAssignedInFirst_isolated (beside : World.Beside hidden first second) (name : String) :
    (sources : List Scope) → (∀ store ∈ Scope.storesOf sources, ¬ hidden store) →
    IsolatedAt hidden (isAssignedInFirst name sources) first second
  | [], _ => .of_same beside (.done false) rfl rfl
  | source :: rest, seen => by
      have here : ∀ store ∈ source.stores, ¬ hidden store :=
        fun store member => seen store (List.mem_append_left _ member)
      have same := isDeclared_beside beside name source here
      rw [isAssignedInFirst]
      cases declared : first.isDeclared name source with
      | true =>
          refine .of_branch (isAssigned_isolated beside name source here) ?_ ?_
          all_goals simp only [get_bind_apply, declared, same.trans declared, if_true]
      | false =>
          refine .of_branch (isAssignedInFirst_isolated beside name rest fun store member =>
            seen store (List.mem_append_right _ member)) ?_ ?_
          all_goals simp only [get_bind_apply, declared, same.trans declared, Bool.false_eq_true,
            if_false]

end

/-! ## The stores of a scope of an instance -/

/-- The stores that a scope of an instance may look at. -/
inductive Viewpoint.Sees (view : Viewpoint) (levels : List Level) : StoreId → Prop
  | global {place : Nat} {level : Level} (sits : levels[place]? = some level) :
      Sees view levels level.globals
  | internal {place : Nat} {level : Level} (sits : levels[place]? = some level)
      (admitted : view.access.admits .internal = true) : Sees view levels level.internals
  | own {level : Level} (sits : levels[view.level]? = some level)
      (access : view.access = .localOnly) (mode : view.mode ≠ .base) :
      Sees view levels level.locals
  | root {tier : Access} (admitted : view.access.admits tier = true) :
      Sees view levels (World.rootStore tier)

theorem storesOf_append (first second : List Scope) :
    Scope.storesOf (first ++ second) = Scope.storesOf first ++ Scope.storesOf second := by
  induction first with
  | nil => rfl
  | cons source rest ih =>
      rw [List.cons_append, Scope.storesOf, Scope.storesOf, ih, List.append_assoc]

theorem mem_stores_rootScope {access : Access} {store : StoreId}
    (member : store ∈ (rootScope access).stores) :
    ∃ tier, access.admits tier = true ∧ store = World.rootStore tier := by
  have tiers : ∀ tiers : List Access,
      Scope.storesOf (tiers.map fun tier => .store (World.rootStore tier)) =
        tiers.map World.rootStore := by
    intro tiers
    induction tiers with
    | nil => rfl
    | cons head rest ih => rw [List.map_cons, Scope.storesOf, Scope.stores, ih]; rfl
  rw [rootScope, Scope.stores, tiers] at member
  obtain ⟨tier, seen, rfl⟩ := List.mem_map.mp member
  exact ⟨tier, (List.mem_filter.mp seen).2, rfl⟩

section

variable {view : Viewpoint} {levels : List Level} {store : StoreId}

theorem sees_levelSources {place : Nat} {level : Level} (sits : levels[place]? = some level)
    (member : store ∈ Scope.storesOf (levelSources view.access level)) :
    view.Sees levels store := by
  unfold levelSources at member
  split at member
  · next admitted =>
      obtain rfl | rfl : store = level.internals ∨ store = level.globals := by
        simpa [Scope.storesOf, Scope.stores] using member
      · exact .internal sits admitted
      · exact .global sits
  · obtain rfl : store = level.globals := by simpa [Scope.storesOf, Scope.stores] using member
    exact .global sits

theorem sees_levels (members : List Level) (inside : ∀ level ∈ members, level ∈ levels)
    (member : store ∈ Scope.storesOf (members.flatMap (levelSources view.access))) :
    view.Sees levels store := by
  induction members with
  | nil => cases member
  | cons level rest ih =>
      rw [List.flatMap_cons, storesOf_append, List.mem_append] at member
      obtain here | later := member
      · obtain ⟨place, sits⟩ := List.getElem?_of_mem (inside level List.mem_cons_self)
        exact sees_levelSources sits here
      · exact ih (fun other there => inside other (List.mem_cons_of_mem _ there)) later

theorem sees_chainSources (member : store ∈ Scope.storesOf (chainSources levels view)) :
    view.Sees levels store := by
  have whole : ∀ mode, view.mode = mode → mode ≠ .base →
      store ∈ Scope.storesOf ((if view.access = .localOnly then
          (levels[view.level]?.map fun level => Scope.store level.locals).toList else []) ++
        levels.flatMap (levelSources view.access)) → view.Sees levels store := by
    intro mode same other member
    rw [storesOf_append, List.mem_append] at member
    obtain own | below := member
    · split at own
      · next access =>
          cases sits : levels[view.level]? with
          | none =>
              rw [sits] at own
              cases own
          | some level =>
              rw [sits] at own
              obtain rfl : store = level.locals := by
                simpa [Scope.storesOf, Scope.stores] using own
              exact .own sits access (same ▸ other)
      · cases own
    · exact sees_levels levels (fun _ there => there) below
  unfold chainSources at member
  cases mode : view.mode with
  | base =>
      rw [mode] at member
      exact sees_levels _ (fun _ there => List.mem_of_mem_drop there) member
  | declarations =>
      rw [mode] at member
      exact whole _ mode (by decide) member
  | all =>
      rw [mode] at member
      exact whole _ mode (by decide) member

theorem sees_compositeScope {rooted : Bool}
    (member : store ∈ (compositeScope levels view rooted).stores) : view.Sees levels store := by
  rw [compositeScope, Scope.stores, storesOf_append, List.mem_append] at member
  obtain chain | roots := member
  · exact sees_chainSources chain
  · cases rooted with
    | false => cases roots
    | true =>
        rw [if_pos rfl, Scope.storesOf, Scope.storesOf, List.append_nil] at roots
        obtain ⟨tier, admitted, rfl⟩ := mem_stores_rootScope roots
        exact .root admitted

end

/-- A scope that was opened on an instance looks only at stores that its viewpoint sees. -/
theorem sees_opened {world opened : World} {id : InstanceId} {view : Viewpoint} {scope : Scope}
    (opens : openScope? id view world = (.done (some scope), opened)) {store : StoreId}
    (member : store ∈ scope.stores) : view.Sees (world.object id).levels store := by
  cases sits : world.level? id view.level with
  | none =>
      rw [openScope?_of_none sits] at opens
      cases opens
  | some level =>
      by_cases mode : view.mode = .declarations
      · rw [openScope?_declarations sits mode] at opens
        cases opens
        obtain rfl : store = level.declarations view.access := by
          simpa [Scope.stores] using member
        cases access : view.access with
        | global => exact .global sits
        | internal => exact .internal sits (by rw [access]; rfl)
        | localOnly => exact .own sits access (by rw [mode]; decide)
      · rw [openScope?_composite sits mode] at opens
        cases opens
        exact sees_compositeScope member

/-- What a viewpoint sees is not hidden from it. -/
theorem Viewpoint.Sees.not_hidden {world : World} (laid : world.LaidOut) {id : InstanceId}
    {view : Viewpoint} {store : StoreId} (sees : view.Sees (world.object id).levels store) :
    ¬ world.Hidden id view store := by
  unfold World.Hidden
  cases sees with
  | @global place level sits =>
      have home := laid.stores id place level sits .global
      rw [show level.globals = level.declarations .global from rfl, home]
      simp [Viewpoint.hides]
  | @internal place level sits admitted =>
      have home := laid.stores id place level sits .internal
      rw [show level.internals = level.declarations .internal from rfl, home]
      simp [Viewpoint.hides, admitted]
  | @own level sits access mode =>
      have home := laid.stores id view.level level sits .localOnly
      rw [show level.locals = level.declarations .localOnly from rfl, home]
      simp [Viewpoint.hides, access, mode]
  | root admitted =>
      rw [laid.roots]
      simp [Viewpoint.hides, admitted]

namespace World

/-! ## Stores are apart -/

/-- A function belongs at a home: it has its tier, and among local members it is declared by the
class of the level. -/
def Belongs (world : World) (function : Function) : StoreHome → Prop
  | .free _ => False
  | .root tier => function.access = tier
  | .level _ _ cls tier => function.access = tier ∧
      (tier = .localOnly → function.owner = some (Owner.ofClass (world.cls cls).name))

/-- Every slot that holds a function for good holds one that belongs to its store. -/
def KeepsApart (world : World) : Prop :=
  ∀ store name slot, (world.store store).slot? name = some slot → slot.immutable = true →
    ∃ function receiver, world.HoldsFunction slot function receiver ∧
      world.Belongs function (world.store store).home

/-- What a store offers belongs to it. -/
theorem Registered.belongs_offer {world : World} (registered : world.Registered) {store : StoreId}
    {name : String} {function : Function} {receiver : Option Receiver}
    (offered : world.offer? store name = some (function, receiver)) :
    world.Belongs function (world.store store).home := by
  unfold offer? at offered
  cases home : (world.store store).home with
  | free attached =>
      rw [home] at offered
      cases offered
  | root tier =>
      rw [home] at offered
      obtain ⟨found, kept, same⟩ := Option.map_eq_some_iff.mp offered
      cases same
      have access : decide (function.access = tier) = true := (Option.filter_eq_some_iff.mp kept).2
      unfold Belongs
      exact of_decide_eq_true access
  | level owner place cls tier =>
      rw [home] at offered
      obtain ⟨found, kept, same⟩ := Option.map_eq_some_iff.mp offered
      cases same
      unfold levelFunction? at kept
      dsimp only at kept
      split at kept
      · obtain ⟨declared, _, access⟩ := mem_of_acceptedFunction? kept
        exact ⟨of_decide_eq_true access, fun _ => registered.owners cls function declared⟩
      · next inherited =>
          obtain ⟨_, _, there⟩ := List.exists_of_findSome?_eq_some kept
          obtain ⟨_, _, access⟩ := mem_of_acceptedFunction? there
          exact ⟨of_decide_eq_true access, fun own => absurd own inherited⟩

theorem Sound.keepsApart {world : World} (sound : world.Sound) : world.KeepsApart := by
  intro store name slot found held
  obtain ⟨function, receiver, holds, offered⟩ := sound.laid.functions store name slot found held
  exact ⟨function, receiver, holds, sound.registered.belongs_offer offered⟩

/-! ## Isolation -/

/-- Once the registry is complete and was validated, no lookup through a scope of an instance
depends on what its viewpoint hides or touches it, whatever a session did before: not whether a
name is declared or assigned, and neither reading nor writing a name that resolves without running
a body.  And in no state of any session does a store hold a function of another tier, or a store of
local members one of another class. -/
theorem scopes_isolated {defined start asked opened first second : World} {id : InstanceId}
    {view : Viewpoint} {scope : Scope} (reachable : Reachable defined)
    (valid : validate.run defined = (.ok (), start)) (between : Proceeds start asked)
    (opens : openScope? id view asked = (.done (some scope), opened))
    (since : Proceeds opened first) (beside : Beside (first.Hidden id view) first second)
    (name : String) :
    (second.isDeclared name scope = first.isDeclared name scope ∧
      IsolatedAt (first.Hidden id view) (isAssigned name scope) first second ∧
      (first.ResolvesPlainly scope name → ∀ budget,
        IsolatedAt (first.Hidden id view) (performUpTo budget (.read scope name)) first second ∧
        ∀ value, IsolatedAt (first.Hidden id view)
          (performUpTo budget (.assign scope name value)) first second)) ∧
    ∀ world, Reachable world → world.KeepsApart := by
  obtain ⟨alive, sound⟩ := reachable.sound
  obtain ⟨follows, bases⟩ := validate_ok sound.registered valid
  obtain ⟨sound, continues⟩ := follows.proceeds.sound_continues alive sound
  have alive := continues.alive.trans alive
  have opening := LeadsFreely.proceeds (openScope?_leads id view) asked
  rw [opens] at opening
  obtain ⟨asking, continues⟩ := between.sound_continues alive sound
  have alive := continues.alive.trans alive
  have bases := bases.later continues
  obtain ⟨sound, continues⟩ := (opening.trans since).sound_continues alive asking
  have alive := continues.alive.trans alive
  have bases := bases.later continues
  have seen : ∀ store ∈ scope.stores, ¬ first.Hidden id view store := by
    intro store member
    have sees := sees_opened opens member
    have levels : (first.object id).levels = (asked.object id).levels := by
      cases sits : asked.level? id view.level with
      | none =>
          rw [openScope?_of_none sits] at opens
          cases opens
      | some level => exact (continues.objects id (inside_of_level? sits)).2
    rw [← levels] at sees
    exact sees.not_hidden sound.laid
  refine ⟨⟨isDeclared_beside beside name scope seen, isAssigned_isolated beside name scope seen,
    fun plain budget => ?_⟩, fun world reachable => reachable.sound.2.keepsApart⟩
  cases budget with
  | zero => exact ⟨.of_same beside .exhausted rfl rfl, fun _ => .of_same beside .exhausted rfl rfl⟩
  | succ budget =>
      refine ⟨((readScope_tries (performUpTo budget) name).looksUp (fun store shown plain =>
          readStore_looksUp beside shown alive bases _ plain) scope seen plain).isolated beside,
        fun value => ?_⟩
      exact ((assignScope_tries (performUpTo budget) name value).looksUp (fun store shown plain =>
          assignStore_looksUp beside shown alive bases _ value plain) scope seen plain).isolated beside

/-- The internal members of the last class were tampered with: there is a variable of the name of a
field of its bases, which a scope that sees it would find first. -/
def hiddenTampered : World := hiddenBelow.withStore ⟨4⟩ (·.insert "y" (.unassigned .any))

theorem scopes_isolated_hidden :
    hiddenTampered.isDeclared "y" hiddenScope = hiddenBelow.isDeclared "y" hiddenScope ∧
    IsolatedAt (hiddenBelow.Hidden ⟨0⟩ ⟨0, .global, .all⟩)
      (performUpTo 9 (.read hiddenScope "y")) hiddenBelow hiddenTampered ∧
    IsolatedAt (hiddenBelow.Hidden ⟨0⟩ ⟨0, .global, .all⟩)
      (performUpTo 9 (.assign hiddenScope "y" (.int 5))) hiddenBelow hiddenTampered := by
  have hidden : hiddenBelow.Hidden ⟨0⟩ ⟨0, .global, .all⟩ ⟨4⟩ := by
    unfold World.Hidden
    decide +kernel
  have beside : Beside (hiddenBelow.Hidden ⟨0⟩ ⟨0, .global, .all⟩) hiddenBelow hiddenTampered := by
    refine ⟨rfl, Heap.size_modify .., fun store => ?_, fun store shown => ?_⟩
    · exact Heap.get_modify_of _ _ store _ Store.home fun _ => rfl
    · exact World.store_withStore_ne _ _ fun same => shown (same ▸ hidden)
  obtain ⟨⟨declared, _, resolved⟩, _⟩ := scopes_isolated hiddenViewing.reachable
    hiddenViewing.valid hiddenViewing.since hiddenViewing.opens hiddenViewing.later beside "y"
  have first : hiddenScope.stores.find? (hiddenBelow.Answers "y") = some ⟨9⟩ := by decide +kernel
  have slot : (hiddenBelow.store ⟨9⟩).slot? "y" =
      some { Slot.unassigned .any with content := .script (some (.int 3)) } := by
    decide +kernel
  have both := resolved ?_ 9
  · exact ⟨declared, both.1, both.2 (.int 5)⟩
  · intro store found
    rw [first] at found
    cases found
    unfold AnswersPlainly
    rw [slot]
    exact ⟨rfl, _, rfl⟩

end World

end ScriptObjects

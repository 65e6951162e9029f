import ScriptObjects.Proofs.DistinctNames
import ScriptObjects.Proofs.InstanceLevels
import ScriptObjects.Proofs.Writes

/-!
# Wider scopes see more

A scope that is opened at a more permissive tier, or in a wider mode, has all the stores of the
narrower one among its own, though in another place.  So nothing is declared in the narrower scope
that is not declared in the wider.  A lookup is another matter, since it runs bodies on its way.  It
misses a name exactly if no store answers to it, provided that a store that answers never reports
the name as missing itself.  Then what is missed in the wider scope is missed in the narrower, at
once as well as after the miss, which leaves every slot as it was.

A store that answers may well report the name as missing where the name is that of the hooks which
run when a slot is read, and an annotation is older than the base from which it has the hook.  Then
the hooks that run on the way decide.
-/

namespace ScriptObjects

set_option autoImplicit false

open Exec

/-! ## Inclusion of scopes -/

/-- All stores of a scope are among those of another. -/
def Scope.Within (inner outer : Scope) : Prop := ∀ store ∈ inner.stores, store ∈ outer.stores

theorem Scope.mem_storesOf {store : StoreId} {sources : List Scope} :
    store ∈ Scope.storesOf sources ↔ ∃ source ∈ sources, store ∈ source.stores := by
  induction sources with
  | nil => simp [Scope.storesOf]
  | cons source rest ih => simp [Scope.storesOf, ih]

/-- What a scope of an instance is while the assembly is there. -/
def World.scopeAt (world : World) (id : InstanceId) (level : Level) (view : Viewpoint) : Scope :=
  match view.mode with
  | .declarations => .store (level.declarations view.access)
  | .base | .all => compositeScope (world.object id).levels view true

theorem openScope?_alive {world : World} (alive : world.alive = true) {id : InstanceId}
    (view : Viewpoint) {level : Level} (sits : world.level? id view.level = some level) :
    (openScope? id view world).1 = .done (some (world.scopeAt id level view)) := by
  by_cases mode : view.mode = .declarations
  · rw [openScope?_declarations sits mode]
    unfold World.scopeAt
    rw [mode]
  · rw [openScope?_composite sits mode, alive, Bool.or_true]
    unfold World.scopeAt
    cases kind : view.mode with
    | declarations => exact absurd kind mode
    | base | all => rfl

section

variable {levels : List Level} {store : StoreId}

theorem mem_levelSources {access : Access} {level : Level} :
    store ∈ Scope.storesOf (levelSources access level) ↔
      store = level.globals ∨ access.admits .internal = true ∧ store = level.internals := by
  unfold levelSources
  split
  · next admits => simp [Scope.storesOf, Scope.stores, admits, or_comm]
  · next refuses => simp [Scope.storesOf, Scope.stores, refuses]

theorem mem_stores_of_level {access : Access} {place : Nat} {level : Level}
    (sits : levels[place]? = some level) (member : store ∈ Scope.storesOf (levelSources access level)) :
    store ∈ Scope.storesOf (levels.flatMap (levelSources access)) := by
  obtain ⟨source, along, inside⟩ := Scope.mem_storesOf.mp member
  exact Scope.mem_storesOf.mpr
    ⟨source, List.mem_flatMap.mpr ⟨level, List.mem_of_getElem? sits, along⟩, inside⟩

/-- A scope in the widest mode has every store that its viewpoint sees. -/
theorem mem_stores_of_sees {place : Nat} {access : Access}
    (sees : Viewpoint.Sees ⟨place, access, .all⟩ levels store) :
    store ∈ (compositeScope levels ⟨place, access, .all⟩ true).stores := by
  rw [compositeScope, Scope.stores, if_pos rfl, chainSources, storesOf_append, storesOf_append]
  refine List.mem_append.mpr ?_
  cases sees with
  | global sits =>
      exact .inl (List.mem_append_right _ (mem_stores_of_level sits (mem_levelSources.mpr (.inl rfl))))
  | internal sits admits =>
      exact .inl (List.mem_append_right _
        (mem_stores_of_level sits (mem_levelSources.mpr (.inr ⟨admits, rfl⟩))))
  | own sits own _ =>
      refine .inl (List.mem_append_left _ ?_)
      dsimp only at sits own ⊢
      rw [if_pos own, sits]
      exact List.mem_singleton_self _
  | root admits =>
      refine .inr (Scope.mem_storesOf.mpr ⟨_, List.mem_singleton_self _, ?_⟩)
      refine Scope.mem_storesOf.mpr ⟨_, List.mem_map_of_mem ?_, List.mem_singleton_self _⟩
      exact List.mem_filter.mpr ⟨by cases ‹Access› <;> decide, admits⟩

/-- What a viewpoint sees is seen from the same level at a more permissive tier in the widest
mode. -/
theorem Viewpoint.Sees.widen {place : Nat} {narrow wide : Access} {mode : ScopeMode}
    (admits : wide.admits narrow = true) (sees : Viewpoint.Sees ⟨place, narrow, mode⟩ levels store) :
    Viewpoint.Sees ⟨place, wide, .all⟩ levels store := by
  cases sees with
  | global sits => exact .global sits
  | internal sits admitted => exact .internal sits (Access.admits_trans admits admitted)
  | own sits own _ =>
      have most : wide = .localOnly := by
        dsimp only at own
        subst own
        cases wide <;> first | rfl | cases admits
      exact .own sits most nofun
  | root admitted => exact .root (Access.admits_trans admits admitted)

end

section

variable {world : World} {id : InstanceId} {place : Nat} {level : Level} {narrow wide : Access}
  (sits : world.level? id place = some level) (admits : wide.admits narrow = true)
include admits

theorem rootScope_within : (rootScope narrow).Within (world.scopeAt id level ⟨place, wide, .all⟩) := by
  intro store member
  obtain ⟨tier, admitted, rfl⟩ := mem_stores_rootScope member
  exact mem_stores_of_sees (.root (Access.admits_trans admits admitted))

include sits

/-- A scope of a level has no stores that the wider one has not. -/
theorem scopeAt_within (alive : world.alive = true) (mode : ScopeMode) :
    (world.scopeAt id level ⟨place, narrow, mode⟩).Within
      (world.scopeAt id level ⟨place, wide, .all⟩) := by
  intro store member
  have opens := openScope?_alive alive ⟨place, narrow, mode⟩ sits
  exact mem_stores_of_sees ((sees_opened (Prod.ext opens rfl) member).widen admits)

end

/-! ## What is declared -/

mutual

theorem isDeclared_iff {world : World} {name : String} : (scope : Scope) →
    (world.isDeclared name scope = true ↔
      ∃ store ∈ scope.stores, (world.store store).declares name = true)
  | .store id => by simp [World.isDeclared, Scope.stores]
  | .composite sources => by
      rw [World.isDeclared, Scope.stores]
      exact isDeclaredInAny_iff sources

theorem isDeclaredInAny_iff {world : World} {name : String} : (sources : List Scope) →
    (world.isDeclaredInAny name sources = true ↔
      ∃ store ∈ Scope.storesOf sources, (world.store store).declares name = true)
  | [] => by simp [World.isDeclaredInAny, Scope.storesOf]
  | source :: rest => by
      rw [World.isDeclaredInAny, Bool.or_eq_true, isDeclared_iff source, isDeclaredInAny_iff rest,
        Scope.storesOf]
      simp only [List.mem_append, or_and_right, exists_or]

end

theorem Scope.Within.isDeclared {world : World} {name : String} {inner outer : Scope}
    (within : inner.Within outer) (declared : world.isDeclared name inner = true) :
    world.isDeclared name outer = true := by
  obtain ⟨store, member, declares⟩ := (isDeclared_iff inner).mp declared
  exact (isDeclared_iff outer).mpr ⟨store, within store member, declares⟩

/-! ## What is missed -/

/-- A name is reported as missing only where nothing answers: it is not looked up for the hooks of
reads, or the registry was validated; and the marshaler does not report it. -/
structure World.Tells (world : World) (name : String) : Prop where
  trusts : world.Trusts name
  apart : MetaKey.onRead.methodName ≠ name ∨ world.Ready

theorem World.Tells.proceed {before after : World} {name : String} (tells : before.Tells name)
    (continues : before.Continues after) (proceeds : Proceeds before after) : after.Tells name :=
  ⟨tells.trusts.later continues, tells.apart.imp_right fun ready => ready.proceed proceeds⟩

section

variable {world : World} {name : String}

/-- A store that answers to a name never reports it as missing. -/
theorem World.Tells.hits (tells : world.Tells name) (budget : Nat) {store : StoreId}
    (answers : world.Answers name store = true) {fault : Fault} {after : World}
    (ends : readStore (performUpTo budget) store name world = (.failed fault, after)) :
    fault.isMiss name = false := by
  obtain ⟨trusts, notRead | ready⟩ := tells
  · exact readStore_discerns (performUpTo_discerns name budget) store name world (fun _ => answers)
      ⟨notRead, trusts⟩ fault after ends
  · exact (ready.readStore_probes trusts budget).hits store answers fault after ends

/-- A lookup through a scope misses the name exactly if no store answers to it, and then it leaves
every slot as it was. -/
theorem World.Tells.misses (tells : world.Tells name) (live : world.Live) (budget : Nat)
    (scope : Scope) :
    (¬ world.AnswersIn name scope → Misses name (performUpTo (budget + 1) (.read scope name)) world) ∧
    ∀ fault after, performUpTo (budget + 1) (.read scope name) world = (.failed fault, after) →
      fault.isMiss name = true →
        ¬ world.AnswersIn name scope ∧ world.ModifiesOnly World.noSlot after := by
  have hits : ∀ store, scope.stores.find? (world.Answers name) = some store → ∀ here,
      world.ModifiesOnly World.noSlot here → Proceeds world here → ∀ fault after,
        readStore (performUpTo budget) store name here = (.failed fault, after) →
          fault.isMiss name = false := fun store first here reached proceeds fault after ends =>
    (tells.proceed (proceeds.sound_continues live.1 live.2).2 proceeds).hits budget
      ((reached.answers id).trans (List.find?_some first)) ends
  obtain ⟨here, reached, proceeds, looks⟩ := World.comes_to_first
    (readScope_tries (performUpTo budget) name) (World.readStore_missesUnknown _ name) live.1 scope
    hits
  replace looks : performUpTo (budget + 1) (.read scope name) world = _ := looks
  unfold World.lookAtFirst at looks
  cases first : scope.stores.find? (world.Answers name) with
  | none =>
      rw [first] at looks
      have silent : ¬ world.AnswersIn name scope := fun ⟨store, member, answers⟩ =>
        List.find?_eq_none.mp first store member answers
      refine ⟨fun _ => ⟨_, here, looks, by simp [Fault.isMiss, LookupFault.notDeclared]⟩,
        fun fault after ends _ => ⟨silent, ?_⟩⟩
      rw [looks] at ends
      cases ends
      exact reached
  | some store =>
      rw [first, Option.elim_some] at looks
      refine ⟨fun silent => ?_, fun fault after ends miss => ?_⟩
      · exact absurd ⟨store, List.mem_of_find?_eq_some first, List.find?_some first⟩ silent
      · rw [hits store first here reached proceeds fault after (looks.symm.trans ends)] at miss
        cases miss

end

/-! ## Opening a scope and looking there -/

/-- Opens a scope of an instance and looks a name up in it. -/
def lookIn (perform : Perform) (id : InstanceId) (view : Viewpoint) (name : String) :
    Exec Value := do
  match ← openScope? id view with
  | some scope => perform (.read scope name)
  | none => throw (.instanceDropped name)

/-- Opens a scope of an instance and asks whether a name is declared in it. -/
def declaredIn (id : InstanceId) (view : Viewpoint) (name : String) : Exec Bool := do
  match ← openScope? id view with
  | some scope => return (← get).isDeclared name scope
  | none => return false

/-- Opening a scope changes no store, and nothing that a store stands for. -/
structure World.StoresAlike (first second : World) : Prop where
  stores : second.stores = first.stores
  offers : ∀ store name, second.offer? store name = first.offer? store name

theorem openScope?_storesAlike (id : InstanceId) (view : Viewpoint) (world : World) :
    world.StoresAlike (openScope? id view world).2 := by
  have marked : ∀ update : Instance → Instance, (∀ object, (update object).levels = object.levels) →
      world.StoresAlike (world.withObject id update) := by
    intro update keeps
    have hierarchy : World.SameHierarchy world (world.withObject id update) := .of_same rfl rfl rfl rfl
    refine ⟨rfl, fun store name => World.offer?_congr hierarchy rfl rfl ?_ name⟩
    exact fun _ _ _ _ _ => Heap.get_modify_of _ _ _ _ Instance.levels keeps
  cases sits : world.level? id view.level with
  | none =>
      rw [openScope?_of_none sits]
      exact ⟨rfl, fun _ _ => rfl⟩
  | some level =>
      by_cases mode : view.mode = .declarations
      · rw [openScope?_declarations sits mode]
        exact ⟨rfl, fun _ _ => rfl⟩
      · rw [openScope?_composite sits mode]
        split
        · exact marked _ fun _ => rfl
        · exact ⟨rfl, fun _ _ => rfl⟩

namespace World.StoresAlike

variable {first second : World} (alike : first.StoresAlike second)
include alike

theorem slot? (store : StoreId) (name : String) :
    (second.store store).slot? name = (first.store store).slot? name := by
  unfold World.store
  rw [alike.stores]

theorem answersIn {name : String} {scope : Scope} :
    second.AnswersIn name scope ↔ first.AnswersIn name scope := by
  unfold World.AnswersIn World.Answers
  simp only [alike.slot?, alike.offers]

theorem isDeclared (name : String) (scope : Scope) :
    second.isDeclared name scope = first.isDeclared name scope := by
  rw [Bool.eq_iff_iff, isDeclared_iff, isDeclared_iff]
  simp only [Store.declares, alike.slot?]

end World.StoresAlike

section

variable {world : World} (alive : world.alive = true) {id : InstanceId} (view : Viewpoint)
  {level : Level} (sits : world.level? id view.level = some level) (name : String)
include alive sits

theorem lookIn_eq (perform : Perform) : lookIn perform id view name world =
    perform (.read (world.scopeAt id level view) name) (openScope? id view world).2 := by
  have opens : openScope? id view world =
      (.done (some (world.scopeAt id level view)), (openScope? id view world).2) :=
    Prod.ext (openScope?_alive alive view sits) rfl
  exact bind_of_done _ opens

theorem declaredIn_eq : (declaredIn id view name world).1 =
    .done (world.isDeclared name (world.scopeAt id level view)) := by
  have opens : openScope? id view world =
      (.done (some (world.scopeAt id level view)), (openScope? id view world).2) :=
    Prod.ext (openScope?_alive alive view sits) rfl
  unfold declaredIn
  rw [bind_of_done _ opens, ← (openScope?_storesAlike id view world).isDeclared]
  rfl

end

section

variable {world : World} (live : world.Live) {name : String} (tells : world.Tells name)
  {id : InstanceId} (view : Viewpoint) {level : Level}
  (sits : world.level? id view.level = some level)
include live tells sits

theorem lookIn_misses (budget : Nat)
    (silent : ¬ world.AnswersIn name (world.scopeAt id level view)) :
    Misses name (lookIn (performUpTo (budget + 1)) id view name) world := by
  have proceeds := LeadsFreely.proceeds (openScope?_leads id view) world
  obtain ⟨sound, continues⟩ := proceeds.sound_continues live.1 live.2
  obtain ⟨fault, after, ends, miss⟩ :=
    ((tells.proceed continues proceeds).misses ⟨continues.alive.trans live.1, sound⟩ budget
      (world.scopeAt id level view)).1
      fun answers => silent ((openScope?_storesAlike id view world).answersIn.mp answers)
  exact ⟨fault, after, (lookIn_eq live.1 view sits name _).trans ends, miss⟩

/-- What is missed is not there, and no slot has changed. -/
theorem lookIn_missed {budget : Nat} {fault : Fault} {after : World}
    (ends : lookIn (performUpTo budget) id view name world = (.failed fault, after))
    (miss : fault.isMiss name = true) :
    ¬ world.AnswersIn name (world.scopeAt id level view) ∧ Proceeds world after ∧
      (∀ store label, (after.store store).slot? label = (world.store store).slot? label) ∧
      ∀ scope, after.AnswersIn name scope ↔ world.AnswersIn name scope := by
  have alike := openScope?_storesAlike id view world
  have proceeds := LeadsFreely.proceeds (openScope?_leads id view) world
  obtain ⟨sound, continues⟩ := proceeds.sound_continues live.1 live.2
  rw [lookIn_eq live.1 view sits] at ends
  cases budget with
  | zero => cases ends
  | succ budget =>
      obtain ⟨silent, only⟩ := ((tells.proceed continues proceeds).misses
        ⟨continues.alive.trans live.1, sound⟩ budget _).2 fault after ends miss
      have reading := performUpTo_proceeds (budget + 1)
        (.read (world.scopeAt id level view) name) (openScope? id view world).2
      rw [ends] at reading
      refine ⟨fun answers => silent (alike.answersIn.mpr answers), proceeds.trans reading,
        fun store label => (only.slots store label not_false).trans (alike.slot? store label),
        fun scope => ?_⟩
      rw [← alike.answersIn]
      unfold World.AnswersIn
      have same : ∀ store, after.Answers name store = (openScope? id view world).2.Answers name store :=
        fun store => only.answers not_false
      simp only [same]

end

theorem Scope.Within.silent {world : World} {name : String} {inner outer : Scope}
    (within : inner.Within outer) (silent : ¬ world.AnswersIn name outer) :
    ¬ world.AnswersIn name inner := by
  rintro ⟨store, member, answers⟩
  exact silent ⟨store, within store member, answers⟩

namespace World

/-- In every state of a session whose assembly is there, what is declared in a scope of a level, in
any mode, or in the roots at its tier, is declared in the scope that is opened there in the widest
mode at a tier that is no less permissive.  If a lookup misses a name in the wider scope then no slot
has changed, and lookups in the narrower scopes miss it too, in the state before as well as in the
state after.  The name must not be the one that is looked up for the hooks of reads unless the
registry was validated, and the marshaler must not report it. -/
theorem wider_scopes_see_more {world : World} (reachable : Reachable world) {id : InstanceId}
    {place : Nat} {level : Level} (sits : world.level? id place = some level) {narrow wide : Access}
    (admits : wide.admits narrow = true) (name : String) :
    ((∀ mode, (declaredIn id ⟨place, narrow, mode⟩ name world).1 = .done true →
        (declaredIn id ⟨place, wide, .all⟩ name world).1 = .done true) ∧
      (world.isDeclared name (rootScope narrow) = true →
        (declaredIn id ⟨place, wide, .all⟩ name world).1 = .done true)) ∧
    (world.Tells name → ∀ budget fault after,
      lookIn (performUpTo budget) id ⟨place, wide, .all⟩ name world = (.failed fault, after) →
      fault.isMiss name = true →
      (∀ store label, (after.store store).slot? label = (world.store store).slot? label) ∧
      ∀ here, here = world ∨ here = after → ∀ budget,
        (∀ mode, Misses name
          (lookIn (performUpTo (budget + 1)) id ⟨place, narrow, mode⟩ name) here) ∧
        Misses name (performUpTo (budget + 1) (.read (rootScope narrow) name)) here) := by
  have live : world.Live := reachable.sound
  have within := scopeAt_within sits admits live.1
  refine ⟨⟨fun mode declared => ?_, fun declared => ?_⟩, fun tells budget fault after ends miss => ?_⟩
  · rw [declaredIn_eq live.1 ⟨place, narrow, mode⟩ sits] at declared
    rw [declaredIn_eq live.1 ⟨place, wide, .all⟩ sits]
    exact congrArg _ ((within mode).isDeclared (Outcome.done.inj declared))
  · rw [declaredIn_eq live.1 ⟨place, wide, .all⟩ sits]
    exact congrArg _ ((rootScope_within admits).isDeclared declared)
  · obtain ⟨silent, proceeds, slots, answers⟩ :=
      lookIn_missed live tells ⟨place, wide, .all⟩ sits ends miss
    refine ⟨slots, fun here which budget => ?_⟩
    have goes : Proceeds world here := by
      obtain rfl | rfl := which
      · exact .refl _
      · exact proceeds
    obtain ⟨sound, continues⟩ := goes.sound_continues live.1 live.2
    have later : here.Live := ⟨continues.alive.trans live.1, sound⟩
    have still : ∀ scope, here.AnswersIn name scope ↔ world.AnswersIn name scope := by
      obtain rfl | rfl := which
      · exact fun _ => .rfl
      · exact answers
    have same : (here.object id).levels = (world.object id).levels :=
      (continues.objects id (inside_of_level? sits)).2
    refine ⟨fun mode => ?_, ?_⟩
    · refine lookIn_misses later (tells.proceed continues goes) ⟨place, narrow, mode⟩
        (continues.level? sits) budget fun answering => ?_
      have narrower := (still _).mp answering
      have scope : here.scopeAt id level ⟨place, narrow, mode⟩ =
          world.scopeAt id level ⟨place, narrow, mode⟩ := by
        unfold World.scopeAt
        rw [same]
      rw [scope] at narrower
      exact (within mode).silent silent narrower
    · exact ((tells.proceed continues goes).misses later budget _).1 fun answering =>
        (rootScope_within admits).silent silent ((still _).mp answering)

/-- A field of the last class of a chain is declared below the first, and so it is in the widest
scope; a name that no class has is missed in the widest scope, and so it is below. -/
theorem wider_scopes_see_more_hidden :
    ((declaredIn ⟨0⟩ ⟨0, .global, .base⟩ "y" hiddenBelow).1 = .done true ∧
      (declaredIn ⟨0⟩ ⟨0, .localOnly, .all⟩ "y" hiddenBelow).1 = .done true) ∧
    Misses "none" (lookIn (performUpTo 9) ⟨0⟩ ⟨0, .localOnly, .all⟩ "none") hiddenBelow ∧
    Misses "none" (lookIn (performUpTo 9) ⟨0⟩ ⟨0, .global, .base⟩ "none") hiddenBelow := by
  obtain ⟨level, sits⟩ := Option.isSome_iff_exists.mp
    (show (hiddenBelow.level? ⟨0⟩ 0).isSome from by decide +kernel)
  have tells : hiddenBelow.Tells "none" := ⟨trusts_hidden "none", .inl (by decide)⟩
  have below : (declaredIn ⟨0⟩ ⟨0, .global, .base⟩ "y" hiddenBelow).1 = .done true :=
    Outcome.eq_done (by decide +kernel)
  have ends : lookIn (performUpTo 9) ⟨0⟩ ⟨0, .localOnly, .all⟩ "none" hiddenBelow =
      (.failed (.lookup (.notDeclared "none")), _) := failed_of_fault? (by decide +kernel)
  have admits : Access.localOnly.admits .global = true := rfl
  have reachable := hiddenViewing.reached
  have declared := (wider_scopes_see_more reachable sits admits "y").1.1 .base below
  obtain ⟨_, misses⟩ := (wider_scopes_see_more reachable sits admits "none").2 tells 9 _ _ ends
    (by decide)
  exact ⟨⟨below, declared⟩, ⟨_, _, ends, by decide⟩, (misses hiddenBelow (.inl rfl) 8).1 .base⟩

/-! ## An annotation that is older than its hook -/

/-- Two annotations with hooks, of which the second fails unless the first ran before it; a third
whose base is not there yet; and a class with a base. -/
def hookSpecs : List ClassSpec :=
  [⟨"First", .marker, none, [], [bareFunction "onGet" (.bind "seen" (.bool true))], [], none, none⟩,
   ⟨"Second", .marker, none, [], [bareFunction "onGet" (.var "seen")], [], none, none⟩,
   ⟨"Early", .marker, some "Later", [], [], [], none, none⟩,
   bareClass "Base" none [] [],
   bareClass "Derived" (some "Base") [] []]

/-- The base, which has a hook of its own. -/
def laterSpec : ClassSpec :=
  ⟨"Later", .marker, none, [],
    [⟨"onGet", .localOnly, .ordinary, .any, .script .null, [], none⟩], [], none, none⟩

/-- An annotation whose base is defined only then; after it the others, and an instance. -/
def hookAllocated : World :=
  (((((defining default hookSpecs).allocate ⟨2⟩).orDefine laterSpec).allocate ⟨0⟩).allocate
    ⟨1⟩).allocate ⟨4⟩

/-- A variable that holds nothing much, with annotations. -/
def annotatedSlot (annotations : List InstanceId) : Slot :=
  ⟨.any, .script (some .null), annotations, false⟩

/-- The instance has a variable on either level, annotated with hooks that run before the one that
is not found. -/
def hookState : World :=
  (hookAllocated.withStore ⟨12⟩ (·.insert "onGet" (annotatedSlot [⟨1⟩, ⟨0⟩]))).withStore ⟨15⟩
    (·.insert "onGet" (annotatedSlot [⟨2⟩, ⟨0⟩]))

theorem reachable_hookState : Reachable hookState := by
  have allocated : Reachable hookAllocated :=
    (((((reachable_defining default hookSpecs).allocate ⟨2⟩).orDefine laterSpec).allocate ⟨0⟩).allocate
      ⟨1⟩).allocate ⟨4⟩
  refine .proceed allocated (.host (.host (.refl _) (.declare ⟨12⟩ _ _ rfl ?_))
    (.declare ⟨15⟩ _ _ rfl ?_))
  · decide +kernel
  · decide +kernel

/-- The wider scope reports the name as missing, after it has run a hook for which the narrower does
not. -/
theorem narrower_scope_fails_otherwise : ¬ ∀ world, Reachable world → ∀ id place level name,
    world.level? id place = some level → ∀ budget,
      Misses name (lookIn (performUpTo budget) id ⟨place, .global, .all⟩ name) world →
      Misses name (lookIn (performUpTo budget) id ⟨place, .global, .base⟩ name) world := by
  intro claim
  obtain ⟨level, sits⟩ := Option.isSome_iff_exists.mp
    (show (hookState.level? ⟨3⟩ 0).isSome from by decide +kernel)
  have missed : Misses "onGet" (lookIn (performUpTo 9) ⟨3⟩ ⟨0, .global, .all⟩ "onGet") hookState :=
    ⟨.lookup (.notDeclared "onGet"), _, failed_of_fault? (by decide +kernel), by decide⟩
  obtain ⟨fault, after, ends, miss⟩ :=
    claim hookState reachable_hookState ⟨3⟩ 0 level "onGet" sits 9 missed
  have raised : (lookIn (performUpTo 9) ⟨3⟩ ⟨0, .global, .base⟩ "onGet" hookState).1.fault? =
      some (.hookFailed .onRead (.script "INPUT: no value named seen")) := by
    decide +kernel
  rw [ends] at raised
  obtain rfl : fault = _ := Option.some.inj raised
  cases miss

end World

end ScriptObjects

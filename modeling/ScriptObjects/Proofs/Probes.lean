import ScriptObjects.Proofs.Isolation

/-!
# Probing the sources of a scope

A composite probes its sources with the lookup itself, and goes on when a source reports that
the name is not declared.  Only the shape of the report is looked at.  It might as well come out
of the body of a hook that runs because the source has the name.

It does not, in a session whose registry was validated before anything was created.  A lookup
reports the name as missing exactly if no source has a slot of it or stands for a function of it.
So a lookup through a composite is the lookup in the first source that has something, whatever
runs on the way and however it ends.
-/

namespace ScriptObjects

set_option autoImplicit false

open Exec

/-- A run reports a name as not declared. -/
def Exec.Misses {α : Type} (name : String) (run : Exec α) (world : World) : Prop :=
  ∃ fault after, run world = (.failed fault, after) ∧ fault.isMiss name = true

namespace World

/-- Some source of a scope has a slot of a name, or can turn a function of it into one. -/
def AnswersIn (world : World) (name : String) (scope : Scope) : Prop :=
  ∃ store ∈ scope.stores, world.Answers name store = true

theorem knows_iff_answers {world : World} {name : String} {store : StoreId} :
    world.Knows store name ↔ world.Answers name store = true := by
  unfold Knows Answers Store.declares
  rw [Bool.or_eq_true]
  exact or_congr_right Option.isSome_iff_exists.symm

end World

/-! ## Lookups from source to source -/

/-- In a state, the lookups of a name at stores report it as missing where nothing answers, and
nowhere else. -/
structure ProbesAt {α : Type} (name : String) (atStore : StoreId → Exec α) (world : World) :
    Prop where
  misses : ∀ store, world.Answers name store = false →
    atStore store world = (.failed (.lookup (.notDeclared name)), world)
  hits : ∀ store, world.Answers name store = true → ∀ fault after,
    atStore store world = (.failed fault, after) → fault.isMiss name = false

/-- What is done at the first of some stores that answers; where none does, the name is missing. -/
def World.lookAtFirst {α : Type} (world : World) (name : String) (atStore : StoreId → Exec α)
    (stores : List StoreId) : Exec α :=
  (stores.find? (world.Answers name)).elim (throw (.lookup (.notDeclared name))) atStore

namespace TriesStores

variable {α : Type} {name : String} {atStore : StoreId → Exec α} {atScope : Scope → Exec α}
  {among : List Scope → Exec α} {world : World}

mutual

/-- A lookup that misses at a store may leave something behind, as long as it stays on a certain
way.  Then a lookup through a scope comes to the first of its stores that answers, and ends there
unless it misses the name there after all. -/
theorem reaches_first (tries : TriesStores name atStore atScope among) {way : World → Prop}
    (misses : ∀ here, way here → ∀ store, world.Answers name store = false →
      ∃ later, way later ∧ atStore store here = (.failed (.lookup (.notDeclared name)), later)) :
    (scope : Scope) → ∀ here, way here → ∃ there, way there ∧
      ((∀ store, scope.stores.find? (world.Answers name) = some store →
        ∀ fault after, atStore store there = (.failed fault, after) → fault.isMiss name = false) →
        atScope scope here = world.lookAtFirst name atStore scope.stores there)
  | .store id, here, started => by
      rw [tries.store, Scope.stores]
      unfold World.lookAtFirst
      cases answers : world.Answers name id with
      | true => exact ⟨here, started, fun _ => by simp [answers]⟩
      | false =>
          obtain ⟨later, stays, ends⟩ := misses here started id answers
          exact ⟨later, stays, fun _ => by simp [answers, ends]⟩
  | .composite sources, here, started => by
      rw [tries.composite, Scope.stores]
      exact reaches_among tries misses sources here started

theorem reaches_among (tries : TriesStores name atStore atScope among) {way : World → Prop}
    (misses : ∀ here, way here → ∀ store, world.Answers name store = false →
      ∃ later, way later ∧ atStore store here = (.failed (.lookup (.notDeclared name)), later)) :
    (sources : List Scope) → ∀ here, way here → ∃ there, way there ∧
      ((∀ store, (Scope.storesOf sources).find? (world.Answers name) = some store →
        ∀ fault after, atStore store there = (.failed fault, after) → fault.isMiss name = false) →
        among sources here = world.lookAtFirst name atStore (Scope.storesOf sources) there)
  | [], here, started => ⟨here, started, fun _ => by rw [tries.nil]; rfl⟩
  | source :: rest, here, started => by
      obtain ⟨between, stays, first⟩ := reaches_first tries misses source here started
      rw [tries.cons, Scope.storesOf]
      unfold World.lookAtFirst at first ⊢
      rw [List.find?_append]
      cases found : source.stores.find? (world.Answers name) with
      | none =>
          rw [found] at first
          obtain ⟨there, further, later⟩ := reaches_among tries misses rest between stays
          exact ⟨there, further, fun hits =>
            (orElseMissing_of_missing (first fun _ none => nomatch none)).trans (later hits)⟩
      | some store =>
          rw [found] at first
          refine ⟨between, stays, fun hits => ?_⟩
          have first := first hits
          exact (orElseMissing_of_other fun fault last ends =>
            hits store rfl fault last (first.symm.trans ends)).trans first

end

section

variable (tries : TriesStores name atStore atScope among) (probes : ProbesAt name atStore world)
include tries probes

/-- A lookup that leaves nothing behind where it misses is the lookup at the first store that
answers. -/
theorem at_first (scope : Scope) :
    atScope scope world = world.lookAtFirst name atStore scope.stores world := by
  have misses : ∀ here, here = world → ∀ store, world.Answers name store = false →
      ∃ later, later = world ∧ atStore store here = (.failed (.lookup (.notDeclared name)), later) :=
    fun here started store silent => ⟨world, rfl, started ▸ probes.misses store silent⟩
  obtain ⟨_, rfl, looks⟩ := tries.reaches_first misses scope world rfl
  exact looks fun store found => probes.hits store (List.find?_some found)

/-- A lookup misses the name exactly if no source answers. -/
theorem misses_iff (scope : Scope) :
    Misses name (atScope scope) world ↔ ¬ world.AnswersIn name scope := by
  have looks := tries.at_first probes scope
  unfold Misses World.AnswersIn
  rw [looks]
  unfold World.lookAtFirst
  cases first : scope.stores.find? (world.Answers name) with
  | none =>
      refine iff_of_true ⟨_, world, rfl, by simp [Fault.isMiss, LookupFault.notDeclared]⟩ ?_
      rintro ⟨store, member, answers⟩
      exact List.find?_eq_none.mp first store member answers
  | some store =>
      have answers := List.find?_some first
      refine iff_of_false ?_ fun none => none ⟨store, List.mem_of_find?_eq_some first, answers⟩
      rintro ⟨fault, after, ends, miss⟩
      rw [probes.hits store answers fault after ends] at miss
      cases miss

/-- A composite does what its first source does that answers. -/
theorem acts_on_first {before rest : List Scope} {source : Scope}
    (silent : ∀ other ∈ before, ¬ world.AnswersIn name other)
    (answers : world.AnswersIn name source) :
    atScope (.composite (before ++ source :: rest)) world = atScope source world := by
  rw [tries.composite]
  induction before with
  | nil =>
      rw [List.nil_append, ← tries.composite, tries.at_first probes, tries.at_first probes source,
        Scope.stores, Scope.storesOf]
      unfold World.lookAtFirst
      rw [List.find?_append]
      cases first : source.stores.find? (world.Answers name) with
      | some store => rfl
      | none =>
          obtain ⟨store, member, answer⟩ := answers
          exact absurd answer (List.find?_eq_none.mp first store member)
  | cons other before ih =>
      have later := ih fun other member => silent other (List.mem_cons_of_mem _ member)
      rw [← later, List.cons_append, tries.cons]
      have missing : other.stores.find? (world.Answers name) = none :=
        List.find?_eq_none.mpr fun store member answer =>
          silent other List.mem_cons_self ⟨store, member, answer⟩
      have here := tries.at_first probes other
      unfold World.lookAtFirst at here
      rw [missing] at here
      exact orElseMissing_of_missing here

end

end TriesStores

/-! ## Sessions -/

namespace World

section

variable {world : World} (ready : world.Ready) {name : String} (trusts : world.Trusts name)
include ready trusts

theorem Ready.readStore_probes (budget : Nat) :
    ProbesAt name (readStore (performUpTo budget) · name) world where
  misses store silent := by
    obtain ⟨missing, nothing⟩ := answers_eq_false silent
    exact readStore_of_nothing _ ready.alive ready.bases missing nothing
  hits store answers :=
    readStore_passes (performUpTo_leads budget) (performUpTo_reads name budget)
      (performUpTo_construct_foreign budget) store name world
      (fun _ => knows_iff_answers.mpr answers) ready trusts

theorem Ready.assignStore_probes (budget : Nat) (value : Value) :
    ProbesAt name (assignStore (performUpTo budget) · name value) world where
  misses store silent := by
    obtain ⟨missing, nothing⟩ := answers_eq_false silent
    exact assignStore_of_nothing _ ready.alive ready.bases missing nothing value
  hits store answers :=
    assignStore_passes (performUpTo_leads budget) (performUpTo_reads name budget) store name value
      world (fun _ => knows_iff_answers.mpr answers) ready trusts

end

/-- In a session that marshals as usual and was validated before anything was created, a lookup
reports a name as not declared exactly if no source of the scope has a slot of it or can turn a
function of it into one.  A composite does what its first source does that has or can. -/
theorem probes_act_on_first {defined start world : World} (reachable : Reachable defined)
    (valid : Session.validate defined = (.done (.ok ()), start))
    (nothing : start.instances.size = 0) (standard : start.marshaling = .standard)
    (proceeds : Proceeds start world) (name : String) (budget : Nat) (value : Value) :
    (∀ scope,
      (Misses name (performUpTo (budget + 1) (.read scope name)) world ↔
        ¬ world.AnswersIn name scope) ∧
      (Misses name (performUpTo (budget + 1) (.assign scope name value)) world ↔
        ¬ world.AnswersIn name scope)) ∧
    ∀ before source rest, (∀ other ∈ before, ¬ world.AnswersIn name other) →
      world.AnswersIn name source →
      performUpTo (budget + 1) (.read (.composite (before ++ source :: rest)) name) world =
        performUpTo (budget + 1) (.read source name) world ∧
      performUpTo (budget + 1) (.assign (.composite (before ++ source :: rest)) name value) world =
        performUpTo (budget + 1) (.assign source name value) world := by
  obtain ⟨alive, _⟩ := reachable.sound
  have begins : start.Ready :=
    .of_validate reachable (validate_run_of_ok alive valid) (.of_none nothing)
  have ready := begins.proceed proceeds
  have trusts : world.Trusts name :=
    .of_standard ((begins.continues proceeds).marshaling.trans standard) name
  have reads := readScope_tries (performUpTo budget) name
  have assigns := assignScope_tries (performUpTo budget) name value
  have readsAt := ready.readStore_probes trusts budget
  have assignsAt := ready.assignStore_probes trusts budget value
  refine ⟨fun scope => ⟨reads.misses_iff readsAt scope, assigns.misses_iff assignsAt scope⟩, ?_⟩
  intro before source rest silent answers
  exact ⟨reads.acts_on_first readsAt silent answers, assigns.acts_on_first assignsAt silent answers⟩

/-! ## A hook that reports the name as missing -/

/-- A class with an annotated field; reading it runs a hook that reports the very name as not
declared. -/
def deniedSpecs : List ClassSpec :=
  [⟨"Denied", .marker, none, [], [bareFunction "onGet" (.raiseNotDeclared "x")], [], none, none⟩,
   bareClass "Point" none
     [⟨"x", .global, .any, .script (some (.int 1)), [⟨"Denied", []⟩], none⟩] []]

/-- The state after an instance of the class was created. -/
def deniedState : World := sampleAfter deniedSpecs ⟨1⟩

theorem proceeds_deniedState : Proceeds (sampleStart deniedSpecs) deniedState :=
  proceeds_sampleAfter deniedSpecs ⟨1⟩

/-- The variables of the assembly, then those of the instance. -/
def deniedScope : Scope := .composite [.store (rootStore .global), .store ⟨3⟩]

/-- The lookup ends in the fault of the hook, which is no miss. -/
theorem probes_act_on_first_denied :
    (performUpTo 9 (.read deniedScope "x") deniedState).1.fault? =
      some (.hookFailed .onRead (.lookup (.notDeclared "x"))) ∧
    ¬ Misses "x" (performUpTo 9 (.read deniedScope "x")) deniedState ∧
    performUpTo 9 (.read deniedScope "x") deniedState =
      performUpTo 9 (.read (.store ⟨3⟩) "x") deniedState := by
  have alive : (defining default deniedSpecs).alive = true := by decide +kernel
  have valid : Session.validate (defining default deniedSpecs) =
      (.done (.ok ()), sampleStart deniedSpecs) := by
    rw [validate_of_alive alive]
    rfl
  obtain ⟨misses, acts⟩ := probes_act_on_first (reachable_defining default deniedSpecs) valid
    (by decide +kernel) (by decide +kernel) proceeds_deniedState "x" 8 .null
  have answers : deniedState.AnswersIn "x" (.store ⟨3⟩) :=
    ⟨⟨3⟩, List.mem_singleton_self _, by decide +kernel⟩
  refine ⟨by decide +kernel, fun missed => ?_, (acts [.store (rootStore .global)] (.store ⟨3⟩) []
    ?_ answers).1⟩
  · refine (misses deniedScope).1.mp missed ⟨⟨3⟩, ?_, by decide +kernel⟩
    simp [deniedScope, Scope.stores, Scope.storesOf]
  · rintro other found ⟨store, member, answer⟩
    rw [List.mem_singleton] at found
    subst found
    rw [Scope.stores, List.mem_singleton] at member
    subst member
    have silent : deniedState.Answers "x" (rootStore .global) = false := by decide +kernel
    rw [silent] at answer
    cases answer

end World

end ScriptObjects

import Mathlib.Data.List.Nodup
import Mathlib.Data.List.Perm.Subperm
import ScriptObjects.Proofs.References

/-!
# Chains of classes

The chain of a class is the class followed by its base, the base of that, and so on to
a class without one.  A walk through the hierarchy guards itself against graphs that
lead back, with a budget and with the identities it has met; where every class has a
chain, and no two classes share an identity, neither guard ever acts, and the walk
from a class is its chain.
-/

namespace ScriptObjects

set_option autoImplicit false

namespace World

/-- The classes from one class along its bases to a class without a base. -/
inductive Chain (world : World) : ClassId → List ClassId → Prop
  | last {id : ClassId} (base : world.base? id = none) : Chain world id [id]
  | step {id base : ClassId} {rest : List ClassId} (next : world.base? id = some base)
      (chain : Chain world base rest) : Chain world id (id :: rest)

/-- Every class has a chain, and no two classes share an identity. -/
structure Hierarchical (world : World) : Prop where
  inside : ∀ id base, world.base? id = some base → base.index < world.classes.size
  distinct : ∀ first second : ClassId, first.index < world.classes.size →
    second.index < world.classes.size → (world.cls first).hash = (world.cls second).hash →
    first = second
  grounded : ∀ id : ClassId, id.index < world.classes.size → ∃ chain, world.Chain id chain

namespace Chain

variable {world : World}

theorem head {id : ClassId} {chain : List ClassId} (chains : world.Chain id chain) :
    ∃ rest, chain = id :: rest := by
  cases chains with
  | last => exact ⟨[], rfl⟩
  | step => exact ⟨_, rfl⟩

theorem unique {id : ClassId} {first second : List ClassId} (one : world.Chain id first)
    (two : world.Chain id second) : first = second := by
  induction one generalizing second with
  | last base =>
      cases two with
      | last => rfl
      | step next => rw [base] at next; cases next
  | step next _ ih =>
      cases two with
      | last base => rw [base] at next; cases next
      | step other rest =>
          rw [next] at other
          cases other
          rw [ih rest]

/-- The chain of a class on a chain is what follows from there on. -/
theorem suffix {id : ClassId} {chain : List ClassId} (chains : world.Chain id chain) {place : Nat}
    {member : ClassId} (sits : chain[place]? = some member) :
    world.Chain member (chain.drop place) := by
  induction chains generalizing place with
  | last base =>
      cases place with
      | zero =>
          cases sits
          exact .last base
      | succ place => cases sits
  | step next rest ih =>
      cases place with
      | zero =>
          cases sits
          exact .step next rest
      | succ place => exact ih sits

/-- No class occurs twice on a chain. -/
theorem nodup {id : ClassId} {chain : List ClassId} (chains : world.Chain id chain) :
    chain.Nodup := by
  induction chains with
  | last => exact List.nodup_singleton _
  | @step id base rest next chain ih =>
      refine List.nodup_cons.mpr ⟨fun again => ?_, ih⟩
      obtain ⟨place, sits⟩ := List.mem_iff_getElem?.mp again
      have same := (chain.suffix sits).unique (.step next chain)
      have shorter : (rest.drop place).length ≤ rest.length := by simp
      rw [same, List.length_cons] at shorter
      omega

theorem inside {id : ClassId} {chain : List ClassId} (chains : world.Chain id chain)
    (bases : ∀ id base, world.base? id = some base → base.index < world.classes.size)
    (start : id.index < world.classes.size) :
    ∀ member ∈ chain, member.index < world.classes.size := by
  induction chains with
  | last =>
      intro member found
      rw [List.mem_singleton] at found
      exact found ▸ start
  | step next _ ih =>
      intro member found
      rcases List.mem_cons.mp found with rfl | later
      · exact start
      · exact ih (bases _ _ next) member later

/-- A chain has no more members than there are classes. -/
theorem length_le {id : ClassId} {chain : List ClassId} (chains : world.Chain id chain)
    (bases : ∀ id base, world.base? id = some base → base.index < world.classes.size)
    (start : id.index < world.classes.size) : chain.length ≤ world.classes.size := by
  have among : chain ⊆ world.classes.handles := fun member found =>
    (Heap.mem_handles _ _).mpr (chains.inside bases start member found)
  have bounded := (chains.nodup.subperm among).length_le
  simpa [Heap.handles, Heap.size] using bounded

/-- A walk with enough budget, that has met none of the identities on a chain, is that chain. -/
theorem walk {id : ClassId} {chain : List ClassId} (chains : world.Chain id chain) {fuel : Nat}
    {seen : List TypeHash} (enough : chain.length ≤ fuel)
    (distinct : (chain.map fun member => (world.cls member).hash).Nodup)
    (unseen : ∀ member ∈ chain, (world.cls member).hash ∉ seen) :
    world.walk fuel seen (some id) = chain := by
  induction chains generalizing fuel seen with
  | @last id base =>
      obtain ⟨fuel, rfl⟩ : ∃ rest, fuel = rest + 1 := ⟨fuel - 1, by simp at enough; omega⟩
      simp only [World.walk]
      rw [if_neg (unseen id List.mem_cons_self), base]
      cases fuel <;> rfl
  | @step id base rest next chain ih =>
      obtain ⟨fuel, rfl⟩ : ∃ rest, fuel = rest + 1 := ⟨fuel - 1, by simp at enough; omega⟩
      rw [List.map_cons, List.nodup_cons] at distinct
      simp only [World.walk]
      rw [if_neg (unseen id List.mem_cons_self), next]
      rw [ih (by simpa using enough) distinct.2]
      intro member found
      rw [List.mem_cons, not_or]
      refine ⟨fun same => ?_, unseen member (List.mem_cons_of_mem id found)⟩
      exact distinct.1 (List.mem_map.mpr ⟨member, found, same⟩)

/-- Where hierarchies are the same, so are chains. -/
theorem transfer {after : World} {id : ClassId} {chain : List ClassId}
    (chains : world.Chain id chain) (same : SameHierarchy world after) : after.Chain id chain := by
  induction chains with
  | last base => exact .last ((same.base _).trans base)
  | step next _ ih => exact .step ((same.base _).trans next) ih

/-- A walk goes along the chain of its first class, perhaps not to the end. -/
theorem walk_prefix {id : ClassId} {chain : List ClassId}
    (chains : world.Chain id chain) (fuel : Nat) (seen : List TypeHash) :
    world.walk fuel seen (some id) <+: chain := by
  induction chains generalizing fuel seen with
  | last base =>
      cases fuel with
      | zero => exact List.nil_prefix
      | succ fuel =>
          rw [World.walk, base]
          split
          · exact List.nil_prefix
          · cases fuel <;> exact List.prefix_rfl
  | step next _ ih =>
      cases fuel with
      | zero => exact List.nil_prefix
      | succ fuel =>
          rw [World.walk, next]
          split
          · exact List.nil_prefix
          · exact List.cons_prefix_cons.mpr ⟨rfl, ih fuel _⟩

/-- Walks along one chain meet the same classes, if their budgets are enough. -/
theorem walk_same {before after : World} {id : ClassId} {chain : List ClassId}
    (one : before.Chain id chain) (two : after.Chain id chain)
    (hashes : ∀ member ∈ chain, (after.cls member).hash = (before.cls member).hash)
    {fuel more : Nat} (enough : chain.length ≤ fuel) (plenty : chain.length ≤ more)
    (seen : List TypeHash) : after.walk more seen (some id) = before.walk fuel seen (some id) := by
  induction one generalizing fuel more seen with
  | @last id base =>
      obtain ⟨fuel, rfl⟩ : ∃ rest, fuel = rest + 1 := ⟨fuel - 1, by simp at enough; omega⟩
      obtain ⟨more, rfl⟩ : ∃ rest, more = rest + 1 := ⟨more - 1, by simp at plenty; omega⟩
      have still : after.base? id = none := by
        cases two with
        | last still => exact still
        | step _ beyond => cases beyond
      simp only [World.walk, base, still, hashes id List.mem_cons_self]
      cases fuel <;> cases more <;> rfl
  | @step id base rest next below ih =>
      obtain ⟨fuel, rfl⟩ : ∃ rest, fuel = rest + 1 := ⟨fuel - 1, by simp at enough; omega⟩
      obtain ⟨more, rfl⟩ : ∃ rest, more = rest + 1 := ⟨more - 1, by simp at plenty; omega⟩
      obtain ⟨tail, rfl⟩ := below.head
      obtain ⟨still, again⟩ : after.base? id = some base ∧ after.Chain base (base :: tail) := by
        cases two with
        | step still again =>
            obtain ⟨_, same⟩ := again.head
            cases same
            exact ⟨still, again⟩
      simp only [World.walk, next, still, hashes id List.mem_cons_self]
      rw [ih again (fun member found => hashes member (List.mem_cons_of_mem id found))
        (Nat.le_of_succ_le_succ enough) (Nat.le_of_succ_le_succ plenty)]

/-- The walk that begins at the base, having met the class itself, is the rest of the walk from the
class. -/
theorem properAncestors_eq {id : ClassId} {chain : List ClassId} (chains : world.Chain id chain)
    (bounded : chain.length ≤ world.classes.size) :
    world.properAncestors id = (world.ancestors id).tail := by
  unfold properAncestors ancestors
  rw [World.walk, if_neg List.not_mem_nil, List.tail_cons]
  cases chains with
  | last base =>
      rw [base]
      cases world.classes.size <;> rfl
  | step next below =>
      rw [next]
      rw [List.length_cons] at bounded
      exact below.walk_same below (fun _ _ => rfl) (by omega) (by omega) _

end Chain

/-! ## Walks meet no identity twice -/

theorem walk_distinct (world : World) (fuel : Nat) (seen : List TypeHash)
    (start : Option ClassId) :
    ((world.walk fuel seen start).map fun id => (world.cls id).hash).Nodup ∧
      ∀ id ∈ world.walk fuel seen start, (world.cls id).hash ∉ seen := by
  induction fuel generalizing seen start with
  | zero => exact ⟨List.nodup_nil, fun _ found => (List.not_mem_nil found).elim⟩
  | succ fuel ih =>
      cases start with
      | none => exact ⟨List.nodup_nil, fun _ found => (List.not_mem_nil found).elim⟩
      | some id =>
          simp only [walk]
          split
          · exact ⟨List.nodup_nil, fun _ found => (List.not_mem_nil found).elim⟩
          · next unseen =>
              obtain ⟨distinct, apart⟩ := ih ((world.cls id).hash :: seen) (world.base? id)
              refine ⟨List.nodup_cons.mpr ⟨fun again => ?_, distinct⟩, fun member found => ?_⟩
              · obtain ⟨other, found, same⟩ := List.mem_map.mp again
                exact apart other found (same ▸ List.mem_cons_self)
              · rcases List.mem_cons.mp found with rfl | later
                · exact unseen
                · exact fun known => apart member later (List.mem_cons_of_mem _ known)

theorem ancestors_distinct (world : World) (id : ClassId) :
    ((world.ancestors id).map fun member => (world.cls member).hash).Nodup :=
  (world.walk_distinct _ _ _).1

namespace Hierarchical

variable {world : World} (graph : world.Hierarchical)
include graph

theorem hashes_nodup {id : ClassId} {chain : List ClassId} (chains : world.Chain id chain)
    (start : id.index < world.classes.size) :
    (chain.map fun member => (world.cls member).hash).Nodup := by
  refine List.Nodup.map_on ?_ chains.nodup
  intro first found second also same
  exact graph.distinct first second (chains.inside graph.inside start first found)
    (chains.inside graph.inside start second also) same

/-- A class followed by its bases is its chain. -/
theorem ancestors_eq {id : ClassId} {chain : List ClassId} (chains : world.Chain id chain)
    (start : id.index < world.classes.size) : world.ancestors id = chain := by
  have bounded := chains.length_le graph.inside start
  exact chains.walk (by omega) (graph.hashes_nodup chains start) fun _ _ => List.not_mem_nil

theorem chain {id : ClassId} (start : id.index < world.classes.size) :
    world.Chain id (world.ancestors id) := by
  obtain ⟨chain, chains⟩ := graph.grounded id start
  rw [graph.ancestors_eq chains start]
  exact chains

/-- The bases of a class on a chain are the rest of that chain. -/
theorem ancestors_drop {id member : ClassId} {place : Nat} (start : id.index < world.classes.size)
    (sits : (world.ancestors id)[place]? = some member) :
    world.ancestors member = (world.ancestors id).drop place := by
  have chains := graph.chain start
  have found := List.mem_iff_getElem?.mpr ⟨place, sits⟩
  exact graph.ancestors_eq (chains.suffix sits) (chains.inside graph.inside start member found)

end Hierarchical

end World

end ScriptObjects

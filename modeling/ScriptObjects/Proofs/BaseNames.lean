import Mathlib.Logic.Relation
import ScriptObjects.Proofs.Registration

/-!
# Chains of base names

A class gives its base by name, and a base may be registered long after the class that
names it.  The names therefore form a graph that is larger than the one of the classes:
a path along base names may end in a name that nobody has registered yet, and a later
definition can close it at any distance.

The check that registration makes follows base names until they end, and gives up where
one returns.  Here it is shown to answer exactly the question it stands for: whether the
name is reached from the base.  Names never lead back to themselves, so that the names
it remembers on the way never decide anything.
-/

namespace ScriptObjects

set_option autoImplicit false

open Relation (ReflTransGen TransGen)

namespace World

/-- The name that a class gives its base, whether that is registered or not. -/
def baseName? (world : World) (id : ClassId) : Option String :=
  (world.cls id).base.map fun reference => (world.classRefs.get reference).name

/-- A registered class of the first name extends the second, which may not be registered. -/
def ExtendsName (world : World) (derived base : String) : Prop :=
  ∃ id : ClassId, id.index < world.classes.size ∧ (world.cls id).name = derived ∧
    world.baseName? id = some base

theorem leadsBack_some (world : World) (name : String) (fuel : Nat) (seen : List String)
    (current : String) :
    world.leadsBack name (fuel + 1) seen (some current) =
      if current = name || current ∈ seen then true
      else world.leadsBack name fuel (current :: seen)
        ((world.findClass? current).bind world.baseName?) := rfl

theorem leadsBack_none (world : World) (name : String) (fuel : Nat) (seen : List String) :
    world.leadsBack name fuel seen none = false := by
  cases fuel <;> rfl

namespace Registered

variable {world : World} (registered : world.Registered)
include registered

/-- A name that no class has extends nothing. -/
theorem not_extendsName_of_missing {name base : String}
    (missing : world.findClass? name = none) : ¬ world.ExtendsName name base := by
  rintro ⟨id, inside, rfl, _⟩
  have found := registered.findClass?_name inside
  rw [missing] at found
  cases found

/-- What is reached from a name that no class has is that name itself. -/
theorem eq_of_reaches_of_missing {name other : String}
    (missing : world.findClass? name = none)
    (reaches : ReflTransGen world.ExtendsName name other) : name = other := by
  rcases ReflTransGen.cases_head reaches with same | ⟨base, extends_, _⟩
  · exact same
  · exact absurd extends_ (registered.not_extendsName_of_missing missing)

theorem extendsName_iff {id : ClassId} (inside : id.index < world.classes.size) {base : String} :
    world.ExtendsName (world.cls id).name base ↔ world.baseName? id = some base := by
  constructor
  · rintro ⟨other, there, same, based⟩
    rw [registered.names other id there inside same] at based
    exact based
  · exact fun based => ⟨id, inside, rfl, based⟩

/-- The step of the check: the base name of the class of a name. -/
theorem extendsName_iff_next {name base : String} :
    world.ExtendsName name base ↔ (world.findClass? name).bind world.baseName? = some base := by
  cases found : world.findClass? name with
  | none => exact iff_of_false (registered.not_extendsName_of_missing found) nofun
  | some id =>
      obtain ⟨inside, rfl⟩ := registered.findClass?_eq_some found
      exact registered.extendsName_iff inside

section

variable (alive : world.alive = true)
include alive

/-- The base of a class is the registered class of its base name. -/
theorem base?_eq (id : ClassId) : world.base? id = (world.baseName? id).bind world.findClass? := by
  unfold base? baseName?
  cases (world.cls id).base with
  | none => rfl
  | some reference => exact registered.target?_eq alive reference

theorem extendsName_of_base? {id base : ClassId} (inside : id.index < world.classes.size)
    (next : world.base? id = some base) :
    world.ExtendsName (world.cls id).name (world.cls base).name := by
  rw [registered.base?_eq alive] at next
  obtain ⟨name, based, found⟩ := Option.bind_eq_some_iff.mp next
  rw [registered.extendsName_iff inside, based, (registered.findClass?_eq_some found).2]

/-- The base name of a class with a registered base is the name of that base. -/
theorem name_of_base? {id base : ClassId} {name : String} (next : world.base? id = some base)
    (based : world.baseName? id = some name) : name = (world.cls base).name := by
  rw [registered.base?_eq alive, based] at next
  exact (registered.findClass?_eq_some next).2.symm

/-- The base name of a class without a registered base is not registered. -/
theorem missing_of_base? {id : ClassId} {name : String} (next : world.base? id = none)
    (based : world.baseName? id = some name) : world.findClass? name = none := by
  rwa [registered.base?_eq alive, based] at next

/-! ## Names and chains -/

/-- Every class of a chain is reached from its first. -/
theorem reaches_of_chain {id : ClassId} {chain : List ClassId} (chains : world.Chain id chain)
    (inside : id.index < world.classes.size) {member : ClassId} (found : member ∈ chain) :
    ReflTransGen world.ExtendsName (world.cls id).name (world.cls member).name := by
  induction chains with
  | last =>
      rw [List.mem_singleton] at found
      exact found ▸ .refl
  | step next _ ih =>
      rcases List.mem_cons.mp found with rfl | later
      · exact .refl
      · exact .head (registered.extendsName_of_base? alive inside next)
          (ih (registered.base?_inside next) later)

/-- Every class that is reached from a class by name is on its chain. -/
theorem mem_chain_of_reaches {id : ClassId} {chain : List ClassId} (chains : world.Chain id chain)
    (inside : id.index < world.classes.size) {name : String}
    (reaches : ReflTransGen world.ExtendsName (world.cls id).name name) {other : ClassId}
    (found : world.findClass? name = some other) : other ∈ chain := by
  induction chains with
  | @last id base =>
      rcases ReflTransGen.cases_head reaches with rfl | ⟨next, extends_, reaches⟩
      · rw [registered.findClass?_name inside] at found
        exact Option.some.inj found ▸ List.mem_cons_self
      · have missing := registered.missing_of_base? alive base
          ((registered.extendsName_iff inside).mp extends_)
        rw [← registered.eq_of_reaches_of_missing missing reaches, missing] at found
        cases found
  | @step id base rest next _ ih =>
      rcases ReflTransGen.cases_head reaches with rfl | ⟨name', extends_, reaches⟩
      · rw [registered.findClass?_name inside] at found
        exact Option.some.inj found ▸ List.mem_cons_self
      · have named := registered.name_of_base? alive next
          ((registered.extendsName_iff inside).mp extends_)
        rw [named] at reaches
        exact List.mem_cons_of_mem id (ih (registered.base?_inside next) reaches)

/-- No name leads back to itself, whether registered or not. -/
theorem acyclic (name : String) : ¬ TransGen world.ExtendsName name name := by
  intro returns
  obtain ⟨base, extends_, reaches⟩ := TransGen.head'_iff.mp returns
  obtain ⟨id, inside, rfl, based⟩ := extends_
  obtain ⟨chain, chains⟩ := registered.grounded id inside
  have found := registered.findClass?_name inside
  cases chains with
  | last missing =>
      have missing := registered.missing_of_base? alive missing based
      rw [registered.eq_of_reaches_of_missing missing reaches, found] at missing
      cases missing
  | step next rest =>
      have named := registered.name_of_base? alive next based
      rw [named] at reaches
      have again := registered.mem_chain_of_reaches alive rest (registered.base?_inside next)
        reaches found
      exact (List.nodup_cons.mp (Chain.step next rest).nodup).1 again

/-! ## The check -/

/-- Where the check finds a return, either the name is reached or one met before; as nothing leads
back to itself, the second needs a name that was met before the check began. -/
theorem reaches_of_leadsBack {name : String} {fuel : Nat} {seen : List String} {current : String}
    (leads : world.leadsBack name fuel seen (some current) = true) :
    ReflTransGen world.ExtendsName current name ∨
      ∃ met ∈ seen, ReflTransGen world.ExtendsName current met := by
  induction fuel generalizing seen current with
  | zero => cases leads
  | succ fuel ih =>
      rw [leadsBack_some] at leads
      split at leads
      · next stops =>
          rw [Bool.or_eq_true, decide_eq_true_eq, decide_eq_true_eq] at stops
          rcases stops with rfl | met
          · exact .inl .refl
          · exact .inr ⟨current, met, .refl⟩
      · cases next : (world.findClass? current).bind world.baseName? with
        | none =>
            rw [next, leadsBack_none] at leads
            cases leads
        | some base =>
            rw [next] at leads
            have extends_ := registered.extendsName_iff_next.mpr next
            rcases ih leads with reaches | ⟨met, member, reaches⟩
            · exact .inl (.head extends_ reaches)
            · rcases List.mem_cons.mp member with rfl | member
              · exact absurd (TransGen.head' extends_ reaches) (registered.acyclic alive _)
              · exact .inr ⟨met, member, .head extends_ reaches⟩

/-- The budget of the check suffices for every chain: where the name is reached, it is found. -/
theorem leadsBack_of_reaches {name : String} {id : ClassId} {chain : List ClassId}
    (chains : world.Chain id chain) (inside : id.index < world.classes.size)
    (reaches : ReflTransGen world.ExtendsName (world.cls id).name name) {fuel : Nat}
    (enough : chain.length + 1 ≤ fuel) (seen : List String) :
    world.leadsBack name fuel seen (some (world.cls id).name) = true := by
  induction chains generalizing fuel seen with
  | @last id base =>
      obtain ⟨fuel, rfl⟩ : ∃ rest, fuel = rest + 2 := ⟨fuel - 2, by simp at enough; omega⟩
      rw [leadsBack_some]
      split
      · rfl
      · next goes =>
          rcases ReflTransGen.cases_head reaches with same | ⟨next, extends_, reaches⟩
          · simp [same] at goes
          · have based := (registered.extendsName_iff inside).mp extends_
            have same := registered.eq_of_reaches_of_missing
              (registered.missing_of_base? alive base based) reaches
            rw [registered.findClass?_name inside, Option.bind_some, based, same]
            simp [leadsBack_some]
  | @step id base rest next chain ih =>
      obtain ⟨fuel, rfl⟩ : ∃ rest, fuel = rest + 1 := ⟨fuel - 1, by simp at enough; omega⟩
      rw [leadsBack_some]
      split
      · rfl
      · next goes =>
          rcases ReflTransGen.cases_head reaches with same | ⟨name', extends_, reaches⟩
          · simp [same] at goes
          · have based := (registered.extendsName_iff inside).mp extends_
            rw [registered.findClass?_name inside, Option.bind_some, based]
            have named := registered.name_of_base? alive next based
            rw [named] at reaches ⊢
            exact ih (registered.base?_inside next) reaches (by simpa using enough) _

/-- The check says whether the name is reached from the base. -/
theorem leadsBack_iff {name base : String} :
    world.leadsBack name (world.classes.size + 2) [] (some base) = true ↔
      ReflTransGen world.ExtendsName base name := by
  constructor
  · intro leads
    rcases registered.reaches_of_leadsBack alive leads with reaches | ⟨_, impossible, _⟩
    · exact reaches
    · exact (List.not_mem_nil impossible).elim
  · intro reaches
    cases found : world.findClass? base with
    | none =>
        rw [registered.eq_of_reaches_of_missing found reaches]
        simp [leadsBack_some]
    | some id =>
        obtain ⟨inside, rfl⟩ := registered.findClass?_eq_some found
        obtain ⟨chain, chains⟩ := registered.grounded id inside
        have bounded := chains.length_le (fun _ _ => registered.base?_inside) inside
        exact registered.leadsBack_of_reaches alive chains inside reaches (by omega) []

end

end Registered

end World

end ScriptObjects

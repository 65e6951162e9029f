import ScriptObjects.Proofs.Runs
import ScriptObjects.Proofs.Widening

/-!
# Comparisons of numbers

Two integers are compared exactly, and any other two numbers as floats, after an integer has been
widened to the float nearest to it.  Widening keeps the order of the integers, so of two numbers
exactly one comparison holds, and `less` is transitive across integers and floats.  It does not keep
all integers apart: beyond `2 ^ 53` several of them have one and the same float, and that float is
equal to each of them.  These triples, an integer, its float and another integer of that float, are
the only ones at which `equals` and `lessEqual` are not transitive (`order_eq_trans`,
`order_le_trans`).
-/

namespace ScriptObjects

set_option autoImplicit false

open Exec

/-- An integer, or a float that is a number. -/
inductive Numeral where
  | int (word : Int64)
  | float (x : Float) (number : x.isNaN = false)

namespace Numeral

def value : Numeral → Value
  | .int word => .int word
  | .float x _ => .float x

/-- The number as a float. -/
def widened : Numeral → Float
  | .int word => Number.ofWord word
  | .float x _ => x

def place (a : Numeral) : ℤ ×ₗ ℤ ×ₗ ℤ := Number.place a.widened

/-- How two numbers compare. -/
def order : Numeral → Numeral → Ordering
  | .int i, .int j => wordOrder i j
  | a, b => compare a.place b.place

/-- Two integers of one and the same float, with that float between them. -/
def Blurred (apart : ℤ → ℤ → Prop) (a b c : Numeral) : Prop :=
  ∃ i x number j, a = .int i ∧ b = .float x number ∧ c = .int j ∧ apart i.toInt j.toInt ∧
    (Number.ofWord i == x) = true ∧ (Number.ofWord j == x) = true

theorem isNaN_widened : (a : Numeral) → a.widened.isNaN = false
  | .int word => Number.isNaN_ofWord word
  | .float _ number => number

/-! ## The order of two numbers -/

theorem wordOrder_eq (i j : Int64) : wordOrder i j = compare i.toInt j.toInt := by
  unfold wordOrder
  rw [Int.compare_eq_ite_lt]
  simp only [Int64.lt_iff_toInt_lt, ← Int64.toInt_inj]
  split
  · rfl
  · split <;> split <;> first | rfl | omega

section

variable {a b c : Numeral}

/-- Only two integers are not compared by their places. -/
theorem order_cases (a b : Numeral) :
    (∃ i j, a = .int i ∧ b = .int j ∧ order a b = compare i.toInt j.toInt) ∨
      order a b = compare a.place b.place := by
  cases a with
  | int i =>
      cases b with
      | int j => exact .inl ⟨i, j, rfl, rfl, wordOrder_eq i j⟩
      | float x number => exact .inr rfl
  | float x number => exact .inr rfl

theorem order_swap (a b : Numeral) : order b a = (order a b).swap := by
  cases a <;> cases b <;> simp only [order, wordOrder_eq, Int.compare_swap] <;>
    exact Std.OrientedCmp.eq_swap

theorem place_le_of_order (ordered : order a b ≠ .gt) : a.place ≤ b.place := by
  obtain ⟨i, j, rfl, rfl, words⟩ | places := order_cases a b
  · rw [words] at ordered
    exact Number.place_ofWord_mono (Int.compare_ne_gt.mp ordered)
  · rw [places] at ordered
    exact compare_le_iff_le.mp ordered

theorem order_of_place_lt (below : a.place < b.place) : order a b = .lt := by
  obtain ⟨i, j, rfl, rfl, words⟩ | places := order_cases a b
  · rw [words]
    refine Int.compare_eq_lt.mpr (Int.lt_of_not_ge fun ge => ?_)
    exact absurd (Number.place_ofWord_mono ge) (not_le_of_gt below)
  · rw [places]
    exact compare_lt_iff_lt.mpr below

/-! ## The order of three numbers -/

theorem order_lt_trans (first : order a b = .lt) (second : order b c = .lt) :
    order a c = .lt := by
  have below : a.place ≤ b.place := place_le_of_order (by rw [first]; decide)
  have above : b.place ≤ c.place := place_le_of_order (by rw [second]; decide)
  obtain ⟨i, j, rfl, rfl, words⟩ | places := order_cases a b
  · obtain ⟨_, k, same, rfl, others⟩ | places := order_cases (.int j) c
    · cases same
      rw [words] at first
      rw [others] at second
      show wordOrder i k = .lt
      rw [wordOrder_eq]
      exact Int.compare_eq_lt.mpr
        ((Int.compare_eq_lt.mp first).trans (Int.compare_eq_lt.mp second))
    · rw [places] at second
      exact order_of_place_lt (below.trans_lt (compare_lt_iff_lt.mp second))
  · rw [places] at first
    exact order_of_place_lt ((compare_lt_iff_lt.mp first).trans_le above)

/-- The first number is not greater than the last, unless the middle one blurs them. -/
theorem order_between (first : order a b ≠ .gt) (second : order b c ≠ .gt) :
    order a c ≠ .gt ∨ Blurred (· > ·) a b c := by
  have below := place_le_of_order first
  have above := place_le_of_order second
  rcases lt_or_eq_of_le (below.trans above) with less | same
  · exact .inl (by rw [order_of_place_lt less]; decide)
  obtain ⟨i, j, rfl, rfl, words⟩ | places := order_cases a c
  · cases b with
    | int k =>
        have le : i.toInt ≤ k.toInt := Int.compare_ne_gt.mp (by rwa [← wordOrder_eq])
        have le' : k.toInt ≤ j.toInt := Int.compare_ne_gt.mp (by rwa [← wordOrder_eq])
        rw [words]
        exact .inl (Int.compare_ne_gt.mpr (le.trans le'))
    | float x number =>
        by_cases greater : j.toInt < i.toInt
        · refine .inr ⟨i, x, number, j, rfl, rfl, rfl, greater, ?_, ?_⟩
          · exact (Number.beq_iff_place (Number.isNaN_ofWord i) number).mpr
              (below.antisymm (above.trans same.ge))
          · exact (Number.beq_iff_place (Number.isNaN_ofWord j) number).mpr
              ((same.ge.trans below).antisymm above)
        · rw [words]
          exact .inl (Int.compare_ne_gt.mpr (Int.not_lt.mp greater))
  · rw [places, compare_eq_iff_eq.mpr same]
    exact .inl (by decide)

theorem Blurred.order {apart : ℤ → ℤ → Prop} (blurred : Blurred apart a b c) :
    ∃ i j, a = .int i ∧ c = .int j ∧ apart i.toInt j.toInt ∧
      a.order c = compare i.toInt j.toInt := by
  obtain ⟨i, _, _, j, rfl, _, rfl, held, _, _⟩ := blurred
  exact ⟨i, j, rfl, rfl, held, wordOrder_eq i j⟩

theorem order_le_trans (first : order a b ≠ .gt) (second : order b c ≠ .gt) :
    order a c ≠ .gt ↔ ¬ Blurred (· > ·) a b c := by
  refine ⟨fun ordered blurred => ?_, (order_between first second).resolve_right⟩
  obtain ⟨i, j, rfl, rfl, greater, words⟩ := blurred.order
  exact ordered (words.trans (Int.compare_eq_gt.mpr greater))

theorem order_eq_trans (first : order a b = .eq) (second : order b c = .eq) :
    order a c = .eq ↔ ¬ Blurred (· ≠ ·) a b c := by
  constructor
  · intro ordered blurred
    obtain ⟨i, j, rfl, rfl, different, words⟩ := blurred.order
    rw [ordered] at words
    exact different (Int.compare_eq_eq.mp words.symm)
  · intro sharp
    have forth : order a c ≠ .gt := by
      refine (order_between (by rw [first]; decide) (by rw [second]; decide)).resolve_right ?_
      rintro ⟨i, x, number, j, atFirst, atMiddle, atLast, greater, same, same'⟩
      exact sharp ⟨i, x, number, j, atFirst, atMiddle, atLast, ne_of_gt greater, same, same'⟩
    have back : order c a ≠ .gt := by
      refine (order_between (by rw [order_swap, second]; decide)
        (by rw [order_swap, first]; decide)).resolve_right ?_
      rintro ⟨i, x, number, j, atFirst, atMiddle, atLast, greater, same, same'⟩
      exact sharp ⟨j, x, number, i, atLast, atMiddle, atFirst, ne_of_lt greater, same', same⟩
    rw [order_swap] at back
    revert forth back
    cases order a c <;> decide

/-- Integers that share a float lie beyond `2 ^ 53`. -/
theorem Blurred.wide (blurred : Blurred (· ≠ ·) a b c) :
    ∃ i, (a = .int i ∨ c = .int i) ∧ 2 ^ 53 < i.toInt.natAbs := by
  obtain ⟨i, x, number, j, rfl, _, rfl, different, same, same'⟩ := blurred
  by_contra narrow
  push Not at narrow
  refine different (congrArg Int64.toInt
    (Number.place_ofWord_inj (narrow i (.inl rfl)) (narrow j (.inr rfl)) ?_))
  exact ((Number.beq_iff_place (Number.isNaN_ofWord i) number).mp same).trans
    ((Number.beq_iff_place (Number.isNaN_ofWord j) number).mp same').symm

end

/-! ## The comparisons of a dispatcher -/

section

variable (perform : Perform) (context : ContextId) (a b c : Numeral) (world : World)

/-- Numbers belong to no class, so that no class answers for them. -/
theorem binaryHook_none (key : MetaKey) :
    binaryHook perform context key a.value b.value world = (.done none, world) := by
  cases a <;> cases b <;> rfl

theorem primitiveOrder_eq (key : MetaKey) :
    primitiveOrder key a.value b.value world = (.done (a.order b), world) := by
  have compared : Number.compare? a.widened b.widened = some (compare a.place b.place) :=
    Number.compare?_of_numbers a.isNaN_widened b.isNaN_widened
  cases a with
  | int i =>
      cases b with
      | int j => rfl
      | float x number =>
          simp only [widened] at compared
          simp only [primitiveOrder, value, Value.asFloat?, compared]
          rfl
  | float y number =>
      cases b with
      | int j | float x number =>
          simp only [widened] at compared
          simp only [primitiveOrder, value, Value.asFloat?, compared]
          rfl

theorem identical_eq : a.value.identical b.value = (a.order b).isEq := by
  have floats : (a.widened == b.widened) = true ↔ compare a.place b.place = .eq :=
    (Number.beq_iff_place a.isNaN_widened b.isNaN_widened).trans compare_eq_iff_eq.symm
  rw [Bool.eq_iff_iff, Ordering.isEq_iff_eq_eq]
  cases a with
  | int i =>
      cases b with
      | int j =>
          show decide (i = j) = true ↔ wordOrder i j = .eq
          rw [wordOrder_eq, Int.compare_eq_eq, decide_eq_true_iff, Int64.toInt_inj]
      | float x number => exact floats
  | float y number =>
      cases b with
      | int j | float x number => exact floats

theorem less_eq : less perform context a.value b.value world = (.done (a.order b).isLT, world) := by
  unfold less
  rw [bind_of_done _ (binaryHook_none perform context a b world .less)]
  exact bind_of_done _ (primitiveOrder_eq a b world .less)

theorem lessEqual_eq :
    lessEqual perform context a.value b.value world = (.done (a.order b).isLE, world) := by
  unfold lessEqual
  rw [bind_of_done _ (binaryHook_none perform context a b world .lessEqual)]
  exact bind_of_done _ (primitiveOrder_eq a b world .lessEqual)

theorem equals_eq :
    equals perform context a.value b.value world = (.done (a.order b).isEq, world) := by
  unfold equals
  rw [bind_of_done _ (binaryHook_none perform context a b world .equals), identical_eq]
  rfl

theorem less_iff :
    less perform context a.value b.value world = (.done true, world) ↔ order a b = .lt := by
  rw [less_eq]
  cases order a b <;> simp

theorem equals_iff :
    equals perform context a.value b.value world = (.done true, world) ↔ order a b = .eq := by
  rw [equals_eq]
  cases order a b <;> simp

theorem lessEqual_iff :
    lessEqual perform context a.value b.value world = (.done true, world) ↔ order a b ≠ .gt := by
  rw [lessEqual_eq]
  cases order a b <;> simp

/-- What the comparisons say of three numbers. -/
structure Compared : Prop where
  /-- Of two numbers exactly one is less, or they are equal, and `lessEqual` says which of these
  hold. -/
  one : ∃ before same after : Bool,
    less perform context a.value b.value world = (.done before, world) ∧
    equals perform context a.value b.value world = (.done same, world) ∧
    less perform context b.value a.value world = (.done after, world) ∧
    [before, same, after].count true = 1 ∧
    lessEqual perform context a.value b.value world = (.done (before || same), world)
  less_trans : less perform context a.value b.value world = (.done true, world) →
    less perform context b.value c.value world = (.done true, world) →
    less perform context a.value c.value world = (.done true, world)
  equals_trans : equals perform context a.value b.value world = (.done true, world) →
    equals perform context b.value c.value world = (.done true, world) →
    (equals perform context a.value c.value world = (.done true, world) ↔
      ¬ Blurred (· ≠ ·) a b c)
  lessEqual_trans : lessEqual perform context a.value b.value world = (.done true, world) →
    lessEqual perform context b.value c.value world = (.done true, world) →
    (lessEqual perform context a.value c.value world = (.done true, world) ↔
      ¬ Blurred (· > ·) a b c)
  wide : Blurred (· ≠ ·) a b c → ∃ i, (a = .int i ∨ c = .int i) ∧ 2 ^ 53 < i.toInt.natAbs

/-- The comparisons order the numbers; they are transitive but for two integers beyond `2 ^ 53` on
either side of the float that both of them widen to. -/
theorem numbers_ordered : Compared perform context a b c world where
  one := by
    refine ⟨_, _, _, less_eq perform context a b world, equals_eq perform context a b world,
      less_eq perform context b a world, ?_, ?_⟩
    · rw [order_swap a b]
      cases order a b <;> decide
    · rw [lessEqual_eq]
      cases order a b <;> rfl
  less_trans first second := by
    rw [less_iff] at first second ⊢
    exact order_lt_trans first second
  equals_trans first second := by
    rw [equals_iff] at first second ⊢
    exact order_eq_trans first second
  lessEqual_trans first second := by
    rw [lessEqual_iff] at first second ⊢
    exact order_le_trans first second
  wide := Blurred.wide

end

/-- The integer `2 ^ 53`. -/
def even : Numeral := .int 9007199254740992

/-- The next integer, which is no float. -/
def odd : Numeral := .int 9007199254740993

/-- The float that both widen to. -/
def between : Numeral := .float (.ofBits 0x4340000000000000) (by decide)

/-- The greater integer is equal to the float and the float to the less, but the integers are
neither equal nor in that order. -/
theorem comparisons_not_transitive :
    (¬ ∀ perform context world (a b c : Numeral),
      equals perform context a.value b.value world = (.done true, world) →
      equals perform context b.value c.value world = (.done true, world) →
      equals perform context a.value c.value world = (.done true, world)) ∧
    ¬ ∀ perform context world (a b c : Numeral),
      lessEqual perform context a.value b.value world = (.done true, world) →
      lessEqual perform context b.value c.value world = (.done true, world) →
      lessEqual perform context a.value c.value world = (.done true, world) := by
  have first : order odd between = .eq := by decide +kernel
  have second : order between even = .eq := by decide +kernel
  have last : order odd even = .gt := by decide +kernel
  constructor
  · intro claim
    have same :=
      claim (performUpTo 1) World.ownContext (.initial default .standard) odd between even
    rw [equals_iff, equals_iff, equals_iff, last] at same
    exact absurd (same first second) (by decide)
  · intro claim
    have ordered :=
      claim (performUpTo 1) World.ownContext (.initial default .standard) odd between even
    rw [lessEqual_iff, lessEqual_iff, lessEqual_iff, first, second, last] at ordered
    exact absurd rfl (ordered (by decide) (by decide))

end Numeral

end ScriptObjects

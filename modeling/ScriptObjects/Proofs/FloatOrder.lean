import Mathlib.Data.Prod.Lex
import ScriptObjects.Number.Binary64

/-!
# The order of floats

A float is the negative or positive infinity, a zero, or a mantissa with an exponent and a
sign.  The place of a float lists its kind, its exponent and its mantissa, and below zero the larger
of two magnitudes comes first.  Places are ordered linearly, and floats that are numbers compare as
their places do (`compare_eq_place`): none of them is out of order with another, and the two zeros
share one place.
-/

namespace ScriptObjects.Number

set_option autoImplicit false

open Float.Model (UnpackedFloat)

/-- The place of a float among the others; not-a-number has none of its own. -/
def placeOf : UnpackedFloat → ℤ ×ₗ ℤ ×ₗ ℤ
  | .infinity .negative => toLex (-2, toLex (0, 0))
  | .finite .negative mantissa exponent _ => toLex (-1, toLex (-exponent, -(mantissa : ℤ)))
  | .zero _ | .notANumber => toLex (0, toLex (0, 0))
  | .finite .positive mantissa exponent _ => toLex (1, toLex (exponent, (mantissa : ℤ)))
  | .infinity .positive => toLex (2, toLex (0, 0))

def place (x : Float) : ℤ ×ₗ ℤ ×ₗ ℤ := placeOf x.toModel.unpack

theorem compare_natCast (m n : ℕ) : compare (m : ℤ) (n : ℤ) = compare m n := by
  rw [Int.compare_eq_ite_lt, Nat.compare_eq_ite_lt]
  simp only [Int.ofNat_lt]

theorem compare_neg (m n : ℤ) : compare (-m) (-n) = (compare m n).swap := by
  rw [Int.compare_swap, Int.compare_eq_ite_lt, Int.compare_eq_ite_lt]
  simp only [Int.neg_lt_neg_iff]

/-- Numbers compare as their places do. -/
theorem compare_eq_place {a b : UnpackedFloat} (first : a ≠ .notANumber)
    (second : b ≠ .notANumber) : a.compare b = some (compare (placeOf a) (placeOf b)) := by
  cases a with
  | notANumber => exact absurd rfl first
  | infinity s =>
      cases s <;> cases b with
      | notANumber => exact absurd rfl second
      | infinity t | zero t | finite t => cases t <;> rfl
  | zero s =>
      cases b with
      | notANumber => exact absurd rfl second
      | infinity t | zero t | finite t => cases t <;> rfl
  | finite s m e =>
      cases b with
      | notANumber => exact absurd rfl second
      | infinity t | zero t => cases s <;> cases t <;> rfl
      | finite t n f =>
          cases s with
          | positive =>
              cases t with
              | negative => rfl
              | positive =>
                  show some ((compare e f).then (compare m n)) =
                    some ((compare e f).then (compare (m : ℤ) n))
                  rw [compare_natCast]
          | negative =>
              cases t with
              | positive => rfl
              | negative =>
                  show some ((compare e f).then (compare m n)).swap =
                    some ((compare (-e) (-f)).then (compare (-(m : ℤ)) (-n)))
                  rw [compare_neg, compare_neg, compare_natCast, Ordering.swap_then]

theorem ne_notANumber {x : Float} (number : x.isNaN = false) :
    x.toModel.unpack ≠ .notANumber := by
  intro same
  have nan : x.toModel.unpack.isNaN = false := number
  rw [same] at nan
  cases nan

section

variable {x y : Float}

theorem lt_iff_place (first : x.isNaN = false) (second : y.isNaN = false) :
    x < y ↔ place x < place y := by
  have compared := compare_eq_place (ne_notANumber first) (ne_notANumber second)
  show decide ((x.toModel.unpack.compare y.toModel.unpack == some .lt) = true) = true ↔ _
  rw [decide_eq_true_iff, beq_iff_eq, compared, Option.some_inj, compare_lt_iff_lt]
  rfl

theorem beq_iff_place (first : x.isNaN = false) (second : y.isNaN = false) :
    (x == y) = true ↔ place x = place y := by
  have compared := compare_eq_place (ne_notANumber first) (ne_notANumber second)
  show (x.toModel.unpack.compare y.toModel.unpack == some .eq) = true ↔ _
  rw [beq_iff_eq, compared, Option.some_inj, compare_eq_iff_eq]
  rfl

/-- Two numbers are always in order. -/
theorem compare?_of_numbers (first : x.isNaN = false) (second : y.isNaN = false) :
    compare? x y = some (compare (place x) (place y)) := by
  unfold compare?
  rcases lt_trichotomy (place x) (place y) with below | same | above
  · rw [if_pos ((lt_iff_place first second).mpr below), compare_lt_iff_lt.mpr below]
  · rw [if_neg (mt (lt_iff_place first second).mp same.not_lt),
      if_pos ((beq_iff_place first second).mpr same), compare_eq_iff_eq.mpr same]
  · rw [if_neg (mt (lt_iff_place first second).mp above.not_gt),
      if_neg (mt (beq_iff_place first second).mp above.ne'),
      if_pos ((lt_iff_place second first).mpr above), compare_gt_iff_gt.mpr above]

end

end ScriptObjects.Number

import Mathlib.Algebra.Order.Ring.Int
import ScriptObjects.Proofs.Runs

/-!
# Operators on integers

An operator on two integers gives the exact integer, or fails: with an overflow where that integer
is no word, and with a division by zero.  Nothing wraps around and nothing is
rounded but a quotient, which is truncated toward zero.

The remainder belongs to another division, the one that rounds the quotient so that the remainder is
never negative.  The two agree where the dividend is not negative or the division leaves no rest;
elsewhere quotient and remainder make up more than the dividend, by the magnitude of the divisor.
-/

namespace ScriptObjects

set_option autoImplicit false

open Exec

/-- The end of a run with the outcome of an operator on integers. -/
def wordOutcome : Except Fault Int64 → Outcome Value
  | .ok word => .done (.int word)
  | .error fault => .failed fault

/-- A run that gives an integer exactly, or fails where that integer is no word. -/
structure GivesExactly (run : Exec Value) (n : ℤ) (world : World) : Prop where
  fits : -2 ^ 63 ≤ n → n < 2 ^ 63 →
    ∃ word : Int64, word.toInt = n ∧ run world = (.done (.int word), world)
  overflow : n < -2 ^ 63 ∨ 2 ^ 63 ≤ n →
    run world = (.failed (.script "integer overflow"), world)

/-! ## The word of an integer -/

theorem wordResult_of_fits {n : ℤ} (low : -2 ^ 63 ≤ n) (high : n < 2 ^ 63) :
    wordResult n = .ok (.ofInt n) := by
  have within : Int64.minValue.toInt ≤ n ∧ n ≤ Int64.maxValue.toInt :=
    ⟨low, Int.le_of_lt_add_one high⟩
  rw [wordResult, checkedWord?, if_pos within]

theorem wordResult_of_overflow {n : ℤ} (outside : n < -2 ^ 63 ∨ 2 ^ 63 ≤ n) :
    wordResult n = .error (.script "integer overflow") := by
  have without : ¬ (Int64.minValue.toInt ≤ n ∧ n ≤ Int64.maxValue.toInt) := by
    rintro ⟨low, high⟩
    exact outside.elim (not_lt_of_ge low) (not_le_of_gt (Int.lt_add_one_of_le high))
  rw [wordResult, checkedWord?, if_neg without]

theorem toInt_of_wordResult {n : ℤ} {word : Int64} (given : wordResult n = .ok word) :
    word.toInt = n := by
  by_cases within : -2 ^ 63 ≤ n ∧ n < 2 ^ 63
  · rw [wordResult_of_fits within.1 within.2] at given
    cases given
    exact Int64.toInt_ofInt_of_le within.1 within.2
  · rw [wordResult_of_overflow (by omega)] at given
    cases given

theorem GivesExactly.of_wordResult {run : Exec Value} {n : ℤ} {world : World}
    (same : run world = (wordOutcome (wordResult n), world)) : GivesExactly run n world where
  fits low high := by
    rw [wordResult_of_fits low high] at same
    exact ⟨_, Int64.toInt_ofInt_of_le low high, same⟩
  overflow outside := by rwa [wordResult_of_overflow outside] at same

/-! ## The operators of a dispatcher -/

section

variable (perform : Perform) (context : ContextId) (a b : Int64) (world : World)

theorem ofExcept_int (result : Except Fault Int64) :
    (do return Value.int (← Exec.ofExcept result) : Exec Value) world =
      (wordOutcome result, world) := by
  cases result <;> rfl

/-- Integers belong to no class, so that no class answers for them. -/
theorem arithmetic_int (key : MetaKey) : arithmetic perform context key (.int a) (.int b) world =
    (wordOutcome (wordArithmetic key a b), world) :=
  ofExcept_int world (wordArithmetic key a b)

theorem negate_int :
    negate perform context (.int a) world = (wordOutcome (wordResult (-a.toInt)), world) :=
  ofExcept_int world (wordResult (-a.toInt))

theorem toInt_ne_zero {b : Int64} (divisor : b ≠ 0) : b.toInt ≠ 0 :=
  fun zero => divisor (Int64.toInt_inj.mp zero)

theorem wordArithmetic_divide (divisor : b ≠ 0) :
    wordArithmetic .divide a b = wordResult (a.toInt.tdiv b.toInt) := if_neg divisor

/-- A remainder is a word, whatever the quotient is. -/
theorem wordArithmetic_remainder (divisor : b ≠ 0) (least : ¬ (a = Int64.minValue ∧ b = -1)) :
    ∃ word : Int64, word.toInt = a.toInt % b.toInt ∧ wordArithmetic .remainder a b = .ok word := by
  have divides := toInt_ne_zero divisor
  have nonneg := Int.emod_nonneg a.toInt divides
  have below := Int.emod_lt a.toInt divides
  have low := b.le_toInt
  have high := b.toInt_lt
  have fits := wordResult_of_fits (n := a.toInt % b.toInt) (by omega) (by omega)
  refine ⟨_, toInt_of_wordResult fits, ?_⟩
  rw [← fits]
  exact (if_neg divisor).trans (if_neg fun both => least both.symm)

/-- What the operators do on two integers. -/
structure IntegersExact : Prop where
  add : GivesExactly (arithmetic perform context .add (.int a) (.int b)) (a.toInt + b.toInt) world
  subtract :
    GivesExactly (arithmetic perform context .subtract (.int a) (.int b)) (a.toInt - b.toInt) world
  multiply :
    GivesExactly (arithmetic perform context .multiply (.int a) (.int b)) (a.toInt * b.toInt) world
  negate : GivesExactly (negate perform context (.int a)) (-a.toInt) world
  divide : b ≠ 0 → GivesExactly (arithmetic perform context .divide (.int a) (.int b))
    (a.toInt.tdiv b.toInt) world
  /-- The remainder is the only integer from zero up to the magnitude of the divisor that differs
  from the dividend by a multiple of the divisor. -/
  remainder : b ≠ 0 → ¬ (a = Int64.minValue ∧ b = -1) → ∃ word : Int64,
    arithmetic perform context .remainder (.int a) (.int b) world = (.done (.int word), world) ∧
    ∀ r : ℤ, 0 ≤ r ∧ r < |b.toInt| ∧ b.toInt ∣ a.toInt - r ↔ r = word.toInt
  byZero : b = 0 → ∀ key, key = .divide ∨ key = .remainder →
    arithmetic perform context key (.int a) (.int b) world =
      (.failed (.script "division by zero"), world)
  leastByMinusOne : a = Int64.minValue → b = -1 → ∀ key, key = .divide ∨ key = .remainder →
    arithmetic perform context key (.int a) (.int b) world =
      (.failed (.script "integer overflow"), world)

/-- Operators on integers are exact or fail. -/
theorem integers_exact : IntegersExact perform context a b world where
  add := .of_wordResult (arithmetic_int perform context a b world .add)
  subtract := .of_wordResult (arithmetic_int perform context a b world .subtract)
  multiply := .of_wordResult (arithmetic_int perform context a b world .multiply)
  negate := .of_wordResult (negate_int perform context a world)
  divide divisor := .of_wordResult (by
    rw [arithmetic_int, wordArithmetic_divide a b divisor])
  remainder divisor least := by
    obtain ⟨word, value, given⟩ := wordArithmetic_remainder a b divisor least
    refine ⟨word, by rw [arithmetic_int, given]; rfl, fun r => ?_⟩
    rw [value, Int.abs_eq_natAbs, eq_comm, Int.emod_eq_iff (toInt_ne_zero divisor),
      ← Int.dvd_neg, Int.neg_sub]
  byZero zero key division := by
    subst zero
    rw [arithmetic_int]
    obtain rfl | rfl := division <;> rfl
  leastByMinusOne least minusOne key division := by
    subst least minusOne
    rw [arithmetic_int]
    obtain rfl | rfl := division <;> rfl

/-! ## Quotient and remainder -/

/-- The operator on words gave what its run gave. -/
theorem word_of_done {perform : Perform} {context : ContextId} {key : MetaKey} {a b word : Int64}
    {world after : World} (given : arithmetic perform context key (.int a) (.int b) world =
      (.done (.int word), after)) : wordArithmetic key a b = .ok word := by
  rw [arithmetic_int] at given
  cases result : wordArithmetic key a b with
  | ok other =>
      rw [result] at given
      cases given
      rfl
  | error fault =>
      rw [result] at given
      cases given

/-- The quotient times the divisor plus the remainder is the dividend, or more than that by the
magnitude of the divisor where the dividend is negative and not a multiple of it. -/
theorem quotient_and_remainder {a b q r : Int64} {after after' : World}
    (quotient : arithmetic perform context .divide (.int a) (.int b) world =
      (.done (.int q), after))
    (rest : arithmetic perform context .remainder (.int a) (.int b) world =
      (.done (.int r), after')) :
    q.toInt * b.toInt + r.toInt =
      if 0 ≤ a.toInt ∨ b.toInt ∣ a.toInt then a.toInt else a.toInt + |b.toInt| := by
  have divided := word_of_done quotient
  have reduced := word_of_done rest
  have divisor : b ≠ 0 := by
    rintro rfl
    cases divided
  have least : ¬ (a = Int64.minValue ∧ b = -1) := by
    rintro ⟨rfl, rfl⟩
    cases reduced
  obtain ⟨word, value, given⟩ := wordArithmetic_remainder a b divisor least
  cases given.symm.trans reduced
  rw [wordArithmetic_divide a b divisor] at divided
  have parts := Int.tdiv_mul_add_tmod a.toInt b.toInt
  rw [Int.tmod_eq_emod, ← toInt_of_wordResult divided, ← value] at parts
  rw [Int.abs_eq_natAbs]
  by_cases kept : 0 ≤ a.toInt ∨ b.toInt ∣ a.toInt
  · rw [if_pos kept] at parts ⊢
    omega
  · rw [if_neg kept] at parts ⊢
    omega

end

/-- The quotient of -7 by 2 is -3, but the remainder is 1. -/
theorem quotient_and_remainder_negative :
    (-3 : Int64).toInt * (2 : Int64).toInt + (1 : Int64).toInt = -7 + 2 := by
  have quotient : arithmetic (performUpTo 1) World.ownContext .divide (.int (-7)) (.int 2)
    (.initial default .standard) = (.done (.int (-3)), .initial default .standard) := rfl
  have rest : arithmetic (performUpTo 1) World.ownContext .remainder (.int (-7)) (.int 2)
    (.initial default .standard) = (.done (.int 1), .initial default .standard) := rfl
  exact quotient_and_remainder _ _ _ quotient rest

/-- The two do not make up the dividend. -/
theorem quotient_and_remainder_disagree : ¬ ∀ perform context world (a b q r : Int64) after after',
    arithmetic perform context .divide (.int a) (.int b) world = (.done (.int q), after) →
    arithmetic perform context .remainder (.int a) (.int b) world = (.done (.int r), after') →
    q.toInt * b.toInt + r.toInt = a.toInt := by
  intro claim
  have same := claim (performUpTo 1) World.ownContext (.initial default .standard) (-7) 2 (-3) 1
    _ _ rfl rfl
  exact absurd same (by decide)

end ScriptObjects

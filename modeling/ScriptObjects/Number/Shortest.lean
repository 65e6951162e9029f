/-!
# The shortest decimal that reads back

A positive float `m * 2 ^ e` owns the interval of reals that round to it; the two
ends belong to it exactly when `m` is even.  On the decimal grids with one, two,
three and more digits, only the grid's two neighbours of the float can lie in
that interval; the first grid with a hit wins, of two hits the nearer one, and an
exact tie goes to the larger.
-/

namespace ScriptObjects.Number

set_option autoImplicit false

/-- The number `digits * 10 ^ exponent`. -/
structure Decimal where
  digits : Nat
  exponent : Int
  deriving DecidableEq, Repr

/-- The same number without trailing zeros in its digits, for at most `fuel` zeros. -/
def Decimal.trim : Nat → Decimal → Decimal
  | 0, d => d
  | fuel + 1, d =>
      if d.digits ≠ 0 ∧ d.digits % 10 = 0 then trim fuel ⟨d.digits / 10, d.exponent + 1⟩ else d

/-- How many decimal digits a number has. -/
def digitCount (n : Nat) : Nat := (Nat.toDigits 10 n).length

/-- The exponent `p` with `10 ^ p ≤ m * 2 ^ e < 10 ^ (p + 1)`, for positive `m` and `e ≥ -1100`. -/
def leadingExponent (m : Nat) (e : Int) : Int :=
  if 0 ≤ e then (digitCount (m * Nat.pow 2 e.toNat) : Int) - 1
  else (digitCount (m * Nat.pow 10 400 / Nat.pow 2 (-e).toNat) : Int) - 401

/-- The interval of reals that round to `m * 2 ^ e`, its ends in units of `2 ^ (e - 2)`. -/
structure RoundingInterval where
  low : Nat
  middle : Nat
  high : Nat
  closed : Bool

/-- The interval of a float; below a power of two the floats lie twice as dense. -/
def RoundingInterval.of (m : Nat) (e : Int) : RoundingInterval where
  low := if m = Nat.pow 2 52 ∧ e ≠ -1074 then 4 * m - 1 else 4 * m - 2
  middle := 4 * m
  high := 4 * m + 2
  closed := m % 2 = 0

/-- The hit on the grid `10 ^ k`, if one of the two neighbours lies in the interval. -/
def gridHit (interval : RoundingInterval) (e : Int) (k : Int) : Option Nat :=
  let unit := Nat.pow 10 k.toNat * Nat.pow 2 (2 - e).toNat
  let scale := Nat.pow 2 (e - 2).toNat * Nat.pow 10 (-k).toNat
  let below := interval.middle * scale / unit
  let reaches (a b : Nat) : Bool := a < b || (interval.closed && a = b)
  let lowHit := reaches (interval.low * scale) (below * unit)
  let highHit := reaches ((below + 1) * unit) (interval.high * scale)
  match lowHit, highHit with
  | true, false => some below
  | false, true => some (below + 1)
  | true, true =>
      if 2 * (interval.middle * scale) < (2 * below + 1) * unit then some below
      else some (below + 1)
  | false, false => none

/-- The first hit on the grids with `count` digits and more, at most `fuel` of them. -/
def firstHit (interval : RoundingInterval) (e : Int) (leading : Int) : Nat → Nat → Decimal
  | 0, count => ⟨0, leading - count⟩
  | fuel + 1, count =>
      let k := leading - count + 1
      match gridHit interval e k with
      | some digits => ⟨digits, k⟩
      | none => firstHit interval e leading fuel (count + 1)

/-- The shortest decimal that reads back as the positive float `m * 2 ^ e`. -/
def shortest (m : Nat) (e : Int) : Decimal :=
  (firstHit (.of m e) e (leadingExponent m e) 17 1).trim 20

end ScriptObjects.Number

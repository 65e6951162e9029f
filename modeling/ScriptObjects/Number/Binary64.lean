/-!
# Exact facts about binary floating-point numbers

A finite float is a sign, a mantissa and a power of two.  Everything here is
computed on those integers, so that each result is exact or rounded once, to the
nearest float with ties to the even mantissa: the float of a signed word, the
integer a float stands for, and the remainder of a division.
-/

namespace ScriptObjects.Number

set_option autoImplicit false

open Float.Model (UnpackedFloat)

/-- A float from its sign, mantissa and exponent, rounded to the nearest. -/
def ofScaled (sign : UnpackedFloat.Sign) (mantissa : Nat) (exponent : Int) : Float :=
  if mantissa = 0 then .ofModel (.pack (.zero sign))
  else .ofModel (.pack (.round .binary64 sign mantissa exponent))

/-- The float nearest to a signed word. -/
def ofWord (word : Int64) : Float := .ofModel (.ofInt64 word)

/-- The natural number `mantissa * 2 ^ exponent`, if it is one. -/
def wholeScaled? (mantissa : Nat) (exponent : Int) : Option Nat :=
  if 0 ≤ exponent then some (mantissa * Nat.pow 2 exponent.toNat)
  else
    let divisor := Nat.pow 2 (-exponent).toNat
    if mantissa % divisor = 0 then some (mantissa / divisor) else none

/-- The integer a float stands for; none for infinities, NaN and fractions. -/
def whole? (x : Float) : Option Int :=
  match x.toModel.unpack with
  | .zero _ => some 0
  | .finite .positive mantissa exponent _ => (wholeScaled? mantissa exponent).map Int.ofNat
  | .finite .negative mantissa exponent _ => (wholeScaled? mantissa exponent).map (- Int.ofNat ·)
  | .infinity _ | .notANumber => none

/-- The signed word a float stands for, for whole floats strictly between -2 ^ 63 and 2 ^ 63. -/
def word? (x : Float) : Option Int64 :=
  match whole? x with
  | some n =>
      if Int64.minValue.toInt < n ∧ n ≤ Int64.maxValue.toInt then some (Int64.ofInt n) else none
  | none => none

/-- The not-a-number. -/
def nan : Float := .ofModel (.pack .notANumber)

/-- The exact remainder of the division truncated toward zero; it has the sign of the dividend. -/
def truncatedRemainder (x y : Float) : Float :=
  match x.toModel.unpack, y.toModel.unpack with
  | .notANumber, _ | _, .notANumber | .infinity _, _ | _, .zero _ => nan
  | .zero _, _ | _, .infinity _ => x
  | .finite sign m e _, .finite _ m' e' _ =>
      let low := min e e'
      let dividend := m * Nat.pow 2 (e - low).toNat
      let divisor := m' * Nat.pow 2 (e' - low).toNat
      ofScaled sign (dividend % divisor) low

/-- The remainder that is not negative, short of a rounding in the last addition. -/
def euclideanRemainder (x y : Float) : Float :=
  let r := truncatedRemainder x y
  if r < 0 then r + y.abs else r

/-- The order of two floats; none if one of them is not a number. -/
def compare? (x y : Float) : Option Ordering :=
  if x < y then some .lt
  else if x == y then some .eq
  else if y < x then some .gt
  else none

end ScriptObjects.Number

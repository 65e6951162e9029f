import ScriptObjects.Number.Shortest

/-!
# The text of a float

The digits of a float are the shortest that read back; a layout decides how they
are written.  Values are shown in positional notation whatever their size, and
listed for inspection with a point always present and with an exponent outside
the range from `10 ^ -4` to `10 ^ 16`.
-/

namespace ScriptObjects.Number

set_option autoImplicit false

/-- How the digits of a float are written. -/
structure Layout where
  /-- Whether a leading digit of this exponent is written without an exponent part. -/
  positional : Int → Bool
  /-- Whether a whole number carries a zero after the point. -/
  point : Bool

/-- Positional notation for every size, whole numbers without a point. -/
def Layout.plain : Layout := ⟨fun _ => true, false⟩

/-- Positional notation for moderate sizes, and always a point. -/
def Layout.inspection : Layout := ⟨fun leading => -4 ≤ leading && leading < 16, true⟩

/-- A decimal without an exponent part. -/
def Decimal.positionalText (d : Decimal) (point : Bool) : String :=
  let digits := Nat.toDigits 10 d.digits
  let place : Int := digits.length + d.exponent
  if 0 ≤ d.exponent then
    String.ofList (digits ++ List.replicate d.exponent.toNat '0') ++ (if point then ".0" else "")
  else if 0 < place then
    String.ofList (digits.take place.toNat) ++ "." ++ String.ofList (digits.drop place.toNat)
  else
    "0." ++ String.ofList (List.replicate (-place).toNat '0' ++ digits)

/-- A decimal with one digit before the point and an exponent part. -/
def Decimal.exponentText (d : Decimal) : String :=
  let digits := Nat.toDigits 10 d.digits
  let exponent : Int := digits.length + d.exponent - 1
  let fraction := digits.drop 1
  String.ofList (digits.take 1)
    ++ (if fraction.isEmpty then "" else "." ++ String.ofList fraction)
    ++ "e" ++ toString exponent

/-- A positive float under a layout. -/
def Layout.magnitude (layout : Layout) (m : Nat) (e : Int) : String :=
  let d := shortest m e
  let leading : Int := digitCount d.digits + d.exponent - 1
  if layout.positional leading then d.positionalText layout.point else d.exponentText

def signText : Float.Model.UnpackedFloat.Sign → String
  | .positive => ""
  | .negative => "-"

/-- A float under a layout; the sign of a zero is kept. -/
def Layout.text (layout : Layout) (x : Float) : String :=
  match x.toModel.unpack with
  | .notANumber => "NaN"
  | .infinity sign => signText sign ++ "inf"
  | .zero sign => signText sign ++ (if layout.point then "0.0" else "0")
  | .finite sign m e _ => signText sign ++ layout.magnitude m e

end ScriptObjects.Number

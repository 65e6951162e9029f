/-!
# Hexadecimal numerals

A word is written with sixteen lowercase hexadecimal digits, most significant
first, so that equal words and equal texts are the same thing.
-/

namespace ScriptObjects.Text

set_option autoImplicit false

/-- The lowercase hexadecimal digit of a number below sixteen. -/
def hexDigit (n : Nat) : Char :=
  if n < 10 then Char.ofNat (48 + n) else Char.ofNat (87 + n)

/-- The last `count` hexadecimal digits of a number, most significant first. -/
def hexDigits : Nat → Nat → List Char
  | 0, _ => []
  | count + 1, n => hexDigits count (n / 16) ++ [hexDigit (n % 16)]

/-- The hexadecimal digits of a number without leading zeros. -/
def hexNumeral (n : Nat) : String :=
  String.ofList (((hexDigits 16 n).dropWhile (· = '0')).append (if n = 0 then ['0'] else []))

/-- A 64-bit word in sixteen digits, after the sign that announces the base. -/
def hexWord (word : UInt64) : String :=
  "0x" ++ String.ofList (hexDigits 16 word.toNat)

end ScriptObjects.Text

import ScriptObjects.Text.Printable
import ScriptObjects.Text.Hex

/-!
# Quoted text

An inspection text shows a string between quotation marks.  Quotation marks,
backslashes and the usual control characters are written with a backslash and a
letter, and every other character without a picture of its own by its number in
hexadecimal between braces.
-/

namespace ScriptObjects.Text

set_option autoImplicit false

/-- One character of a quoted text. -/
def quoteChar (c : Char) : String :=
  if c = '"' then "\\\""
  else if c = '\\' then "\\\\"
  else if c = '\n' then "\\n"
  else if c = '\r' then "\\r"
  else if c = '\t' then "\\t"
  else if c.toNat = 0 then "\\0"
  else if isPrintable c then String.singleton c
  else "\\u\x7b" ++ hexNumeral c.toNat ++ "\x7d"

/-- A text between quotation marks. -/
def quoted (text : String) : String :=
  "\"" ++ String.join (text.toList.map quoteChar) ++ "\""

end ScriptObjects.Text

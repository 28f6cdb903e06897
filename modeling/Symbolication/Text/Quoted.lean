import Symbolication.Text.Number
import Symbolication.Text.Unprintable

/-!
Quoted text. The quote mark, the backslash and the common control characters have short escapes;
any other unprintable character is written by its number.
-/

namespace Symbolication.Text

/-- One character between two `quote` marks. -/
def escape (quote character : Char) : String :=
  if character = '\x00' then "\\0"
  else if character = '\t' then "\\t"
  else if character = '\r' then "\\r"
  else if character = '\n' then "\\n"
  else if character = quote ∨ character = '\\' then String.ofList ['\\', character]
  else if isUnprintable character then
    "\\u\x7b" ++ String.ofList (Nat.toDigits 16 character.toNat) ++ "\x7d"
  else String.ofList [character]

def quoted (text : String) : String :=
  "\"" ++ String.join (text.toList.map (escape '"')) ++ "\""

end Symbolication.Text

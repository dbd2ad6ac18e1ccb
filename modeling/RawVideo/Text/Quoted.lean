import RawVideo.Text.Hex
import RawVideo.Text.Invisible

/-!
# Quoted text

Messages show the text they complain about between double quotes.  Quotes and
backslashes are escaped, the common control characters have letters, and every
other invisible character is given by its code point.
-/

namespace RawVideo
namespace Quoted

/-- The code point of a character, in braces. -/
def codePoint (c : Char) : List Char :=
  ['\\', 'u', '\x7b'] ++ Hex.ofNat c.toNat ++ ['\x7d']

/-- How a character is shown between quotes. -/
def escape (c : Char) : List Char :=
  match c with
  | '"' => ['\\', '"']
  | '\\' => ['\\', '\\']
  | '\n' => ['\\', 'n']
  | '\r' => ['\\', 'r']
  | '\t' => ['\\', 't']
  | '\x00' => ['\\', '0']
  | c => if Invisible.isInvisible c then codePoint c else [c]

/-- A text between double quotes. -/
def quote (text : String) : String :=
  "\"" ++ String.ofList (text.toList.flatMap escape) ++ "\""

end Quoted
end RawVideo

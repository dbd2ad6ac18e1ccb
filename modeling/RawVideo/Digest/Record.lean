import RawVideo.Digest.Frame
import RawVideo.Text.Blank
import RawVideo.Text.Decimal

/-!
# Digest records

The digest of one frame of a sequence, as a report lists it and as it is checked
against an expected value.
-/

namespace RawVideo

/-- The digest of one frame. -/
structure DigestRecord where
  /-- The place of the frame in the sequence. -/
  sequence : Nat
  width : Nat
  height : Nat
  algorithm : Algorithm
  /-- The value in hexadecimal. -/
  value : String
  deriving DecidableEq, Repr

namespace DigestRecord

/-- Digest a frame and record the value.  The context keeps it too. -/
def take (sequence : Nat) (picture : Picture) (context : Context) :
    Attempt Error (DigestRecord × Context) := do
  let done <- context.digestFrame picture
  return (⟨sequence, picture.view.width, picture.view.height, done.algorithm, done.hex⟩, done)

/-- A text without the blanks around it and one `0x` in front. -/
def bare (text : List Char) : List Char :=
  match Blank.trim text with
  | '0' :: 'x' :: digits => digits
  | digits => digits

/-- Check the value against an expected one, whatever the case of its ASCII letters. -/
def isMatchedBy (record : DigestRecord) (expected : String) : Bool :=
  record.value.toList.map Char.toLower == (bare expected.toList).map Char.toLower

/-- The line of a record: the place, the size, the value. -/
def line (record : DigestRecord) : String :=
  Decimal.padLeft 7 (toString record.sequence) ++ " " ++
    Decimal.padLeft 10 s!"{record.width}x{record.height}" ++ " 0x" ++ record.value

end DigestRecord
end RawVideo

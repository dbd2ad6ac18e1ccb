/-!
# UTF-8

Reading a byte string character by character.  Each step takes either one
well-formed character or one maximal ill-formed run: the longest start of a
character that the bytes hold, or a single byte where none starts.  A text is
well formed when every step takes a character; shown loosely, every ill-formed
run becomes one replacement character.
-/

namespace RawVideo
namespace Utf8

/-- Check whether a byte lies in a range. -/
def inRange (first last : Nat) (b : UInt8) : Bool :=
  first ≤ b.toNat && b.toNat ≤ last

/-- Check whether a byte continues a character. -/
def isTail (b : UInt8) : Bool :=
  inRange 0x80 0xbf b

/-- The low six bits, which a continuing byte carries. -/
def payload (b : UInt8) : Nat :=
  b.toNat % 0x40

/--
How many continuing bytes a leading byte announces, and the range that the
first of them has to lie in.  The range shuts out overlong forms, surrogates and
values above the last code point.
-/
def lead? (b : UInt8) : Option (Nat × Nat × Nat) :=
  if inRange 0xc2 0xdf b then some (1, 0x80, 0xbf)
  else if inRange 0xe0 0xe0 b then some (2, 0xa0, 0xbf)
  else if inRange 0xed 0xed b then some (2, 0x80, 0x9f)
  else if inRange 0xe1 0xef b then some (2, 0x80, 0xbf)
  else if inRange 0xf0 0xf0 b then some (3, 0x90, 0xbf)
  else if inRange 0xf1 0xf3 b then some (3, 0x80, 0xbf)
  else if inRange 0xf4 0xf4 b then some (3, 0x80, 0x8f)
  else none

/-- The bits of a leading byte that belong to the code point. -/
def leadBits (tails : Nat) (b : UInt8) : Nat :=
  b.toNat % (1 <<< (6 - tails))

/-- One step: the character, if it is well formed, and the bytes behind it. -/
structure Step where
  /-- The character, none for an ill-formed run. -/
  char? : Option Char
  /-- The bytes that follow. -/
  rest : List UInt8

/-- Take `tails` continuing bytes after the bits `bits`. -/
def takeTails (bits : Nat) : Nat -> List UInt8 -> Step
  | 0, rest => ⟨some (Char.ofNat bits), rest⟩
  | _ + 1, [] => ⟨none, []⟩
  | tails + 1, b :: rest =>
      if isTail b then takeTails (0x40 * bits + payload b) tails rest
      else ⟨none, b :: rest⟩

/-- Take the first character, or the first ill-formed run, that starts with `b`. -/
def step (b : UInt8) (rest : List UInt8) : Step :=
  if b.toNat < 0x80 then ⟨some (Char.ofNat b.toNat), rest⟩
  else
    match lead? b, rest with
    | some (tails + 1, first, last), c :: cs =>
        if inRange first last c then
          takeTails (0x40 * leadBits (tails + 1) b + payload c) tails cs
        else ⟨none, c :: cs⟩
    | _, _ => ⟨none, rest⟩

theorem length_takeTails_rest (bits tails : Nat) (bytes : List UInt8) :
    (takeTails bits tails bytes).rest.length ≤ bytes.length := by
  induction bytes generalizing bits tails with
  | nil => cases tails <;> simp [takeTails]
  | cons b rest ih =>
      cases tails with
      | zero => simp [takeTails]
      | succ tails =>
          unfold takeTails
          split
          · exact Nat.le_succ_of_le (ih _ _)
          · simp

theorem length_step_rest (b : UInt8) (rest : List UInt8) :
    (step b rest).rest.length ≤ rest.length := by
  unfold step
  split
  · exact Nat.le_refl _
  · split
    · split
      · exact Nat.le_succ_of_le (length_takeTails_rest ..)
      · exact Nat.le_refl _
    · exact Nat.le_refl _

/-- The characters of a byte string, none for each ill-formed run. -/
def pieces : List UInt8 -> List (Option Char)
  | [] => []
  | b :: bytes => (step b bytes).char? :: pieces (step b bytes).rest
termination_by bytes => bytes.length
decreasing_by
  exact Nat.lt_succ_of_le (length_step_rest b bytes)

/-- The text that a well-formed byte string holds. -/
def decode? (bytes : List UInt8) : Option (List Char) :=
  (pieces bytes).mapM id

/-- The text of any byte string, with a replacement character for each ill-formed run. -/
def decodeLoosely (bytes : List UInt8) : List Char :=
  (pieces bytes).map fun piece => piece.getD '\uFFFD'

def encode (text : List Char) : List UInt8 :=
  text.flatMap String.utf8EncodeChar

end Utf8
end RawVideo

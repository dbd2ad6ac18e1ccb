/-!
# Decimal numerals

A numeral is one or more of the digits `0` to `9`, with at most one plus sign in
front.  Leading zeros are allowed, and a numeral whose value reaches the bound
of its field is refused.  Writing uses the fewest digits and no sign.
-/

namespace RawVideo
namespace Decimal

/-- The value of a digit, if the character is one. -/
def digit? (c : Char) : Option Nat :=
  if '0' ≤ c ∧ c ≤ '9' then some (c.toNat - '0'.toNat) else none

/-- The value of a run of digits read after the value `acc`. -/
def valueFrom? (acc : Nat) : List Char -> Option Nat
  | [] => some acc
  | c :: cs =>
      match digit? c with
      | some d => valueFrom? (10 * acc + d) cs
      | none => none

/-- The value of a nonempty run of digits. -/
def value? : List Char -> Option Nat
  | [] => none
  | c :: cs => valueFrom? 0 (c :: cs)

/-- A numeral without its plus sign. -/
def unsigned : List Char -> List Char
  | '+' :: cs => cs
  | cs => cs

/-- Read a numeral whose value lies below `bound`. -/
def parse? (bound : Nat) (text : List Char) : Option Nat :=
  match value? (unsigned text) with
  | some n => if n < bound then some n else none
  | none => none

/-- The digits of a number. -/
def render (n : Nat) : List Char :=
  Nat.toDigits 10 n

/-- A number right-aligned in a field of `width` characters. -/
def padLeft (width : Nat) (text : String) : String :=
  "".pushn ' ' (width - text.length) ++ text

end Decimal
end RawVideo

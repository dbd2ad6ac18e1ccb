import RawVideo.Error
import RawVideo.Text.Decimal

/-!
# Ratios

Frame rates and pixel aspect ratios.  A ratio whose numerator or denominator is
zero is unknown: it is kept as it is, falls back to another one on request, and
is never reduced.  Two ratios with denominators compare by cross-multiplying;
without a denominator nothing compares.
-/

namespace RawVideo

/-- A ratio of two numbers. -/
structure Ratio where
  num : Nat
  den : Nat
  deriving DecidableEq, Repr

namespace Ratio

/-- The ratio of which nothing is known. -/
def unknown : Ratio := ⟨0, 0⟩

/-- Check whether a term is zero. -/
def isUnknown (r : Ratio) : Bool :=
  r.num == 0 || r.den == 0

/-- A ratio, or another one where it is unknown. -/
def orElse (r fallback : Ratio) : Ratio :=
  if r.isUnknown then fallback else r

/-- The greatest common divisor, by remainders. -/
def divisor : Nat -> Nat -> Nat
  | a, 0 => a
  | a, b + 1 => divisor (b + 1) (a % (b + 1))
termination_by _ b => b
decreasing_by
  exact Nat.mod_lt _ (Nat.succ_pos _)

/-- The ratio with both terms divided by their greatest common divisor. -/
def reduce (r : Ratio) : Ratio :=
  if r.isUnknown then r
  else ⟨r.num / divisor r.num r.den, r.den / divisor r.num r.den⟩

/-- The order of two ratios with denominators. -/
def compare? (a b : Ratio) : Option Ordering :=
  if a.den = 0 ∨ b.den = 0 then none
  else some (compare (a.num * b.den) (b.num * a.den))

/-- A ratio is below another one where they compare as less.  Nothing is below or above a
ratio without a denominator. -/
instance : LT Ratio where
  lt a b := (compare? a b).any Ordering.isLT = true

/-- A ratio is at most another one where they compare as less or as equal. -/
instance : LE Ratio where
  le a b := (compare? a b).any Ordering.isLE = true

instance (a b : Ratio) : Decidable (a < b) :=
  inferInstanceAs (Decidable ((compare? a b).any Ordering.isLT = true))

instance (a b : Ratio) : Decidable (a ≤ b) :=
  inferInstanceAs (Decidable ((compare? a b).any Ordering.isLE = true))

/-- The quotient, which is no number without a denominator. -/
def toFloat (r : Ratio) : Float :=
  if r.den = 0 then 0.0 / 0.0 else r.num.toFloat / r.den.toFloat

/-!
## Text
-/

/-- The terms with a colon between them. -/
def render (r : Ratio) : List Char :=
  Decimal.render r.num ++ ':' :: Decimal.render r.den

def toText (r : Ratio) : String :=
  String.ofList r.render

/-- The text of a ratio in diagnostics. -/
def describe (r : Ratio) : String :=
  "Rational(" ++ r.toText ++ ")"

/-- Read two numerals of 32 bits, split at the first colon. -/
def parse (text : List Char) : Except Error Ratio :=
  match text.span (· != ':') with
  | (_, []) => .error (.ratioWithoutColon (String.ofList text))
  | (before, _ :: after) =>
      match Decimal.parse? UInt32.size before, Decimal.parse? UInt32.size after with
      | some num, some den => .ok ⟨num, den⟩
      | none, _ => .error (.ratioNumerator (String.ofList text))
      | some _, none => .error (.ratioDenominator (String.ofList text))

end Ratio
end RawVideo

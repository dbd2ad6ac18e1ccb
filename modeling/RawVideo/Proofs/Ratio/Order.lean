import Mathlib.Algebra.Order.Field.Rat
import Mathlib.Data.Nat.Cast.Order.Ring
import RawVideo.Proofs.Ratio

/-!
# The order of ratios

A ratio with a denominator stands for a quotient, and ratios compare as their quotients do, so
they are in the order of the rational numbers.  Equality is that of the terms: two spellings
of one quotient compare as equal and differ, and a ratio without a denominator equals itself
and compares with nothing.  On ratios in lowest terms, comparing as equal is being equal.
-/

namespace RawVideo
namespace Ratio

variable {a b c : Ratio} {relation : ℚ -> ℚ -> Prop}

/-!
## Quotients
-/

/-- The number that a ratio with a denominator stands for. -/
def quotient? (r : Ratio) : Option ℚ :=
  if r.den = 0 then none else some (r.num / r.den : ℚ)

theorem quotient?_eq_none (h : a.den = 0) : a.quotient? = none :=
  if_pos h

theorem quotient?_eq_some (h : a.den ≠ 0) : a.quotient? = some (a.num / a.den : ℚ) :=
  if_neg h

/-- The products of a comparison are the two quotients, each multiplied by both denominators. -/
theorem compare_products (ha : a.den ≠ 0) (hb : b.den ≠ 0) :
    compare (a.num * b.den) (b.num * a.den) = compare (a.num / a.den : ℚ) (b.num / b.den) := by
  have ha' : (a.den : ℚ) ≠ 0 := Nat.cast_ne_zero.mpr ha
  have hb' : (b.den : ℚ) ≠ 0 := Nat.cast_ne_zero.mpr hb
  have hpos : (0 : ℚ) < a.den * b.den :=
    mul_pos (Nat.cast_pos.mpr (Nat.pos_of_ne_zero ha)) (Nat.cast_pos.mpr (Nat.pos_of_ne_zero hb))
  have hleft : (a.num / a.den : ℚ) * (a.den * b.den) = (a.num * b.den : Nat) := by
    rw [← mul_assoc, div_mul_cancel₀ _ ha', Nat.cast_mul]
  have hright : (b.num / b.den : ℚ) * (a.den * b.den) = (b.num * a.den : Nat) := by
    rw [mul_comm (a.den : ℚ), ← mul_assoc, div_mul_cancel₀ _ hb', Nat.cast_mul]
  rw [← cmp_eq_compare, ← cmp_eq_compare]
  calc
    cmp (a.num * b.den) (b.num * a.den)
        = cmp ((a.num * b.den : Nat) : ℚ) (b.num * a.den : Nat) :=
      (Nat.strictMono_cast.cmp_map_eq _ _).symm
    _ = cmp ((a.num / a.den : ℚ) * (a.den * b.den)) (b.num / b.den * (a.den * b.den)) := by
      rw [hleft, hright]
    _ = cmp (a.num / a.den : ℚ) (b.num / b.den) :=
      cmp_mul_pos_right hpos _ _

/-- Ratios compare as their quotients do. -/
theorem compare?_eq_quotients (a b : Ratio) :
    compare? a b = a.quotient?.bind fun p => b.quotient?.map (compare p) := by
  unfold compare?
  by_cases ha : a.den = 0
  · rw [if_pos (Or.inl ha), quotient?_eq_none ha, Option.bind_none]
  · rw [quotient?_eq_some ha, Option.bind_some]
    by_cases hb : b.den = 0
    · rw [if_pos (Or.inr hb), quotient?_eq_none hb, Option.map_none]
    · rw [if_neg (not_or.mpr ⟨ha, hb⟩), quotient?_eq_some hb, Option.map_some,
        compare_products ha hb]

/-!
## Relations between quotients
-/

/-- Two ratios stand for numbers in a relation. -/
def Relates (relation : ℚ -> ℚ -> Prop) (a b : Ratio) : Prop :=
  exists p q, a.quotient? = some p ∧ b.quotient? = some q ∧ relation p q

/-- The ratio in the middle stands for one number only. -/
theorem Relates.trans [IsTrans ℚ relation] (h : Relates relation a b)
    (h' : Relates relation b c) : Relates relation a c := by
  rcases h with ⟨p, q, hp, hq, hpq⟩
  rcases h' with ⟨q', r, hq', hr, hqr⟩
  cases hq.symm.trans hq'
  exact ⟨p, r, hp, hr, trans_of relation hpq hqr⟩

theorem compare?_eq_some {order : Ordering} :
    compare? a b = some order ↔ Relates (fun p q => compare p q = order) a b := by
  rw [compare?_eq_quotients, Option.bind_eq_some_iff]
  unfold Relates
  simp only [Option.map_eq_some_iff, exists_and_left]

theorem any_compare?_iff {test : Ordering -> Bool} :
    (compare? a b).any test = true ↔ Relates (fun p q => test (compare p q) = true) a b := by
  rw [Option.any_eq_true]
  constructor
  · intro h
    rcases h with ⟨order, hcompare, htest⟩
    rcases compare?_eq_some.mp hcompare with ⟨p, q, hp, hq, rfl⟩
    exact ⟨p, q, hp, hq, htest⟩
  · intro h
    rcases h with ⟨p, q, hp, hq, htest⟩
    exact ⟨compare p q, compare?_eq_some.mpr ⟨p, q, hp, hq, rfl⟩, htest⟩

theorem lt_iff : a < b ↔ Relates (· < ·) a b := by
  change (compare? a b).any Ordering.isLT = true ↔ _
  rw [any_compare?_iff]
  simp only [Ordering.isLT_iff_eq_lt, compare_lt_iff_lt]

theorem le_iff : a ≤ b ↔ Relates (· ≤ ·) a b := by
  change (compare? a b).any Ordering.isLE = true ↔ _
  rw [any_compare?_iff]
  simp only [Ordering.isLE_iff_ne_gt, ← ne_eq, compare_le_iff_le]

theorem equal_iff :
    compare? a b = some .eq ↔ exists q, a.quotient? = some q ∧ b.quotient? = some q := by
  rw [compare?_eq_some]
  constructor
  · intro h
    rcases h with ⟨p, q, hp, hq, hcompare⟩
    cases compare_eq_iff_eq.mp hcompare
    exact ⟨p, hp, hq⟩
  · intro h
    rcases h with ⟨q, ha, hb⟩
    exact ⟨q, q, ha, hb, compare_eq_iff_eq.mpr rfl⟩

/-!
## Comparing and being equal
-/

theorem compare?_self (h : a.den ≠ 0) : compare? a a = some .eq :=
  equal_iff.mpr ⟨_, quotient?_eq_some h, quotient?_eq_some h⟩

theorem eq_of_compare? (ha : Nat.Coprime a.num a.den) (hb : Nat.Coprime b.num b.den)
    (h : compare? a b = some .eq) : a = b :=
  eq_of_coprime ha hb (compare?_eq_some_eq.mp h).right.right

/--
Ratios are in the order of their quotients.  Two ratios compare as equal exactly where they
have one quotient; equal ratios do where they have a denominator, and ratios in lowest terms
that do are equal.  Comparing the other way round gives the reverse, and both orders are
transitive, whatever the terms in the middle are.
-/
theorem comparisons_order_quotients (a b c : Ratio) :
    (compare? a b = some .eq ↔ exists q, a.quotient? = some q ∧ b.quotient? = some q) ∧
      (a = b -> a.den ≠ 0 -> compare? a b = some .eq) ∧
      (Nat.Coprime a.num a.den -> Nat.Coprime b.num b.den ->
        compare? a b = some .eq -> a = b) ∧
      compare? b a = (compare? a b).map Ordering.swap ∧
      (a < b -> b < c -> a < c) ∧
      (a ≤ b -> b ≤ c -> a ≤ c) := by
  refine ⟨equal_iff, ?_, eq_of_compare?, compare?_swap a b, ?_, ?_⟩
  · intro h hden
    cases h
    exact compare?_self hden
  · intro hab hbc
    exact lt_iff.mpr ((lt_iff.mp hab).trans (lt_iff.mp hbc))
  · intro hab hbc
    exact le_iff.mpr ((le_iff.mp hab).trans (le_iff.mp hbc))

/-- A rate in lowest terms, and a chain of ratios of which two stand for zero. -/
theorem comparisons_order_quotients_zero :
    reduce ⟨60000, 2002⟩ = ⟨30000, 1001⟩ ∧
      compare? ⟨60000, 2002⟩ ⟨60000, 2002⟩ = some .eq ∧
      (exists q, quotient? ⟨0, 3⟩ = some q ∧ quotient? ⟨0, 7⟩ = some q) ∧
      (⟨0, 3⟩ : Ratio) ≤ ⟨0, 7⟩ ∧ (⟨0, 7⟩ : Ratio) ≤ ⟨1, 2⟩ ∧ (⟨0, 3⟩ : Ratio) ≤ ⟨1, 2⟩ ∧
      (⟨0, 7⟩ : Ratio) < ⟨1, 2⟩ ∧ (⟨1, 2⟩ : Ratio) < ⟨2, 3⟩ ∧ (⟨0, 7⟩ : Ratio) < ⟨2, 3⟩ := by
  have hreduced : compare? (reduce ⟨60000, 2002⟩) ⟨30000, 1001⟩ = some .eq := by
    rw [(multiple_reduce rfl).compare?_left]
    decide
  rcases comparisons_order_quotients (reduce ⟨60000, 2002⟩) ⟨30000, 1001⟩ ⟨25, 1⟩ with
    ⟨_, _, hlowest, _⟩
  rcases comparisons_order_quotients ⟨60000, 2002⟩ ⟨60000, 2002⟩ ⟨25, 1⟩ with ⟨_, hself, _⟩
  rcases comparisons_order_quotients ⟨0, 3⟩ ⟨0, 7⟩ ⟨1, 2⟩ with ⟨hequal, _, _, _, _, hle⟩
  rcases comparisons_order_quotients ⟨0, 7⟩ ⟨1, 2⟩ ⟨2, 3⟩ with ⟨_, _, _, _, hlt, _⟩
  have hzero : (⟨0, 3⟩ : Ratio) ≤ ⟨0, 7⟩ := by decide
  have hhalf : (⟨0, 7⟩ : Ratio) ≤ ⟨1, 2⟩ := by decide
  have hbelow : (⟨0, 7⟩ : Ratio) < ⟨1, 2⟩ := by decide
  have habove : (⟨1, 2⟩ : Ratio) < ⟨2, 3⟩ := by decide
  exact ⟨hlowest (coprime_reduce rfl) (by decide) hreduced, hself rfl (by decide),
    hequal.mp (by decide), hzero, hhalf, hle hzero hhalf, hbelow, habove, hlt hbelow habove⟩

/-- Two spellings of a half compare as equal and differ, and a ratio without a denominator
equals itself and does not compare with itself. -/
theorem equality_is_of_terms :
    (compare? ⟨1, 2⟩ ⟨2, 4⟩ = some .eq ∧ (⟨1, 2⟩ : Ratio) ≠ ⟨2, 4⟩) ∧
      compare? ⟨1, 0⟩ ⟨1, 0⟩ = none ∧
      ¬ forall a b : Ratio, a.Words -> b.Words -> (compare? a b = some .eq ↔ a = b) := by
  have hequal : compare? ⟨1, 2⟩ ⟨2, 4⟩ = some .eq := by decide
  have hne : (⟨1, 2⟩ : Ratio) ≠ ⟨2, 4⟩ := by decide
  refine ⟨⟨hequal, hne⟩, by decide, ?_⟩
  intro h
  exact hne ((h ⟨1, 2⟩ ⟨2, 4⟩ ⟨by decide, by decide⟩ ⟨by decide, by decide⟩).mp hequal)

end Ratio
end RawVideo

import Mathlib.Algebra.Order.Ring.Nat
import Mathlib.Data.Nat.GCD.Basic
import RawVideo.Proofs.Text.Numeral

/-!
# Ratios in lowest terms

Reducing a ratio divides both terms by the number that the loop of remainders stops with.
What is left is coprime and has the same value, so it is one ratio for all ratios of that
value, and it compares with other ratios as they do.
-/

namespace RawVideo
namespace Ratio

variable {a b r s : Ratio} {k m n d rounds : Nat}

/-!
## The loop of remainders
-/

/-- The loop stops with a number after some rounds.  A round goes on with the second number
and the remainder, and there is none once the second number is zero. -/
inductive Stops : Nat -> Nat -> Nat -> Nat -> Prop where
  | done (m : Nat) : Stops 0 m 0 m
  | round {rounds m n d : Nat} (hn : n ≠ 0) (h : Stops rounds n (m % n) d) :
      Stops (rounds + 1) m n d

theorem gcd_round (m n : Nat) : Nat.gcd n (m % n) = Nat.gcd m n := by
  rw [Nat.gcd_comm n, ← Nat.gcd_rec, Nat.gcd_comm]

/-- A round keeps the greatest common divisor, so the loop stops with it. -/
theorem Stops.eq_gcd (h : Stops rounds m n d) : d = Nat.gcd m n := by
  induction h with
  | done m => exact (Nat.gcd_zero_right m).symm
  | round hn h ih => rw [ih, gcd_round]

/-- A remainder is less than the number it is left by, so the loop stops. -/
theorem exists_stops (m n : Nat) :
    exists rounds, rounds ≤ n ∧ Stops rounds m n (divisor m n) := by
  fun_induction divisor m n with
  | case1 m => exact ⟨0, Nat.le_refl 0, Stops.done m⟩
  | case2 m n ih =>
      rcases ih with ⟨rounds, hle, h⟩
      have hlt : m % (n + 1) < n + 1 := Nat.mod_lt m (Nat.succ_pos n)
      exact ⟨rounds + 1, by omega, Stops.round (Nat.succ_ne_zero n) h⟩

theorem divisor_eq_gcd (m n : Nat) : divisor m n = Nat.gcd m n := by
  rcases exists_stops m n with ⟨rounds, _, h⟩
  exact h.eq_gcd

/-!
## Multiples
-/

/-- Both terms of a ratio are those of another one, multiplied by a number. -/
structure Multiple (k : Nat) (r s : Ratio) : Prop where
  pos : 0 < k
  num : r.num = k * s.num
  den : r.den = k * s.den

theorem Multiple.value (h : Multiple k r s) : r.num * s.den = s.num * r.den := by
  rw [h.num, h.den, Nat.mul_comm k, Nat.mul_assoc]

theorem Multiple.den_eq_zero_iff (h : Multiple k r s) : r.den = 0 ↔ s.den = 0 := by
  rw [h.den, Nat.mul_eq_zero]
  exact or_iff_right (Nat.ne_of_gt h.pos)

theorem isUnknown_eq_false : r.isUnknown = false ↔ r.num ≠ 0 ∧ r.den ≠ 0 := by
  unfold isUnknown
  rw [Bool.or_eq_false_iff, beq_eq_false_iff_ne, beq_eq_false_iff_ne]

theorem divisor_pos (h : r.isUnknown = false) : 0 < divisor r.num r.den := by
  rw [divisor_eq_gcd]
  exact Nat.gcd_pos_of_pos_right _ (Nat.pos_of_ne_zero (isUnknown_eq_false.mp h).right)

theorem reduce_eq (h : r.isUnknown = false) :
    r.reduce = ⟨r.num / divisor r.num r.den, r.den / divisor r.num r.den⟩ := by
  unfold reduce
  rw [h]
  rfl

theorem multiple_reduce (h : r.isUnknown = false) :
    Multiple (divisor r.num r.den) r r.reduce := by
  have hnum : divisor r.num r.den ∣ r.num := divisor_eq_gcd r.num r.den ▸ Nat.gcd_dvd_left _ _
  have hden : divisor r.num r.den ∣ r.den := divisor_eq_gcd r.num r.den ▸ Nat.gcd_dvd_right _ _
  rw [reduce_eq h]
  exact ⟨divisor_pos h, (Nat.mul_div_cancel' hnum).symm, (Nat.mul_div_cancel' hden).symm⟩

theorem coprime_reduce (h : r.isUnknown = false) : Nat.Coprime r.reduce.num r.reduce.den := by
  have hpos := divisor_pos h
  rw [reduce_eq h]
  dsimp only
  rw [divisor_eq_gcd] at hpos ⊢
  exact Nat.coprime_div_gcd_div_gcd hpos

theorem reduce_of_coprime (h : Nat.Coprime r.num r.den) : r.reduce = r := by
  unfold reduce
  split
  · rfl
  · rw [divisor_eq_gcd, h, Nat.div_one, Nat.div_one]

/-- A ratio in lowest terms is the only one of its value. -/
theorem eq_of_coprime (h : Nat.Coprime r.num r.den) (h' : Nat.Coprime s.num s.den)
    (hvalue : r.num * s.den = s.num * r.den) : r = s := by
  have hnum : r.num = s.num := by
    apply Nat.dvd_antisymm
    · exact h.dvd_of_dvd_mul_right ⟨s.den, hvalue.symm⟩
    · exact h'.dvd_of_dvd_mul_right ⟨r.den, hvalue⟩
  have hden : r.den = s.den := by
    apply Nat.dvd_antisymm
    · exact h.symm.dvd_of_dvd_mul_left ⟨s.num, by rw [hvalue, Nat.mul_comm]⟩
    · exact h'.symm.dvd_of_dvd_mul_left ⟨r.num, by rw [← hvalue, Nat.mul_comm]⟩
  cases r
  cases s
  cases hnum
  cases hden
  rfl

/-!
## The order
-/

theorem compare?_swap (r s : Ratio) : compare? s r = (compare? r s).map Ordering.swap := by
  unfold compare?
  by_cases hzero : r.den = 0 ∨ s.den = 0
  · rw [if_pos hzero, if_pos hzero.symm, Option.map_none]
  · rw [if_neg hzero, if_neg (mt Or.symm hzero), Option.map_some, Nat.compare_swap]

theorem compare?_eq_some_eq :
    compare? r s = some .eq ↔
      r.den ≠ 0 ∧ s.den ≠ 0 ∧ r.num * s.den = s.num * r.den := by
  unfold compare?
  split
  next hzero =>
    constructor
    · intro h
      cases h
    · intro h
      exact (hzero.elim h.left h.right.left).elim
  next hne =>
    rw [not_or] at hne
    rw [Option.some_inj, Nat.compare_eq_eq, and_iff_right hne.left, and_iff_right hne.right]

theorem compare_mul_left (hk : 0 < k) (m n : Nat) : compare (k * m) (k * n) = compare m n := by
  rw [← cmp_eq_compare, ← cmp_eq_compare]
  exact cmp_mul_pos_left hk m n

theorem Multiple.compare?_left (h : Multiple k r s) (c : Ratio) :
    s.compare? c = r.compare? c := by
  unfold compare?
  simp only [h.den_eq_zero_iff]
  split
  · rfl
  · rw [h.num, h.den, Nat.mul_assoc, Nat.mul_left_comm c.num, compare_mul_left h.pos]

theorem Multiple.compare?_right (h : Multiple k r s) (c : Ratio) :
    c.compare? s = c.compare? r := by
  rw [compare?_swap s, h.compare?_left c, ← compare?_swap]

theorem reduce_eq_iff (ha : a.isUnknown = false) (hb : b.isUnknown = false) :
    a.reduce = b.reduce ↔ compare? a b = some .eq := by
  have hcompare : compare? a b = compare? a.reduce b.reduce := by
    rw [← (multiple_reduce ha).compare?_left b, (multiple_reduce hb).compare?_right]
  rw [hcompare, compare?_eq_some_eq]
  constructor
  · intro h
    rw [h]
    have hden : b.reduce.den ≠ 0 :=
      mt (multiple_reduce hb).den_eq_zero_iff.mpr (isUnknown_eq_false.mp hb).right
    exact ⟨hden, hden, rfl⟩
  · intro h
    exact eq_of_coprime (coprime_reduce ha) (coprime_reduce hb) h.right.right

/-!
## Words
-/

theorem words_reduce (h : r.Words) : r.reduce.Words := by
  unfold reduce
  split
  · exact h
  · exact ⟨Nat.lt_of_le_of_lt (Nat.div_le_self _ _) h.num,
      Nat.lt_of_le_of_lt (Nat.div_le_self _ _) h.den⟩

/-- The products of a comparison fit 64 bits. -/
theorem Words.product_lt (hr : r.Words) (hs : s.Words) : r.num * s.den < UInt64.size :=
  Nat.mul_lt_mul'' hr.num hs.den

/--
Ratios are reduced to canonical forms.  The loop of remainders stops, with a divisor that is
not zero, and dividing by it leaves coprime terms of the same value, which reducing keeps.  Two
ratios have one reduced form exactly where they compare as equal, a reduced ratio compares with
every ratio as the ratio itself does, and no product of a comparison is too large for 64 bits.
-/
theorem reduced_ratios_canonical {a b : Ratio} (ha : a.isUnknown = false)
    (hb : b.isUnknown = false) :
    (exists rounds, rounds ≤ a.den ∧ Stops rounds a.num a.den (divisor a.num a.den)) ∧
      divisor a.num a.den ≠ 0 ∧
      Nat.Coprime a.reduce.num a.reduce.den ∧
      a.num * a.reduce.den = a.reduce.num * a.den ∧
      a.reduce.reduce = a.reduce ∧
      (a.reduce = b.reduce ↔ compare? a b = some .eq) ∧
      (forall c, compare? a.reduce c = compare? a c ∧ compare? c a.reduce = compare? c a) ∧
      (a.Words -> a.reduce.Words) ∧
      forall r s : Ratio, r.Words -> s.Words ->
        r.num * s.den < UInt64.size ∧ s.num * r.den < UInt64.size := by
  have hmultiple := multiple_reduce ha
  have hcoprime := coprime_reduce ha
  exact ⟨exists_stops a.num a.den, Nat.ne_of_gt (divisor_pos ha), hcoprime, hmultiple.value,
    reduce_of_coprime hcoprime, reduce_eq_iff ha hb,
    fun c => ⟨hmultiple.compare?_left c, hmultiple.compare?_right c⟩, words_reduce,
    fun r s hr hs => ⟨hr.product_lt hs, hs.product_lt hr⟩⟩

/-- Two spellings of one frame rate, compared with a third rate. -/
theorem reduced_ratios_canonical_ntsc :
    reduce ⟨60000, 2002⟩ = reduce ⟨30000, 1001⟩ ∧
      Nat.Coprime (reduce ⟨60000, 2002⟩).num (reduce ⟨60000, 2002⟩).den ∧
      60000 * (reduce ⟨60000, 2002⟩).den = (reduce ⟨60000, 2002⟩).num * 2002 ∧
      compare? (reduce ⟨60000, 2002⟩) ⟨25, 1⟩ = some .gt ∧
      compare? ⟨25, 1⟩ (reduce ⟨60000, 2002⟩) = some .lt ∧
      (reduce ⟨60000, 2002⟩).Words := by
  have hequal : compare? ⟨60000, 2002⟩ ⟨30000, 1001⟩ = some .eq := by decide
  have habove : compare? ⟨60000, 2002⟩ ⟨25, 1⟩ = some .gt := by decide
  have hbelow : compare? ⟨25, 1⟩ ⟨60000, 2002⟩ = some .lt := by decide
  rcases reduced_ratios_canonical (a := ⟨60000, 2002⟩) (b := ⟨30000, 1001⟩) rfl rfl with
    ⟨_, _, hcoprime, hvalue, _, hiff, hcompare, hwords, _⟩
  rcases hcompare ⟨25, 1⟩ with ⟨hleft, hright⟩
  exact ⟨hiff.mpr hequal, hcoprime, hvalue, hleft.trans habove, hright.trans hbelow,
    hwords ⟨by decide, by decide⟩⟩

end Ratio
end RawVideo

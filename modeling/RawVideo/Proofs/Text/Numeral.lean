import Mathlib.Data.List.TakeDrop
import Mathlib.Data.List.TakeWhile
import RawVideo.Ratio

/-!
# Numerals read back

A numeral is read exactly where a text spells a number below the bound, and two
numerals with a colon between them are read as a ratio.  So reading the digits of a
number gives the number back, and reading the text of a ratio gives the ratio back.
-/

namespace RawVideo

theorem span_append_cons {α : Type} [DecidableEq α] {separator : α} {before : List α}
    (h : separator ∉ before) (after : List α) :
    (before ++ separator :: after).span (· != separator) = (before, separator :: after) := by
  have hbefore : forall a, a ∈ before -> (a != separator) = true := by
    intro a ha
    rw [bne_iff_ne]
    intro heq
    exact h (heq ▸ ha)
  have hseparator : ¬ (separator != separator) = true := by
    rw [bne_iff_ne]
    exact fun hne => hne rfl
  have htake : (separator :: after).takeWhile (fun a => a != separator) = [] :=
    List.takeWhile_cons_of_neg hseparator
  have hdrop : (separator :: after).dropWhile (fun a => a != separator) = separator :: after :=
    List.dropWhile_cons_of_neg hseparator
  rw [List.span_eq_takeWhile_dropWhile, List.takeWhile_append_of_pos hbefore,
    List.dropWhile_append_of_pos hbefore, htake, hdrop, List.append_nil]

theorem span_of_not_mem {α : Type} [DecidableEq α] {separator : α} {xs : List α}
    (h : separator ∉ xs) : xs.span (· != separator) = (xs, []) := by
  have hxs : forall a, a ∈ xs -> (a != separator) = true := by
    intro a ha
    rw [bne_iff_ne]
    intro heq
    exact h (heq ▸ ha)
  rw [List.span_eq_takeWhile_dropWhile, List.takeWhile_eq_self_iff.mpr hxs,
    List.dropWhile_eq_nil_iff.mpr hxs]

namespace Decimal

/-!
## Digits
-/

theorem isDigit_of_mem_render {n : Nat} {c : Char} (h : c ∈ render n) : c.isDigit = true :=
  Nat.isDigit_of_mem_toDigits (by decide) (by decide) h

theorem render_ne_nil (n : Nat) : render n ≠ [] :=
  Nat.toDigits_ne_nil

theorem length_render_le {n : Nat} (h : n < UInt32.size) : (render n).length ≤ 10 := by
  apply (Nat.length_toDigits_le_iff (by decide) (by decide)).mpr
  exact Nat.lt_of_lt_of_le h (by decide)

theorem digit?_eq {c : Char} (h : c.isDigit = true) : digit? c = some (c.toNat - '0'.toNat) := by
  unfold Char.isDigit at h
  rw [Bool.and_eq_true, decide_eq_true_eq, decide_eq_true_eq] at h
  exact if_pos h

/-!
## Reading
-/

theorem valueFrom?_eq {text : List Char} (h : forall c, c ∈ text -> c.isDigit = true)
    (acc : Nat) : valueFrom? acc text = some (Nat.ofDigitChars 10 text acc) := by
  induction text generalizing acc with
  | nil => rfl
  | cons c rest ih =>
      rw [List.forall_mem_cons] at h
      unfold valueFrom?
      rw [digit?_eq h.left]
      exact ih h.right _

theorem valueFrom?_eq_some {text : List Char} {acc n : Nat} :
    valueFrom? acc text = some n ↔
      (forall c, c ∈ text -> c.isDigit = true) ∧ Nat.ofDigitChars 10 text acc = n := by
  constructor
  · intro h
    have hdigits : forall c, c ∈ text -> c.isDigit = true := by
      induction text generalizing acc with
      | nil => exact fun c hc => (List.not_mem_nil hc).elim
      | cons c rest ih =>
          unfold valueFrom? at h
          split at h
          next d hd =>
            rw [List.forall_mem_cons]
            refine ⟨?_, ih h⟩
            unfold digit? at hd
            split at hd
            next hrange =>
              unfold Char.isDigit
              rw [Bool.and_eq_true, decide_eq_true_eq, decide_eq_true_eq]
              exact hrange
            next => cases hd
          next => cases h
    rw [valueFrom?_eq hdigits] at h
    exact ⟨hdigits, Option.some.inj h⟩
  · intro h
    rw [valueFrom?_eq h.left, h.right]

/-- A text spells a number by its digits, with at most one plus sign in front. -/
def Spells (text : List Char) (n : Nat) : Prop :=
  exists digits, (text = digits ∨ text = '+' :: digits) ∧ digits ≠ [] ∧
    (forall c, c ∈ digits -> c.isDigit = true) ∧ Nat.ofDigitChars 10 digits 0 = n

theorem value?_eq_some {text : List Char} {n : Nat} :
    value? text = some n ↔ text ≠ [] ∧ (forall c, c ∈ text -> c.isDigit = true) ∧
      Nat.ofDigitChars 10 text 0 = n := by
  cases text with
  | nil =>
      constructor
      · intro h
        cases h
      · intro h
        exact (h.left rfl).elim
  | cons c rest =>
      unfold value?
      rw [valueFrom?_eq_some]
      exact (and_iff_right (List.cons_ne_nil c rest)).symm

theorem unsigned_cases (text : List Char) :
    text = unsigned text ∨ text = '+' :: unsigned text := by
  unfold unsigned
  split
  next cs => exact Or.inr rfl
  next => exact Or.inl rfl

theorem unsigned_of_digits {text : List Char} (h : forall c, c ∈ text -> c.isDigit = true) :
    unsigned text = text := by
  unfold unsigned
  split
  next cs =>
    have hplus := h '+' List.mem_cons_self
    cases hplus
  next => rfl

theorem value?_unsigned {text : List Char} {n : Nat} :
    value? (unsigned text) = some n ↔ Spells text n := by
  rw [value?_eq_some]
  constructor
  · intro h
    exact ⟨unsigned text, unsigned_cases text, h⟩
  · intro h
    rcases h with ⟨digits, hsign, hdigits⟩
    cases hsign with
    | inl htext =>
        rw [htext, unsigned_of_digits hdigits.right.left]
        exact hdigits
    | inr htext =>
        rw [htext]
        exact hdigits

theorem parse?_eq_some {text : List Char} {n bound : Nat} :
    parse? bound text = some n ↔ Spells text n ∧ n < bound := by
  unfold parse?
  rw [← value?_unsigned]
  cases value? (unsigned text) with
  | none =>
      constructor
      · intro h
        cases h
      · intro h
        cases h.left
  | some m =>
      dsimp only
      split
      next hlt =>
        constructor
        · intro h
          cases h
          exact ⟨rfl, hlt⟩
        · intro h
          exact h.left
      next hge =>
        constructor
        · intro h
          cases h
        · intro h
          rcases h with ⟨hm, hn⟩
          cases hm
          exact absurd hn hge

theorem spells_render (n : Nat) : Spells (render n) n :=
  ⟨render n, Or.inl rfl, render_ne_nil n, fun _ hc => isDigit_of_mem_render hc,
    Nat.ofDigitChars_ten_toDigits⟩

theorem parse?_render {n bound : Nat} (h : n < bound) : parse? bound (render n) = some n :=
  parse?_eq_some.mpr ⟨spells_render n, h⟩

end Decimal

namespace Ratio

/-- Both terms of a ratio fit 32 bits. -/
structure Words (r : Ratio) : Prop where
  num : r.num < UInt32.size
  den : r.den < UInt32.size

theorem parse_eq_ok {text : List Char} {r : Ratio} :
    parse text = .ok r ↔ exists before after, text = before ++ ':' :: after ∧ ':' ∉ before ∧
      (Decimal.Spells before r.num ∧ r.num < UInt32.size) ∧
        Decimal.Spells after r.den ∧ r.den < UInt32.size := by
  unfold parse
  simp only [← Decimal.parse?_eq_some]
  by_cases hcolon : ':' ∈ text
  · rcases List.eq_append_cons_of_mem hcolon with ⟨before, after, rfl, hbefore⟩
    rw [span_append_cons hbefore]
    dsimp only
    constructor
    · intro h
      refine ⟨before, after, rfl, hbefore, ?_⟩
      split at h
      next num den hnum hden =>
        cases h
        exact ⟨hnum, hden⟩
      next => cases h
      next => cases h
    · intro h'
      rcases h' with ⟨before', after', htext, hbefore', hnum, hden⟩
      have hsplit := span_append_cons hbefore' after'
      rw [← htext, span_append_cons hbefore] at hsplit
      cases hsplit
      rw [hnum, hden]
  · rw [span_of_not_mem hcolon]
    constructor
    · intro h
      cases h
    · intro h'
      rcases h' with ⟨before, after, rfl, _⟩
      exact (hcolon (List.mem_append_right _ List.mem_cons_self)).elim

theorem parse_render {r : Ratio} (h : r.Words) : parse r.render = .ok r := by
  have hcolon : ':' ∉ Decimal.render r.num := by
    intro hmem
    have hdigit := Decimal.isDigit_of_mem_render hmem
    cases hdigit
  exact parse_eq_ok.mpr ⟨Decimal.render r.num, Decimal.render r.den, rfl, hcolon,
    ⟨Decimal.spells_render r.num, h.num⟩, Decimal.spells_render r.den, h.den⟩

theorem length_render_le {r : Ratio} (h : r.Words) : r.render.length ≤ 21 := by
  have hnum := Decimal.length_render_le h.num
  have hden := Decimal.length_render_le h.den
  unfold render
  rw [List.length_append, List.length_cons]
  omega

theorem words_orElse {r fallback : Ratio} (h : r.Words) (h' : fallback.Words) :
    (r.orElse fallback).Words := by
  unfold orElse
  split
  · exact h'
  · exact h

end Ratio
end RawVideo

import Mathlib.Algebra.Group.Nat.Defs
import RawVideo.Text.Utf8

/-!
# Texts in UTF-8

What is read as a text is exactly the encoding of that text.  A value above ASCII has a
leading byte, which announces how many bytes continue it, and six bits in each of those;
the ranges that the leading byte leaves to the first of them keep overlong forms,
surrogates and values above the last code point out.
-/

namespace RawVideo
namespace Utf8

variable {b first : UInt8} {bytes rest : List UInt8} {bits tails value low high : Nat} {c : Char}

/-!
## Encodings
-/

/-- The values that take this many continuing bytes. -/
def Takes (value : Nat) : Nat -> Prop
  | 0 => value < 0x80
  | 1 => 0x80 ≤ value ∧ value < 0x800
  | 2 => 0x800 ≤ value ∧ value < 0x10000
  | 3 => 0x10000 ≤ value ∧ value < 0x110000
  | _ => False

/-- The bits that announce this many continuing bytes. -/
def announcing : Nat -> Nat
  | 0 => 0
  | 1 => 0xc0
  | 2 => 0xe0
  | _ => 0xf0

def leadByte (value tails : Nat) : UInt8 :=
  UInt8.ofNat (announcing tails + value / 64 ^ tails)

def tailBytes (value : Nat) : Nat -> List UInt8
  | 0 => []
  | tails + 1 => UInt8.ofNat (0x80 + value / 64 ^ tails % 64) :: tailBytes value tails

theorem leadByte_zero (value : Nat) : leadByte value 0 = UInt8.ofNat value := by
  unfold leadByte
  rw [Nat.pow_zero, Nat.div_one]
  exact congrArg UInt8.ofNat (Nat.zero_add value)

theorem tailBytes_succ (value tails : Nat) :
    tailBytes value (tails + 1) =
      UInt8.ofNat (0x80 + value / 64 ^ tails % 64) :: tailBytes value tails := rfl

theorem exists_takes (c : Char) : exists tails, Takes c.toNat tails := by
  have hlast : c.toNat < 0x110000 := by
    rcases c.valid with h | h
    · exact Nat.lt_trans h (by decide)
    · exact h.right
  by_cases hone : c.toNat < 0x80
  · exact ⟨0, hone⟩
  · by_cases htwo : c.toNat < 0x800
    · exact ⟨1, Nat.le_of_not_lt hone, htwo⟩
    · by_cases hthree : c.toNat < 0x10000
      · exact ⟨2, Nat.le_of_not_lt htwo, hthree⟩
      · exact ⟨3, Nat.le_of_not_lt hthree, hlast⟩

theorem encodeChar_eq (h : Takes c.toNat tails) :
    String.utf8EncodeChar c = leadByte c.toNat tails :: tailBytes c.toNat tails := by
  unfold String.utf8EncodeChar
  rw [show c.val.toNat = c.toNat from rfl]
  dsimp only
  match tails, h with
  | 0, h =>
      have hvalue : c.toNat < 0x80 := h
      rw [if_pos (by omega)]
      simp [leadByte, announcing, tailBytes]
  | 1, h =>
      have hvalue : 0x80 ≤ c.toNat ∧ c.toNat < 0x800 := h
      have hlead : c.toNat / 64 % 0x20 = c.toNat / 64 := Nat.mod_eq_of_lt (by omega)
      rw [if_neg (by omega), if_pos (by omega), hlead]
      simp [leadByte, announcing, tailBytes, Nat.add_comm]
  | 2, h =>
      have hvalue : 0x800 ≤ c.toNat ∧ c.toNat < 0x10000 := h
      have hlead : c.toNat / 4096 % 0x10 = c.toNat / 4096 := Nat.mod_eq_of_lt (by omega)
      rw [if_neg (by omega), if_neg (by omega), if_pos (by omega), hlead]
      simp [leadByte, announcing, tailBytes, Nat.add_comm]
  | 3, h =>
      have hvalue : 0x10000 ≤ c.toNat ∧ c.toNat < 0x110000 := h
      have hlead : c.toNat / 262144 % 0x08 = c.toNat / 262144 := Nat.mod_eq_of_lt (by omega)
      rw [if_neg (by omega), if_neg (by omega), if_neg (by omega), hlead]
      simp [leadByte, announcing, tailBytes, Nat.add_comm]

/-!
## Bytes
-/

theorem toNat_ofNat_of_lt {n : Nat} (h : n < 256) : (UInt8.ofNat n).toNat = n := by
  rw [UInt8.toNat_ofNat']
  exact Nat.mod_eq_of_lt h

theorem inRange_iff :
    inRange low high b = true ↔ low ≤ b.toNat ∧ b.toNat ≤ high := by
  unfold inRange
  rw [Bool.and_eq_true, decide_eq_true_eq, decide_eq_true_eq]

/-!
## Continuing bytes
-/

theorem div_pow_succ (value tails : Nat) : value / 64 ^ (tails + 1) = value / 64 ^ tails / 64 := by
  rw [Nat.pow_succ, Nat.div_div_eq_div_mul]

theorem takeTails_tailBytes (value tails : Nat) (rest : List UInt8) :
    takeTails (value / 64 ^ tails) tails (tailBytes value tails ++ rest) =
      ⟨some (Char.ofNat value), rest⟩ := by
  induction tails with
  | zero =>
      rw [Nat.pow_zero, Nat.div_one]
      rfl
  | succ tails ih =>
      have hbyte : (UInt8.ofNat (0x80 + value / 64 ^ tails % 64)).toNat =
          0x80 + value / 64 ^ tails % 64 := toNat_ofNat_of_lt (by omega)
      have htail : isTail (UInt8.ofNat (0x80 + value / 64 ^ tails % 64)) = true := by
        unfold isTail
        rw [inRange_iff, hbyte]
        omega
      have hbits : 0x40 * (value / 64 ^ (tails + 1)) +
          payload (UInt8.ofNat (0x80 + value / 64 ^ tails % 64)) = value / 64 ^ tails := by
        unfold payload
        rw [hbyte, div_pow_succ]
        omega
      rw [tailBytes_succ, List.cons_append, takeTails]
      rw [if_pos htail, hbits]
      exact ih

theorem exists_value_of_takeTails (h : takeTails bits tails bytes = ⟨some c, rest⟩) :
    exists value, value / 64 ^ tails = bits ∧ c = Char.ofNat value ∧
      bytes = tailBytes value tails ++ rest := by
  induction tails generalizing bits bytes with
  | zero =>
      cases bytes <;> cases h <;> exact ⟨bits, by rw [Nat.pow_zero, Nat.div_one], rfl, rfl⟩
  | succ tails ih =>
      cases bytes with
      | nil => cases h
      | cons b bytes =>
          unfold takeTails at h
          split at h
          next htail =>
            rcases ih h with ⟨value, hvalue, hc, rfl⟩
            unfold isTail at htail
            rw [inRange_iff] at htail
            unfold payload at hvalue
            have hbyte : 0x80 + value / 64 ^ tails % 64 = b.toNat := by omega
            refine ⟨value, ?_, hc, ?_⟩
            · rw [div_pow_succ]
              omega
            · rw [tailBytes_succ, hbyte, UInt8.ofNat_toNat]
              rfl
          next => cases h

/-!
## Leading bytes
-/

theorem lead?_cases (h : lead? b = some (tails, low, high)) :
    (0xc2 ≤ b.toNat ∧ b.toNat ≤ 0xdf ∧ tails = 1 ∧ low = 0x80 ∧ high = 0xbf) ∨
    (b.toNat = 0xe0 ∧ tails = 2 ∧ low = 0xa0 ∧ high = 0xbf) ∨
    (b.toNat = 0xed ∧ tails = 2 ∧ low = 0x80 ∧ high = 0x9f) ∨
    (0xe1 ≤ b.toNat ∧ b.toNat ≤ 0xef ∧ b.toNat ≠ 0xed ∧ tails = 2 ∧ low = 0x80 ∧ high = 0xbf) ∨
    (b.toNat = 0xf0 ∧ tails = 3 ∧ low = 0x90 ∧ high = 0xbf) ∨
    (0xf1 ≤ b.toNat ∧ b.toNat ≤ 0xf3 ∧ tails = 3 ∧ low = 0x80 ∧ high = 0xbf) ∨
    (b.toNat = 0xf4 ∧ tails = 3 ∧ low = 0x80 ∧ high = 0x8f) := by
  unfold lead? at h
  simp only [inRange_iff] at h
  repeat' split at h
  all_goals cases h <;> omega

theorem leadBits_one (b : UInt8) : leadBits 1 b = b.toNat % 32 := rfl

theorem leadBits_two (b : UInt8) : leadBits 2 b = b.toNat % 16 := rfl

theorem leadBits_three (b : UInt8) : leadBits 3 b = b.toNat % 8 := rfl

theorem toNat_leadByte (h : Takes value tails) :
    (leadByte value tails).toNat = announcing tails + value / 64 ^ tails := by
  apply toNat_ofNat_of_lt
  match tails, h with
  | 0, h =>
      have hvalue : value < 0x80 := h
      simp only [announcing, Nat.pow_zero]
      omega
  | 1, h =>
      have hvalue : 0x80 ≤ value ∧ value < 0x800 := h
      simp only [announcing, Nat.pow_one]
      omega
  | 2, h =>
      have hvalue : 0x800 ≤ value ∧ value < 0x10000 := h
      simp only [announcing, Nat.reducePow]
      omega
  | 3, h =>
      have hvalue : 0x10000 ≤ value ∧ value < 0x110000 := h
      simp only [announcing, Nat.reducePow]
      omega

theorem spec_of_lead? (h : lead? b = some (tails + 1, low, high))
    (hfirst : inRange low high first = true)
    (hvalue : value / 64 ^ tails = 0x40 * leadBits (tails + 1) b + payload first) :
    Takes value (tails + 1) ∧ value.isValidChar ∧ leadByte value (tails + 1) = b ∧
      UInt8.ofNat (0x80 + value / 64 ^ tails % 64) = first := by
  have hspec : Takes value (tails + 1) ∧ value.isValidChar ∧
      announcing (tails + 1) + value / 64 ^ (tails + 1) = b.toNat ∧
      0x80 + value / 64 ^ tails % 64 = first.toNat := by
    have hb := b.toNat_lt
    rw [inRange_iff] at hfirst
    unfold payload at hvalue
    rw [div_pow_succ]
    unfold Nat.isValidChar
    have htails : tails = 0 ∨ tails = 1 ∨ tails = 2 := by
      have hcases := lead?_cases h
      omega
    have hcases := lead?_cases h
    rcases htails with rfl | rfl | rfl
    · rw [leadBits_one, Nat.pow_zero, Nat.div_one] at hvalue
      simp only [Takes, announcing, Nat.pow_zero, Nat.div_one]
      omega
    · rw [leadBits_two, Nat.pow_one] at hvalue
      simp only [Takes, announcing, Nat.pow_one]
      omega
    · rw [leadBits_three, show (64 : Nat) ^ 2 = 4096 from rfl] at hvalue
      simp only [Takes, announcing, Nat.reducePow]
      omega
  rcases hspec with ⟨htakes, hvalid, hlead, htail⟩
  refine ⟨htakes, hvalid, ?_, ?_⟩
  · unfold leadByte
    rw [hlead, UInt8.ofNat_toNat]
  · rw [htail, UInt8.ofNat_toNat]

theorem exists_lead? (h : Takes value (tails + 1)) (hvalid : value.isValidChar)
    (hlead : b.toNat = announcing (tails + 1) + value / 64 ^ (tails + 1))
    (hfirst : first.toNat = 0x80 + value / 64 ^ tails % 64) :
    leadBits (tails + 1) b = value / 64 ^ (tails + 1) ∧
      exists low high, lead? b = some (tails + 1, low, high) ∧
        inRange low high first = true := by
  unfold Nat.isValidChar at hvalid
  unfold lead?
  simp only [inRange_iff]
  match tails, h with
  | 0, h =>
      have hvalue : 0x80 ≤ value ∧ value < 0x800 := h
      simp only [announcing, Nat.reducePow, Nat.reduceAdd] at hlead hfirst ⊢
      refine ⟨by rw [leadBits_one]; omega, 0x80, 0xbf, if_pos (by omega), by omega⟩
  | 1, h =>
      have hvalue : 0x800 ≤ value ∧ value < 0x10000 := h
      simp only [announcing, Nat.reducePow, Nat.reduceAdd] at hlead hfirst ⊢
      refine ⟨by rw [leadBits_two]; omega, ?_⟩
      rw [if_neg (by omega)]
      split
      next => exact ⟨_, _, rfl, by omega⟩
      next =>
        split
        next => exact ⟨_, _, rfl, by omega⟩
        next => exact ⟨0x80, 0xbf, if_pos (by omega), by omega⟩
  | 2, h =>
      have hvalue : 0x10000 ≤ value ∧ value < 0x110000 := h
      simp only [announcing, Nat.reducePow, Nat.reduceAdd] at hlead hfirst ⊢
      refine ⟨by rw [leadBits_three]; omega, ?_⟩
      iterate 4 rw [if_neg (by omega)]
      split
      next => exact ⟨_, _, rfl, by omega⟩
      next =>
        split
        next => exact ⟨_, _, rfl, by omega⟩
        next => exact ⟨0x80, 0x8f, if_pos (by omega), by omega⟩

/-!
## Characters
-/

theorem toNat_char (h : value.isValidChar) : (Char.ofNat value).toNat = value := by
  unfold Char.ofNat
  rw [dif_pos h]
  rfl

theorem step_encodeChar (c : Char) (rest : List UInt8) :
    exists b tail, String.utf8EncodeChar c = b :: tail ∧ step b (tail ++ rest) = ⟨some c, rest⟩ := by
  rcases exists_takes c with ⟨tails, htakes⟩
  refine ⟨leadByte c.toNat tails, tailBytes c.toNat tails, encodeChar_eq htakes, ?_⟩
  have hlead := toNat_leadByte htakes
  unfold step
  cases tails with
  | zero =>
      have hvalue : c.toNat < 0x80 := htakes
      have hsame : (leadByte c.toNat 0).toNat = c.toNat := by
        rw [hlead, Nat.pow_zero, Nat.div_one]
        exact Nat.zero_add _
      rw [hsame, if_pos hvalue, Char.ofNat_toNat]
      rfl
  | succ tails =>
      have hfirst := toNat_ofNat_of_lt (show 0x80 + c.toNat / 64 ^ tails % 64 < 256 by omega)
      rcases exists_lead? htakes c.valid hlead hfirst with ⟨hbits, low, high, hentry, hrange⟩
      have hlarge : ¬ (leadByte c.toNat (tails + 1)).toNat < 0x80 := by
        have hcases := lead?_cases hentry
        omega
      have hvalue : 0x40 * leadBits (tails + 1) (leadByte c.toNat (tails + 1)) +
          payload (UInt8.ofNat (0x80 + c.toNat / 64 ^ tails % 64)) = c.toNat / 64 ^ tails := by
        unfold payload
        rw [hbits, hfirst, div_pow_succ]
        omega
      rw [if_neg hlarge, hentry, tailBytes_succ, List.cons_append]
      dsimp only
      rw [if_pos hrange, hvalue, takeTails_tailBytes, Char.ofNat_toNat]

theorem encodeChar_of_step (h : step b bytes = ⟨some c, rest⟩) :
    b :: bytes = String.utf8EncodeChar c ++ rest := by
  unfold step at h
  split at h
  next hsmall =>
    cases h
    have hsame : (Char.ofNat b.toNat).toNat = b.toNat := toNat_char (Or.inl (by omega))
    have htakes : Takes (Char.ofNat b.toNat).toNat 0 := hsame.symm ▸ hsmall
    rw [encodeChar_eq htakes, hsame, leadByte_zero, UInt8.ofNat_toNat]
    rfl
  next =>
    split at h
    next tails low high first others hentry =>
      split at h
      next hrange =>
        rcases exists_value_of_takeTails h with ⟨value, hvalue, rfl, rfl⟩
        rcases spec_of_lead? hentry hrange hvalue with ⟨htakes, hvalid, hlead, hfirst⟩
        have hsame := toNat_char hvalid
        rw [encodeChar_eq (hsame.symm ▸ htakes), hsame, hlead, tailBytes_succ, hfirst]
        rfl
      next => cases h
    next => cases h

/-!
## Texts
-/

theorem pieces_cons (b : UInt8) (bytes : List UInt8) :
    pieces (b :: bytes) = (step b bytes).char? :: pieces (step b bytes).rest := by
  rw [pieces]

theorem pieces_encode (text : List Char) : pieces (encode text) = text.map some := by
  induction text with
  | nil => rw [encode, List.flatMap_nil, pieces, List.map_nil]
  | cons c text ih =>
      rcases step_encodeChar c (encode text) with ⟨b, tail, hencode, hstep⟩
      have hbytes : encode (c :: text) = b :: (tail ++ encode text) := by
        unfold encode
        rw [List.flatMap_cons, hencode, List.cons_append]
      rw [hbytes, pieces_cons, hstep, List.map_cons, ih]

theorem encode_of_pieces {text : List Char} (h : pieces bytes = text.map some) :
    encode text = bytes := by
  fun_induction pieces bytes generalizing text with
  | case1 =>
      rw [List.map_eq_nil_iff.mp h.symm]
      rfl
  | case2 b bytes ih =>
      cases text with
      | nil => cases h
      | cons c text =>
          injection h with hchar hrest
          have hstep : step b bytes = ⟨some c, (step b bytes).rest⟩ := by
            rw [← hchar]
          unfold encode at ih ⊢
          rw [encodeChar_of_step hstep, List.flatMap_cons, ih hrest]

theorem mapM_id_eq_some {α : Type} {xs : List (Option α)} {ys : List α} :
    xs.mapM id = some ys ↔ xs = ys.map some := by
  induction xs generalizing ys with
  | nil =>
      cases ys with
      | nil => exact ⟨fun _ => rfl, fun _ => rfl⟩
      | cons y ys =>
          constructor
          · intro h
            cases h
          · intro h
            cases h
  | cons x xs ih =>
      rw [List.mapM_cons]
      cases x with
      | none =>
          constructor
          · intro h
            cases h
          · intro h
            cases ys <;> cases h
      | some a =>
          constructor
          · intro h
            rcases Option.bind_eq_some_iff.mp h with ⟨a', ha, h⟩
            cases ha
            rcases Option.bind_eq_some_iff.mp h with ⟨others, hothers, hys⟩
            cases hys
            rw [ih.mp hothers, List.map_cons]
          · intro h
            cases ys with
            | nil => cases h
            | cons y ys =>
                injection h with hhead htail
                injection hhead with hhead
                rw [ih.mpr htail, hhead]
                rfl

/-- What is read as text is the encoding of that text, and nothing else. -/
theorem decode?_eq_some {text : List Char} : decode? bytes = some text ↔ encode text = bytes := by
  unfold decode?
  rw [mapM_id_eq_some]
  constructor
  · exact encode_of_pieces
  · intro h
    rw [← h]
    exact pieces_encode text

end Utf8
end RawVideo
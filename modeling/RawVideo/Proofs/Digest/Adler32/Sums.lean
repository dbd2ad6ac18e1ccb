import Mathlib
import RawVideo.Digest.Adler32.Basic

/-!
# Adler-32 in closed form

Both sums after some bytes, first without remainders and then modulo the base.
Sums modulo the base follow each other as their bytes do, so a kernel may take its
remainders wherever it likes, as long as each of its steps has the closed form.
The reference, with a remainder after every byte, has it.
-/

namespace RawVideo
namespace Adler32

variable {sums : Sums} {bytes other : List UInt8} {b : UInt8}

/-!
## Totals
-/

/-- The sum of some bytes. -/
def total (bytes : List UInt8) : Nat :=
  (bytes.map UInt8.toNat).sum

/-- The sum of some bytes, each counted once for every byte from it to the end. -/
def weighted (bytes : List UInt8) : Nat :=
  (bytes.mapIdx fun i b => (bytes.length - i) * b.toNat).sum

@[simp] theorem total_nil : total [] = 0 := rfl

@[simp] theorem weighted_nil : weighted [] = 0 := rfl

@[simp] theorem total_cons (b : UInt8) (rest : List UInt8) :
    total (b :: rest) = b.toNat + total rest := by
  simp [total]

@[simp] theorem weighted_cons (b : UInt8) (rest : List UInt8) :
    weighted (b :: rest) = (rest.length + 1) * b.toNat + weighted rest := by
  simp [weighted, List.mapIdx_cons]

@[simp] theorem total_append (bytes other : List UInt8) :
    total (bytes ++ other) = total bytes + total other := by
  simp [total]

theorem weighted_append (bytes other : List UInt8) :
    weighted (bytes ++ other) =
      weighted bytes + other.length * total bytes + weighted other := by
  induction bytes with
  | nil => simp
  | cons b rest ih =>
      simp only [List.cons_append, weighted_cons, total_cons, List.length_append, ih]
      ring

theorem total_le (bytes : List UInt8) : total bytes ≤ 255 * bytes.length := by
  induction bytes with
  | nil => simp
  | cons b rest ih =>
      have hb := b.toNat_lt
      simp only [total_cons, List.length_cons]
      omega

theorem weighted_le (bytes : List UInt8) :
    2 * weighted bytes ≤ 255 * (bytes.length * (bytes.length + 1)) := by
  induction bytes with
  | nil => simp
  | cons b rest ih =>
      have hb : b.toNat ≤ 255 := Nat.le_of_lt_succ b.toNat_lt
      have hfirst := Nat.mul_le_mul_left (rest.length + 1) hb
      simp only [weighted_cons, List.length_cons]
      calc 2 * ((rest.length + 1) * b.toNat + weighted rest)
          = 2 * ((rest.length + 1) * b.toNat) + 2 * weighted rest := by ring
        _ ≤ 2 * ((rest.length + 1) * 255) + 255 * (rest.length * (rest.length + 1)) :=
            Nat.add_le_add (Nat.mul_le_mul_left 2 hfirst) ih
        _ = 255 * ((rest.length + 1) * (rest.length + 1 + 1)) := by ring

/-!
## Packed sums
-/

namespace Sums

/-- Both sums fit half a machine word. -/
structure Bounded (sums : Sums) : Prop where
  low : sums.low.toNat < 65536
  high : sums.high.toNat < 65536

/-- The first sum after some bytes, without a remainder. -/
def lowAfter (sums : Sums) (bytes : List UInt8) : Nat :=
  sums.low.toNat + total bytes

/-- The second sum after some bytes, without a remainder. -/
def highAfter (sums : Sums) (bytes : List UInt8) : Nat :=
  sums.high.toNat + bytes.length * sums.low.toNat + weighted bytes

/-- Both sums after some bytes, modulo the base. -/
def after (sums : Sums) (bytes : List UInt8) : Sums :=
  ⟨UInt32.ofNat (sums.lowAfter bytes % base.toNat),
    UInt32.ofNat (sums.highAfter bytes % base.toNat)⟩

/-- Both sums after some bytes; without any byte there is no remainder either. -/
def advance (sums : Sums) (bytes : List UInt8) : Sums :=
  if bytes = [] then sums else sums.after bytes

end Sums

theorem toNat_mod_base (n : Nat) : (UInt32.ofNat (n % base.toNat)).toNat = n % base.toNat :=
  UInt32.toNat_ofNat_of_lt'
    (Nat.lt_trans (Nat.mod_lt n (show 0 < base.toNat by decide)) (by decide))

namespace Sums

theorem ext_toNat {other : Sums} (hlow : sums.low.toNat = other.low.toNat)
    (hhigh : sums.high.toNat = other.high.toNat) : sums = other := by
  cases sums with
  | mk low high =>
      cases other with
      | mk low' high' =>
          cases UInt32.toNat_inj.mp hlow
          cases UInt32.toNat_inj.mp hhigh
          rfl

@[simp] theorem toNat_low_after : (sums.after bytes).low.toNat =
    sums.lowAfter bytes % base.toNat :=
  toNat_mod_base _

@[simp] theorem toNat_high_after : (sums.after bytes).high.toNat =
    sums.highAfter bytes % base.toNat :=
  toNat_mod_base _

theorem bounded_after (sums : Sums) (bytes : List UInt8) : (sums.after bytes).Bounded := by
  constructor
  · rw [toNat_low_after]
    exact Nat.lt_trans (Nat.mod_lt _ (by decide)) (by decide)
  · rw [toNat_high_after]
    exact Nat.lt_trans (Nat.mod_lt _ (by decide)) (by decide)

theorem toNat_low_unpack (state : UInt32) : (unpack state).low.toNat = state.toNat % 65536 := by
  show (state &&& 0xffff).toNat = _
  rw [UInt32.toNat_and]
  exact Nat.and_two_pow_sub_one_eq_mod state.toNat 16

theorem toNat_high_unpack (state : UInt32) : (unpack state).high.toNat = state.toNat / 65536 := by
  show (state >>> 16).toNat = _
  rw [UInt32.toNat_shiftRight]
  exact Nat.shiftRight_eq_div_pow state.toNat 16

theorem bounded_unpack (state : UInt32) : (unpack state).Bounded := by
  have hstate := state.toNat_lt
  constructor
  · rw [toNat_low_unpack]
    exact Nat.mod_lt _ (by decide)
  · rw [toNat_high_unpack]
    omega

theorem Bounded.toNat_pack (h : sums.Bounded) :
    sums.pack.toNat = sums.high.toNat * 65536 + sums.low.toNat := by
  have hlow := h.low
  have hhigh := h.high
  have hshift : (sums.high <<< 16).toNat = sums.high.toNat <<< 16 := by
    rw [UInt32.toNat_shiftLeft]
    apply Nat.mod_eq_of_lt
    show sums.high.toNat <<< 16 < 2 ^ 32
    rw [Nat.shiftLeft_eq]
    omega
  show (sums.high <<< 16 ||| sums.low).toNat = _
  rw [UInt32.toNat_or, hshift, ← Nat.shiftLeft_add_eq_or_of_lt hlow, Nat.shiftLeft_eq]

theorem Bounded.unpack_pack (h : sums.Bounded) : unpack sums.pack = sums := by
  have hlow := h.low
  apply ext_toNat
  · rw [toNat_low_unpack, h.toNat_pack]
    omega
  · rw [toNat_high_unpack, h.toNat_pack]
    omega

/-!
## Bytes in pieces
-/

theorem after_after (sums : Sums) (bytes other : List UInt8) :
    (sums.after bytes).after other = sums.after (bytes ++ other) := by
  apply ext_toNat
  · simp only [toNat_low_after, lowAfter, total_append, Nat.mod_add_mod, Nat.add_assoc]
  · have hlow : other.length * (sums.after bytes).low.toNat ≡
        other.length * sums.lowAfter bytes [MOD base.toNat] := by
      rw [toNat_low_after]
      exact (Nat.mod_modEq _ _).mul_left _
    have hhigh : (sums.after bytes).high.toNat ≡ sums.highAfter bytes [MOD base.toNat] := by
      rw [toNat_high_after]
      exact Nat.mod_modEq _ _
    have hsum : sums.highAfter (bytes ++ other) =
        sums.highAfter bytes + other.length * sums.lowAfter bytes + weighted other := by
      simp only [highAfter, lowAfter, weighted_append, List.length_append]
      ring
    rw [toNat_high_after, toNat_high_after, hsum]
    exact (hhigh.add hlow).add_right _

@[simp] theorem advance_nil (sums : Sums) : sums.advance [] = sums :=
  if_pos rfl

theorem advance_of_ne_nil (h : bytes ≠ []) : sums.advance bytes = sums.after bytes :=
  if_neg h

theorem Bounded.advance (h : sums.Bounded) (bytes : List UInt8) :
    (sums.advance bytes).Bounded := by
  cases bytes with
  | nil => exact h
  | cons b rest => exact bounded_after sums (b :: rest)

theorem advance_append (sums : Sums) (bytes other : List UInt8) :
    (sums.advance bytes).advance other = sums.advance (bytes ++ other) := by
  cases bytes with
  | nil => rfl
  | cons b rest =>
      cases other with
      | nil => rw [advance_nil, List.append_nil]
      | cons b' rest' => exact after_after sums (b :: rest) (b' :: rest')

/-- A kernel that adds nonempty pieces in closed form adds all of them in closed form. -/
theorem Bounded.foldl_eq_advance {add : Sums -> List UInt8 -> Sums} {pieces : List (List UInt8)}
    (hadd : forall (sums : Sums) piece, sums.Bounded -> piece ∈ pieces ->
      add sums piece = sums.after piece)
    (hpieces : forall piece, piece ∈ pieces -> piece ≠ []) (h : sums.Bounded) :
    pieces.foldl add sums = sums.advance pieces.flatten := by
  induction pieces generalizing sums with
  | nil => rfl
  | cons piece rest ih =>
      rw [List.forall_mem_cons] at hpieces
      rw [List.foldl_cons, hadd sums piece h List.mem_cons_self,
        ← advance_of_ne_nil hpieces.left,
        ih (fun sums piece hb hmem => hadd sums piece hb (List.mem_cons_of_mem _ hmem))
          hpieces.right (h.advance piece), advance_append, List.flatten_cons]

/-!
## One remainder for each byte
-/

theorem Bounded.addReduced (h : sums.Bounded) (b : UInt8) :
    sums.addReduced b = sums.after [b] := by
  have hb := b.toNat_lt
  have hlow := h.low
  have hhigh := h.high
  have hbase : base.toNat = 65521 := rfl
  have hfirst : (sums.addReduced b).low.toNat = (sums.low.toNat + b.toNat) % 65521 := by
    show ((sums.low + b.toUInt32) % base).toNat = _
    rw [UInt32.toNat_mod, UInt32.toNat_add, UInt8.toNat_toUInt32, hbase]
    omega
  apply ext_toNat
  · rw [hfirst, toNat_low_after]
    simp [lowAfter, hbase]
  · show ((sums.high + (sums.addReduced b).low) % base).toNat = _
    rw [UInt32.toNat_mod, UInt32.toNat_add, hfirst, toNat_high_after, hbase]
    simp only [highAfter, weighted_cons, weighted_nil, List.length_singleton, List.length_nil]
    omega

theorem Bounded.foldl_addReduced (h : sums.Bounded) (bytes : List UInt8) :
    bytes.foldl Sums.addReduced sums = sums.advance bytes := by
  induction bytes generalizing sums with
  | nil => rfl
  | cons b rest ih =>
      rw [List.foldl_cons, h.addReduced b, ih (bounded_after sums [b]),
        ← advance_of_ne_nil (List.cons_ne_nil b []), advance_append, List.singleton_append]

end Sums

theorem updateScalar_eq (state : UInt32) (bytes : List UInt8) :
    updateScalar state bytes = ((Sums.unpack state).advance bytes).pack := by
  unfold updateScalar
  rw [(Sums.bounded_unpack state).foldl_addReduced]

end Adler32
end RawVideo

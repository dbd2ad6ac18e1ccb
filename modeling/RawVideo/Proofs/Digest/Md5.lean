import RawVideo.Digest.Md5

/-!
# MD5 in pieces

A message that is absorbed piece by piece leaves the same state and the same pending
bytes as the whole of it.  A padded message fills its last block, so the digest of a
context is the digest of all that it was fed.  Known answers tie the tables of the rounds
to the digest that they are meant for.
-/

namespace RawVideo
namespace Md5

variable {state : State} {bytes other : List UInt8}

/-!
## Absorbing
-/

namespace Context

theorem absorbAll_of_lt (state : State) (h : bytes.length < blockLength) :
    absorbAll state bytes = (state, bytes) := by
  rw [absorbAll, if_neg (Nat.not_le_of_lt h)]

theorem absorbAll_of_le (state : State) (h : blockLength ≤ bytes.length) :
    absorbAll state bytes =
      absorbAll (state.absorb (bytes.take blockLength)) (bytes.drop blockLength) := by
  rw [absorbAll, if_pos h]

theorem absorbAll_append (state : State) (bytes other : List UInt8) :
    absorbAll state (bytes ++ other) =
      absorbAll (absorbAll state bytes).1 ((absorbAll state bytes).2 ++ other) := by
  fun_induction absorbAll state bytes with
  | case1 state bytes hle ih =>
      have hboth : blockLength ≤ (bytes ++ other).length := by
        rw [List.length_append]
        exact Nat.le_add_right_of_le hle
      rw [absorbAll_of_le state hboth, List.take_append_of_le_length hle,
        List.drop_append_of_le_length hle]
      exact ih
  | case2 state bytes hlt => rfl

theorem absorbAll_eq_foldl (state : State) (h : blockLength ∣ bytes.length) :
    absorbAll state bytes = ((blocks blockLength bytes).foldl State.absorb state, []) := by
  fun_induction absorbAll state bytes with
  | case1 state bytes hle ih =>
      have hpos : 0 < blockLength := by decide
      have hrest : blockLength ∣ (bytes.drop blockLength).length := by
        rw [List.length_drop]
        exact Nat.dvd_sub h (Nat.dvd_refl _)
      rw [ih hrest, blocks_of_pos hpos (Nat.lt_of_lt_of_le hpos hle), List.foldl_cons]
  | case2 state bytes hlt =>
      have hnil : bytes = [] :=
        List.length_eq_zero_iff.mp (Nat.eq_zero_of_dvd_of_lt h (Nat.lt_of_not_le hlt))
      rw [hnil, blocks_nil]
      rfl

/-!
## Messages in pieces
-/

theorem update_update (context : Context) (bytes other : List UInt8) :
    (context.update bytes).update other = context.update (bytes ++ other) := by
  simp only [update, ← List.append_assoc, absorbAll_append context.state (context.pending ++ bytes),
    List.length_append, Nat.add_assoc]

theorem dvd_length_padding (length : Nat) : blockLength ∣ length + (padding length).length := by
  simp only [padding, List.length_append, List.length_cons, List.length_replicate,
    length_toLittleEndian, blockLength]
  omega

theorem finish_update (message : List UInt8) :
    (initial.update message).finish = digest message := by
  have hwhole : blockLength ∣ (message ++ padding message.length).length := by
    rw [List.length_append]
    exact dvd_length_padding message.length
  have happend := absorbAll_append State.initial message (padding message.length)
  rw [absorbAll_eq_foldl State.initial hwhole] at happend
  simp only [finish, update, initial, List.nil_append, Nat.zero_add, ← happend]
  rfl

-- The letters abc, in two pieces.
example : ((initial.update [0x61]).update [0x62, 0x63]).finish =
    [0x90, 0x01, 0x50, 0x98, 0x3c, 0xd2, 0x4f, 0xb0,
      0xd6, 0x96, 0x3f, 0x7d, 0x28, 0xe1, 0x7f, 0x72] := by
  decide +kernel

-- Eight times the digits from one to zero, which take two blocks.
example : digest ((List.range 80).map fun i => UInt8.ofNat (0x30 + (i + 1) % 10)) =
    [0x57, 0xed, 0xf4, 0xa2, 0x2b, 0xe3, 0xc9, 0x55,
      0xac, 0x49, 0xda, 0x2e, 0x21, 0x07, 0xb6, 0x7a] := by
  decide +kernel

end Context
end Md5
end RawVideo

import RawVideo.Proofs.Text.Utf8
import RawVideo.Stream.Frame

/-!
# ASCII texts

A text of ASCII characters takes one byte for each of them, and reads back from those
bytes as UTF-8.
-/

namespace RawVideo

/-- Every character is one of ASCII. -/
def Ascii (text : List Char) : Prop :=
  forall c, c ∈ text -> c.toNat < 0x80

/-- Every character is one of ASCII other than the newline. -/
def Inline (text : List Char) : Prop :=
  forall c, c ∈ text -> c.toNat < 0x80 ∧ c ≠ '\n'

theorem inline_iff_all {text : List Char} :
    (text.all fun c => decide (c.toNat < 0x80 ∧ c ≠ '\n')) = true ↔ Inline text := by
  unfold Inline
  simp only [List.all_eq_true, decide_eq_true_eq]

instance (text : List Char) : Decidable (Inline text) :=
  decidable_of_iff _ inline_iff_all

theorem Inline.ascii {text : List Char} (h : Inline text) : Ascii text :=
  fun c hc => (h c hc).left

theorem inline_append {text other : List Char} :
    Inline (text ++ other) ↔ Inline text ∧ Inline other :=
  List.forall_mem_append

theorem inline_cons {c : Char} {text : List Char} :
    Inline (c :: text) ↔ (c.toNat < 0x80 ∧ c ≠ '\n') ∧ Inline text :=
  List.forall_mem_cons

theorem toNat_toUInt8_of_lt {c : Char} (h : c.toNat < 0x80) : c.toUInt8.toNat = c.toNat := by
  show c.toNat % 256 = c.toNat
  exact Nat.mod_eq_of_lt (Nat.lt_trans h (by decide))

namespace Utf8

theorem encode_ascii {text : List Char} (h : Ascii text) :
    encode text = text.map Char.toUInt8 := by
  induction text with
  | nil => rfl
  | cons c rest ih =>
      unfold Ascii at h
      rw [List.forall_mem_cons] at h
      have htakes : Takes c.toNat 0 := h.left
      have hbyte : leadByte c.toNat 0 = c.toUInt8 := by
        rw [leadByte_zero, ← UInt8.toNat_inj, toNat_toUInt8_of_lt h.left]
        exact toNat_ofNat_of_lt (Nat.lt_trans h.left (by decide))
      unfold encode at ih ⊢
      rw [List.flatMap_cons, encodeChar_eq htakes, hbyte, ih h.right]
      rfl

end Utf8

namespace StreamFrame

theorem encode_ascii {text : String} (h : Inline text.toList) :
    Utf8.encode text.toList = ascii text :=
  Utf8.encode_ascii h.ascii

theorem newline_not_mem_ascii {text : String} (h : Inline text.toList) :
    newline ∉ ascii text := by
  intro hmem
  rcases List.mem_map.mp hmem with ⟨c, hc, hbyte⟩
  have hvalue := toNat_toUInt8_of_lt (h c hc).left
  rw [hbyte] at hvalue
  apply (h c hc).right
  rw [← Char.ofNat_toNat c, ← hvalue]
  rfl

theorem length_ascii (text : String) : (ascii text).length = text.toList.length :=
  List.length_map ..

end StreamFrame
end RawVideo

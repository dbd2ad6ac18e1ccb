import RawVideo.Proofs.Outcome
import RawVideo.Memory.Basic

/-!
# Painted memories

What a computation writes is an ink: the bytes that it may leave at each address.
A memory is painted when every address holds a byte of the ink, where the ink has
one, and its old byte elsewhere.  Inks of successive writes join, whatever they
share; only where an ink has a single byte for each address does it determine the
painted memory.
-/

namespace RawVideo

/-- The bytes that may be left at each address. -/
abbrev Ink := Nat -> UInt8 -> Prop

namespace Ink

/-- At most one byte for each address. -/
def Functional (ink : Ink) : Prop :=
  forall address b b', ink address b -> ink address b' -> b = b'

/-- A list of bytes from an address on. -/
def laid (start : Nat) (bytes : List UInt8) : Ink := fun address b =>
  exists i, address = start + i ∧ bytes[i]? = some b

/-- The bytes of another memory. -/
def copied (origin : Memory) (target source count : Nat) : Ink := fun address b =>
  exists i, i < count ∧ address = target + i ∧ b = origin.byte (source + i)

end Ink

/-!
## Bytes of a memory
-/

namespace Memory

theorem ext_byte {memory other : Memory} (hsize : memory.size = other.size)
    (hbyte : forall address, memory.byte address = other.byte address) : memory = other := by
  apply Array.ext hsize
  intro i hi hi'
  have h := hbyte i
  rw [byte, byte, Array.getD_eq_getD_getElem?, Array.getD_eq_getD_getElem?,
    Array.getElem?_eq_getElem hi, Array.getElem?_eq_getElem hi'] at h
  exact h

theorem getElem?_read (memory : Memory) (start count i : Nat) :
    (read memory start count)[i]? =
      if i < count then some (memory.byte (start + i)) else none := by
  unfold read
  rw [List.getElem?_map]
  split
  next h =>
    rw [List.getElem?_range h]
    rfl
  next h =>
    rw [List.getElem?_eq_none (by simpa using h)]
    rfl

theorem read_of_bytes {memory : Memory} {start : Nat} {bytes : List UInt8}
    (h : forall i b, bytes[i]? = some b -> memory.byte (start + i) = b) :
    memory.read start bytes.length = bytes := by
  apply List.ext_getElem?
  intro i
  rw [getElem?_read]
  split
  next hlt => rw [List.getElem?_eq_getElem hlt, h i _ (List.getElem?_eq_getElem hlt)]
  next hge => rw [List.getElem?_eq_none (Nat.not_lt.mp hge)]

theorem read_write {memory : Memory} {start : Nat} {bytes : List UInt8}
    (h : start + bytes.length ≤ memory.size) :
    (memory.write start bytes).read start bytes.length = bytes := by
  apply read_of_bytes
  intro i b hb
  have hlt := (List.getElem?_eq_some_iff.mp hb).choose
  rw [byte_write, if_pos ⟨Nat.le_add_right start i, by omega, by omega⟩,
    Nat.add_sub_cancel_left, List.getD_eq_getElem?_getD, hb]
  rfl

theorem laid_read (origin : Memory) (target source count : Nat) (address : Nat) (b : UInt8) :
    Ink.laid target (origin.read source count) address b ↔
      Ink.copied origin target source count address b := by
  constructor
  · intro hdrawn
    rcases hdrawn with ⟨i, haddress, hbyte⟩
    rw [getElem?_read] at hbyte
    split at hbyte
    next hlt =>
      cases hbyte
      exact ⟨i, hlt, haddress, rfl⟩
    next => cases hbyte
  · intro hdrawn
    rcases hdrawn with ⟨i, hlt, haddress, rfl⟩
    refine ⟨i, haddress, ?_⟩
    rw [getElem?_read, if_pos hlt]

theorem read_congr {memory other : Memory} {start start' count : Nat}
    (h : forall i, i < count -> memory.byte (start + i) = other.byte (start' + i)) :
    memory.read start count = other.read start' count := by
  unfold read
  apply List.map_congr_left
  intro i hi
  exact h i (List.mem_range.mp hi)

end Memory

/-!
## One step
-/

/-- Painted addresses hold a byte of the ink, and the others what they held before. -/
structure Painted (ink : Ink) (before after : Memory) : Prop where
  size : after.size = before.size
  byte : forall address, ink address (after.byte address) ∨
    (forall b, ¬ ink address b) ∧ after.byte address = before.byte address

namespace Painted

variable {ink other : Ink} {before middle after : Memory}

theorem congr (h : forall address b, ink address b ↔ other address b)
    (hpainted : Painted ink before after) : Painted other before after := by
  refine ⟨hpainted.size, fun address => ?_⟩
  rcases hpainted.byte address with hink | ⟨hfree, hkept⟩
  · exact Or.inl ((h address _).mp hink)
  · exact Or.inr ⟨fun b hb => hfree b ((h address b).mpr hb), hkept⟩

theorem refl (memory : Memory) (h : forall address b, ¬ ink address b) :
    Painted ink memory memory :=
  ⟨rfl, fun address => Or.inr ⟨h address, rfl⟩⟩

theorem trans (h : Painted ink before middle) (h' : Painted other middle after) :
    Painted (fun address b => ink address b ∨ other address b) before after := by
  refine ⟨h'.size.trans h.size, fun address => ?_⟩
  rcases h'.byte address with hother | ⟨hfree', hkept'⟩
  · exact Or.inl (Or.inr hother)
  · rw [hkept']
    rcases h.byte address with hink | ⟨hfree, hkept⟩
    · exact Or.inl (Or.inl hink)
    · exact Or.inr ⟨fun b hb => hb.elim (hfree b) (hfree' b), hkept⟩

theorem byte_of_ink (h : Painted ink before after) (hfunctional : ink.Functional)
    {address : Nat} {b : UInt8} (hb : ink address b) : after.byte address = b := by
  rcases h.byte address with hink | ⟨hfree, _⟩
  · exact hfunctional address _ _ hink hb
  · exact (hfree b hb).elim

theorem byte_of_free (h : Painted ink before after) {address : Nat}
    (hfree : forall b, ¬ ink address b) : after.byte address = before.byte address := by
  rcases h.byte address with hink | ⟨_, hkept⟩
  · exact (hfree _ hink).elim
  · exact hkept

theorem unique (h : Painted ink before after) (h' : Painted ink before middle)
    (hfunctional : ink.Functional) : after = middle := by
  apply Memory.ext_byte (h.size.trans h'.size.symm)
  intro address
  rcases h.byte address with hink | ⟨hfree, hkept⟩
  · exact (h'.byte_of_ink hfunctional hink).symm
  · rw [hkept, h'.byte_of_free hfree]

theorem write {memory : Memory} {start : Nat} {bytes : List UInt8}
    (h : start + bytes.length ≤ memory.size) :
    Painted (Ink.laid start bytes) memory (memory.write start bytes) := by
  refine ⟨Memory.size_write memory start bytes, fun address => ?_⟩
  rw [Memory.byte_write]
  split
  next hin =>
    have hlt : address - start < bytes.length := by omega
    refine Or.inl ⟨address - start, by omega, ?_⟩
    rw [List.getD_eq_getElem?_getD, List.getElem?_eq_getElem hlt]
    rfl
  next hout =>
    refine Or.inr ⟨?_, rfl⟩
    intro b h'
    rcases h' with ⟨i, rfl, hbyte⟩
    have hlt := (List.getElem?_eq_some_iff.mp hbyte).choose
    omega

theorem write_read {memory origin : Memory} {target source count : Nat}
    (h : target + count ≤ memory.size) :
    Painted (Ink.copied origin target source count) memory
      (memory.write target (origin.read source count)) := by
  refine (write ?_).congr (Memory.laid_read origin target source count)
  rw [Memory.length_read]
  exact h

/-!
## Runs of steps
-/

theorem foldlM {σ ι : Type} {f : σ -> ι -> Checked σ} {valid : σ -> Prop}
    {inks : ι -> Ink} {xs : List ι} (memory : σ -> Memory)
    (hstep : forall x, x ∈ xs -> forall s, valid s ->
      exists s', f s x = .ok s' ∧ valid s' ∧ Painted (inks x) (memory s) (memory s'))
    {s : σ} (hs : valid s) :
    exists s', xs.foldlM f s = .ok s' ∧ valid s' ∧
      Painted (fun address b => exists x, x ∈ xs ∧ inks x address b) (memory s) (memory s') := by
  induction xs generalizing s with
  | nil =>
      refine ⟨s, rfl, hs, refl (memory s) ?_⟩
      intro address b h
      rcases h with ⟨x, hx, _⟩
      cases hx
  | cons x rest ih =>
      rcases hstep x List.mem_cons_self s hs with ⟨next, hnext, hvalid, hpainted⟩
      rcases ih (fun y hy => hstep y (List.mem_cons_of_mem x hy)) hvalid with
        ⟨last, hlast, hvalid', hpainted'⟩
      refine ⟨last, ?_, hvalid', (hpainted.trans hpainted').congr fun address b => ?_⟩
      · rw [List.foldlM_cons, hnext]
        exact hlast
      · simp only [List.mem_cons, or_and_right, exists_or, exists_eq_left]

end Painted

/-- On every memory of a size, a computation answers with the memory painted. -/
def Paints (size : Nat) (f : Memory -> Checked Memory) (ink : Ink) : Prop :=
  forall before : Memory, before.size = size ->
    exists after, f before = .ok after ∧ Painted ink before after

namespace Paints

variable {size : Nat} {f : Memory -> Checked Memory} {ink other : Ink}

theorem congr (h : forall address b, ink address b ↔ other address b)
    (hpaints : Paints size f ink) : Paints size f other := by
  intro before hsize
  rcases hpaints before hsize with ⟨after, hafter, hpainted⟩
  exact ⟨after, hafter, hpainted.congr h⟩

theorem foldlM {ι : Type} {f : Memory -> ι -> Checked Memory} {inks : ι -> Ink} {xs : List ι}
    (hstep : forall x, x ∈ xs -> Paints size (fun memory => f memory x) (inks x)) :
    Paints size (fun memory => xs.foldlM f memory)
      (fun address b => exists x, x ∈ xs ∧ inks x address b) := by
  intro before hsize
  have hrun : forall x, x ∈ xs -> forall memory : Memory, memory.size = size ->
      exists next, f memory x = .ok next ∧ next.size = size ∧
        Painted (inks x) memory next := by
    intro x hx memory hmemory
    rcases hstep x hx memory hmemory with ⟨next, hnext, hpainted⟩
    exact ⟨next, hnext, hpainted.size.trans hmemory, hpainted⟩
  rcases Painted.foldlM id hrun hsize with ⟨after, hafter, _, hpainted⟩
  exact ⟨after, hafter, hpainted⟩

end Paints
end RawVideo

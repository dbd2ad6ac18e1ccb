import RawVideo.Memory.Copy
import RawVideo.Proofs.Memory.Painted
import RawVideo.Proofs.Memory.Tiling

/-!
# Copies by vectors

A vector copy moves the bytes of its source piece by piece.  The bytes in front of the first
boundary, the vectors and the bytes behind them follow each other without a gap, so no piece
leaves the source and the copy leaves what a plain copy leaves.  A vector comes a multiple of
sixteen bytes behind the first boundary.
-/

namespace RawVideo
namespace Memory

/-!
## Blocks
-/

theorem behindBlocks_le {width start stop : Nat} (h : start ≤ stop) :
    behindBlocks width start stop ≤ stop := by
  unfold behindBlocks
  fun_induction blockOffsets width start stop with
  | case1 start hfits ih =>
      have hrest := ih hfits.right
      rw [List.length_cons, Nat.mul_succ]
      omega
  | case2 start hdone => exact h

theorem tiles_blocks (width start stop : Nat) :
    Tiles start ((blockOffsets width start stop).map (Span.mk · width))
      (behindBlocks width start stop) := by
  unfold behindBlocks
  fun_induction blockOffsets width start stop with
  | case1 start hfits ih =>
      rw [Nat.add_assoc, Nat.add_comm width, ← Nat.mul_succ] at ih
      exact ⟨rfl, ih⟩
  | case2 start hdone => exact rfl

/-- A block of 64 bytes is four vectors in a row. -/
theorem tiles_vectors {start stop : Nat} {offsets : List Nat}
    (h : Tiles start (offsets.map (Span.mk · 64)) stop) :
    Tiles start
      ((offsets.flatMap fun i => [i, i + 16, i + 32, i + 48]).map (Span.mk · 16)) stop := by
  induction offsets generalizing start with
  | nil => exact h
  | cons offset rest ih => exact ⟨h.left, rfl, rfl, rfl, ih h.right⟩

/-!
## The plan
-/

namespace VectorPlan

/-- The pieces that a copy of `length` bytes moves, in order. -/
def pieces (plan : VectorPlan) (length : Nat) : List Span :=
  ⟨0, plan.head⟩ :: (plan.vectors.map (Span.mk · 16) ++ [⟨plan.tail, length - plan.tail⟩])

end VectorPlan

theorem tail_le_length (distance length : Nat) :
    (vectorPlan distance length).tail ≤ length :=
  behindBlocks_le (behindBlocks_le (Nat.min_le_right distance length))

theorem tiles_plan_vectors (distance length : Nat) :
    Tiles (vectorPlan distance length).head
      ((vectorPlan distance length).vectors.map (Span.mk · 16))
      (vectorPlan distance length).tail := by
  unfold vectorPlan
  dsimp only
  rw [List.map_append]
  exact (tiles_vectors (tiles_blocks 64 _ length)).append (tiles_blocks 16 _ length)

theorem tiles_pieces (distance length : Nat) :
    Tiles 0 ((vectorPlan distance length).pieces length) length := by
  have hlast : Tiles (vectorPlan distance length).tail
      [⟨(vectorPlan distance length).tail, length - (vectorPlan distance length).tail⟩] length :=
    ⟨rfl, Nat.add_sub_cancel' (tail_le_length distance length)⟩
  refine ⟨rfl, ?_⟩
  show Tiles (0 + (vectorPlan distance length).head) _ length
  rw [Nat.zero_add]
  exact (tiles_plan_vectors distance length).append hlast

/-- A vector that is there at all lies behind the whole distance to the first boundary. -/
theorem dvd_of_vector {distance length offset address : Nat} (h : 16 ∣ address + distance)
    (hoffset : offset ∈ (vectorPlan distance length).vectors) : 16 ∣ address + offset := by
  have htiles := tiles_plan_vectors distance length
  have hwithin := htiles.within (List.mem_map_of_mem hoffset)
  have hinside : offset + 16 ≤ length :=
    Nat.le_trans hwithin.right (tail_le_length distance length)
  rcases htiles.exists_multiple hoffset with ⟨k, rfl⟩
  have hhead : (vectorPlan distance length).head = min distance length := rfl
  omega

theorem boundaryDistance_lt (address : Nat) : boundaryDistance address < 16 :=
  Nat.mod_lt _ (by decide)

theorem dvd_add_boundaryDistance (address : Nat) : 16 ∣ address + boundaryDistance address := by
  unfold boundaryDistance
  omega

/-!
## The copy
-/

theorem copyVectors_eq_foldl (distance start : Nat) (source : List UInt8) (memory : Memory) :
    copyVectors distance start source memory =
      ((vectorPlan distance source.length).pieces source.length).foldl
        (fun memory piece => move source start memory piece.start piece.length) memory := by
  unfold copyVectors VectorPlan.pieces
  rw [List.foldl_cons, List.foldl_append, List.foldl_map]
  rfl

/-- A copy by vectors is a plain copy, wherever the first boundary lies. -/
theorem copyVectors_eq_write (distance start : Nat) (source : List UInt8) (memory : Memory) :
    copyVectors distance start source memory = memory.write start source := by
  have hwrite := foldl_write_of_tiles (tiles_pieces distance source.length) (Nat.le_refl _) start
    memory
  rw [Nat.add_zero, Nat.sub_zero, List.drop_zero, List.take_length] at hwrite
  rw [copyVectors_eq_foldl]
  exact hwrite

/-- With or without vectors, a copy into a span that is long enough is a plain copy. -/
theorem streamCopy_eq {features : Features} {target : Span} {source : List UInt8}
    {memory : Memory} (distance : Nat) (hlength : source.length ≤ target.length) :
    streamCopy features distance target source memory =
      .ok (memory.write target.start source) := by
  unfold streamCopy
  rw [if_neg (Nat.not_lt.mpr hlength), copyVectors_eq_write]
  split <;> rfl

/--
Wherever the first boundary lies, a copy by vectors is the plain copy: the source is at the
front of the target, and all other bytes are as they were.  It moves pieces that follow each
other from the first byte of the source to the last one and never leave it, and each vector
starts at a boundary.
-/
theorem vector_copies_exact {target : Span} {source : List UInt8} {memory : Memory}
    (distance : Nat) (hlength : source.length ≤ target.length)
    (hfits : target.stop ≤ memory.size) :
    (exists after,
      (forall features, streamCopy features distance target source memory = .ok after) ∧
        after.size = memory.size ∧ after.read target.start source.length = source ∧
        forall address, address < target.start ∨ target.start + source.length ≤ address ->
          after.byte address = memory.byte address) ∧
    copyVectors distance target.start source memory =
      ((vectorPlan distance source.length).pieces source.length).foldl
        (fun memory piece => move source target.start memory piece.start piece.length) memory ∧
    Tiles 0 ((vectorPlan distance source.length).pieces source.length) source.length ∧
    (forall piece, piece ∈ (vectorPlan distance source.length).pieces source.length ->
      piece.stop ≤ source.length) ∧
    (forall offset, offset ∈ (vectorPlan distance source.length).vectors ->
      forall address, 16 ∣ address + distance -> 16 ∣ address + offset) ∧
    forall address, boundaryDistance address < 16 ∧ 16 ∣ address + boundaryDistance address := by
  have hroom : target.start + source.length ≤ memory.size :=
    Nat.le_trans (Nat.add_le_add_left hlength _) hfits
  have htiles := tiles_pieces distance source.length
  refine ⟨⟨memory.write target.start source, fun features => streamCopy_eq distance hlength,
    size_write _ _ _, read_write hroom, ?_⟩, copyVectors_eq_foldl _ _ _ _, htiles, ?_, ?_, ?_⟩
  · intro address houtside
    rw [byte_write, if_neg (by omega)]
  · intro piece hpiece
    exact (htiles.within hpiece).right
  · intro offset hoffset address haddress
    exact dvd_of_vector haddress hoffset
  · intro address
    exact ⟨boundaryDistance_lt address, dvd_add_boundaryDistance address⟩

/-- A head, four vectors at once, one alone and a tail; and a source that ends in its head. -/
theorem vector_copies_exact_short :
    (exists after,
      streamCopy Features.full 5 ⟨1, 90⟩ (List.replicate 88 7) (zeros 91) = .ok after ∧
        streamCopy Features.none 5 ⟨1, 90⟩ (List.replicate 88 7) (zeros 91) = .ok after ∧
        after.read 1 88 = List.replicate 88 7 ∧ after.byte 0 = 0 ∧ after.byte 89 = 0 ∧
        forall offset, offset ∈ (vectorPlan 5 88).vectors -> 16 ∣ 4091 + offset) ∧
    exists after, streamCopy Features.full 15 ⟨0, 3⟩ [1, 2] (zeros 3) = .ok after ∧
      after.read 0 2 = [1, 2] ∧ after.byte 2 = 0 := by
  constructor
  · rcases @vector_copies_exact ⟨1, 90⟩ (List.replicate 88 7) (zeros 91) 5 (by decide)
      (by decide) with ⟨⟨after, hcopy, _, hread, hkept⟩, _, _, _, haligned, _⟩
    exact ⟨after, hcopy _, hcopy _, hread, hkept 0 (by decide), hkept 89 (by decide),
      fun offset hoffset => haligned offset hoffset 4091 (by decide)⟩
  · rcases @vector_copies_exact ⟨0, 3⟩ [1, 2] (zeros 3) 15 (by decide) (by decide) with
      ⟨⟨after, hcopy, _, hread, hkept⟩, _⟩
    exact ⟨after, hcopy _, hread, hkept 2 (by decide)⟩

end Memory
end RawVideo

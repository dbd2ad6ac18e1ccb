/-!
# Blocks

Cutting a list into blocks of one size.  The last block holds what is left and
may be shorter.
-/

namespace RawVideo

/-- Cut a list into blocks of `size` elements.  Blocks of no size hold nothing. -/
def blocks {α : Type} (size : Nat) (xs : List α) : List (List α) :=
  if 0 < size ∧ 0 < xs.length then xs.take size :: blocks size (xs.drop size) else []
termination_by xs.length
decreasing_by
  simp only [List.length_drop]
  omega

@[simp] theorem blocks_nil {α : Type} (size : Nat) : blocks size ([] : List α) = [] := by
  simp [blocks]

theorem blocks_of_pos {α : Type} {size : Nat} {xs : List α} (hsize : 0 < size)
    (h : 0 < xs.length) : blocks size xs = xs.take size :: blocks size (xs.drop size) := by
  rw [blocks, if_pos ⟨hsize, h⟩]

/-- Nothing is lost: the blocks follow each other as they did in the list. -/
theorem flatten_blocks {α : Type} {size : Nat} (h : 0 < size) (xs : List α) :
    (blocks size xs).flatten = xs := by
  fun_induction blocks size xs with
  | case1 xs hcond ih => simp [ih]
  | case2 xs hcond =>
      have hzero : xs.length = 0 := by omega
      simp [List.length_eq_zero_iff.mp hzero]

/-- No block is longer than the size. -/
theorem length_le_of_mem_blocks {α : Type} {size : Nat} {xs block : List α}
    (h : block ∈ blocks size xs) : block.length ≤ size := by
  fun_induction blocks size xs with
  | case1 xs hcond ih =>
      rcases List.mem_cons.mp h with rfl | hmem
      · exact List.length_take_le _ _
      · exact ih hmem
  | case2 xs hcond => simp at h

/-- No block is empty. -/
theorem ne_nil_of_mem_blocks {α : Type} {size : Nat} {xs block : List α}
    (h : block ∈ blocks size xs) : block ≠ [] := by
  fun_induction blocks size xs with
  | case1 xs hcond ih =>
      cases List.mem_cons.mp h with
      | inl heq =>
          intro hnil
          have hlength := congrArg List.length (heq.symm.trans hnil)
          rw [List.length_take, List.length_nil] at hlength
          omega
      | inr hmem => exact ih hmem
  | case2 xs hcond => simp at h

/-- What divides the size and the length of the list divides the length of every block. -/
theorem dvd_length_of_mem_blocks {α : Type} {size unit : Nat} {xs block : List α}
    (hsize : unit ∣ size) (hlength : unit ∣ xs.length) (h : block ∈ blocks size xs) :
    unit ∣ block.length := by
  fun_induction blocks size xs with
  | case1 xs hcond ih =>
      cases List.mem_cons.mp h with
      | inl heq =>
          rw [heq, List.length_take]
          cases Nat.le_total size xs.length with
          | inl hle =>
              rw [Nat.min_eq_left hle]
              exact hsize
          | inr hle =>
              rw [Nat.min_eq_right hle]
              exact hlength
      | inr hmem =>
          refine ih ?_ hmem
          rw [List.length_drop]
          exact Nat.dvd_sub hlength hsize
  | case2 xs hcond => simp at h

end RawVideo

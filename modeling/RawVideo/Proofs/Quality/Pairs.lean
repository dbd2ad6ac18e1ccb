import Mathlib
import RawVideo.Proofs.View.Covered
import RawVideo.Quality.Psnr

/-!
# Compared pairs

The pairs of samples that a comparison takes, in order.  Adding an area adds its pairs:
the sum of their squared differences, and their number.  So a comparison stands for a
list of pairs, and lists of pairs add up as comparisons do.
-/

namespace RawVideo

/-!
## Sums of answers
-/

namespace Checked

variable {ι α β : Type}

theorem foldlM_add (f : ι -> Checked α) (g : α -> Nat) (xs : List ι) (start : Nat) :
    (xs.foldlM (fun sum x => f x >>= fun a => .ok (sum + g a)) start : Checked Nat) =
      (xs.mapM f).map fun answers => start + (answers.map g).sum := by
  induction xs generalizing start with
  | nil => rfl
  | cons x rest ih =>
      rw [List.foldlM_cons, List.mapM_cons]
      cases f x with
      | error fault => rfl
      | ok a =>
          rw [ok_bind, ok_bind, ok_bind, ih]
          cases rest.mapM f with
          | error fault => rfl
          | ok answers => exact congrArg Except.ok (by simp [Nat.add_assoc])

end Checked

namespace Comparison

/-!
## Pairs
-/

/-- The squared difference of a pair. -/
def squared (pair : Nat × Nat) : Nat :=
  squaredDifference pair.1 pair.2

/-- The sum of the squared differences. -/
def error (pairs : List (Nat × Nat)) : Nat :=
  (pairs.map squared).sum

/-- A comparison with some more pairs. -/
def add (comparison : Comparison) (pairs : List (Nat × Nat)) : Comparison :=
  ⟨comparison.squaredError + error pairs, comparison.samples + pairs.length,
    comparison.maxValue⟩

/-- The pairs of an area, row by row. -/
def areaPairs (size : Nat × Nat) (pair : Nat -> Nat -> Checked (Nat × Nat)) :
    Checked (List (Nat × Nat)) :=
  ((List.range size.2).mapM fun y => (List.range size.1).mapM fun x => pair x y).map List.flatten

/-- The pairs of a component of both pictures. -/
def componentPairs (image reference : Picture) (c : Nat) : Checked (List (Nat × Nat)) := do
  let size <- image.view.componentSize c
  areaPairs size fun x y => do
    return (<- image.sample c x y, <- reference.sample c x y)

/-- The pairs of the alpha of a picture, at full size, and full opacity. -/
def opacityPairs (picture : Picture) : Checked (List (Nat × Nat)) :=
  areaPairs (picture.view.width, picture.view.height) fun x y => do
    return (<- picture.sample 3 x y, 2 ^ picture.format.depth - 1)

/-- The alpha that only one of two pictures has, paired with full opacity, unless luma is alone. -/
def loneAlphaPairs (lumaOnly : Bool) (image reference : Picture) :
    Checked (List (Nat × Nat)) :=
  if lumaOnly then .ok []
  else if image.format.hasAlpha && !reference.format.hasAlpha then opacityPairs image
  else if reference.format.hasAlpha && !image.format.hasAlpha then opacityPairs reference
  else .ok []

/-- How many components both pictures lend to a comparison. -/
def shared (lumaOnly : Bool) (image reference : Format) : Nat :=
  if lumaOnly then 1 else min image.components.length reference.components.length

/-- All pairs: luma alone, or all components that both formats have and a lone alpha. -/
def comparedPairs (lumaOnly : Bool) (image reference : Picture) :
    Checked (List (Nat × Nat)) := do
  let common <-
    (List.range (shared lumaOnly image.format reference.format)).mapM
      (componentPairs image reference)
  let alpha <- loneAlphaPairs lumaOnly image reference
  return common.flatten ++ alpha

/-!
## Squared differences
-/

theorem cast_squaredDifference (a b : Nat) :
    (squaredDifference a b : Int) = ((a : Int) - b) ^ 2 := by
  cases Nat.le_total a b with
  | inl hle =>
      rw [squaredDifference, Nat.sub_eq_zero_of_le hle, Nat.zero_mul, Nat.zero_add]
      push_cast [hle]
      ring
  | inr hle =>
      rw [squaredDifference, Nat.sub_eq_zero_of_le hle, Nat.zero_mul, Nat.add_zero]
      push_cast [hle]
      ring

theorem squaredDifference_comm (a b : Nat) :
    squaredDifference a b = squaredDifference b a :=
  Nat.add_comm _ _

theorem squaredDifference_eq_zero {a b : Nat} : squaredDifference a b = 0 ↔ a = b := by
  have hcast := cast_squaredDifference a b
  constructor
  · intro h
    rw [h] at hcast
    have hzero := pow_eq_zero_iff (two_ne_zero) |>.mp hcast.symm
    omega
  · intro h
    rw [h, squaredDifference, Nat.sub_self]

theorem squaredDifference_le {a b bound : Nat} (ha : a ≤ bound) (hb : b ≤ bound) :
    squaredDifference a b ≤ bound * bound := by
  cases Nat.le_total a b with
  | inl hle =>
      have hdiff : b - a ≤ bound := Nat.le_trans (Nat.sub_le b a) hb
      rw [squaredDifference, Nat.sub_eq_zero_of_le hle, Nat.zero_mul, Nat.zero_add]
      exact Nat.mul_le_mul hdiff hdiff
  | inr hle =>
      have hdiff : a - b ≤ bound := Nat.le_trans (Nat.sub_le a b) ha
      rw [squaredDifference, Nat.sub_eq_zero_of_le hle, Nat.zero_mul, Nat.add_zero]
      exact Nat.mul_le_mul hdiff hdiff

/-!
## Errors of lists of pairs
-/

variable {pairs other : List (Nat × Nat)}

@[simp] theorem error_nil : error [] = 0 := rfl

theorem error_append (pairs other : List (Nat × Nat)) :
    error (pairs ++ other) = error pairs + error other := by
  simp [error]

theorem error_flatten (rows : List (List (Nat × Nat))) :
    error rows.flatten = (rows.map error).sum := by
  simp only [error, List.map_flatten, List.sum_flatten, List.map_map]
  rfl

theorem cast_error (pairs : List (Nat × Nat)) :
    (error pairs : Int) = (pairs.map fun pair => ((pair.1 : Int) - pair.2) ^ 2).sum := by
  induction pairs with
  | nil => rfl
  | cons pair rest ih =>
      rw [List.map_cons, List.sum_cons, ← ih, ← cast_squaredDifference]
      simp [error, squared]

theorem error_eq_zero_iff : error pairs = 0 ↔ forall pair, pair ∈ pairs -> pair.1 = pair.2 := by
  simp only [error, squared, List.sum_eq_zero_iff, List.forall_mem_map,
    squaredDifference_eq_zero]

theorem error_swap (pairs : List (Nat × Nat)) : error (pairs.map Prod.swap) = error pairs := by
  simp only [error, List.map_map]
  congr 2
  funext pair
  exact squaredDifference_comm pair.2 pair.1

theorem error_le {bound : Nat}
    (h : forall pair, pair ∈ pairs -> pair.1 ≤ bound ∧ pair.2 ≤ bound) :
    error pairs ≤ pairs.length * (bound * bound) := by
  induction pairs with
  | nil => simp
  | cons pair rest ih =>
      rw [List.forall_mem_cons] at h
      have hfirst := squaredDifference_le h.left.left h.left.right
      have hrest := ih h.right
      rw [List.length_cons, Nat.succ_mul, Nat.add_comm]
      simp only [error, List.map_cons, List.sum_cons] at hrest ⊢
      exact Nat.add_le_add hfirst hrest

theorem error_le_of_sublist (h : other.Sublist pairs) : error other ≤ error pairs :=
  (h.map squared).sum_le_sum fun _ _ => Nat.zero_le _

/-!
## Adding pairs
-/

theorem add_add (comparison : Comparison) (pairs other : List (Nat × Nat)) :
    (comparison.add pairs).add other = comparison.add (pairs ++ other) := by
  simp only [add, error_append, List.length_append, Nat.add_assoc]

theorem rowError_eq (width : Nat) (pair : Nat -> Checked (Nat × Nat)) :
    rowError width pair = ((List.range width).mapM pair).map error := by
  have hsum := Checked.foldlM_add pair squared (List.range width) 0
  simp only [Nat.zero_add] at hsum
  exact hsum

theorem areaError_eq (width height : Nat) (pair : Nat -> Nat -> Checked (Nat × Nat)) :
    areaError width height pair = (areaPairs (width, height) pair).map error := by
  have hsum := Checked.foldlM_add (fun y => rowError width fun x => pair x y) id
    (List.range height) 0
  simp only [rowError_eq, Checked.mapM_map, Nat.zero_add, List.map_id] at hsum
  unfold areaError areaPairs
  simp only [rowError_eq]
  refine Eq.trans hsum ?_
  cases (List.range height).mapM fun y => (List.range width).mapM fun x => pair x y with
  | error fault => rfl
  | ok rows => exact congrArg Except.ok (error_flatten rows).symm

theorem length_of_areaPairs {size : Nat × Nat} {pair : Nat -> Nat -> Checked (Nat × Nat)}
    (h : areaPairs size pair = .ok pairs) : pairs.length = size.1 * size.2 := by
  rcases Checked.map_eq_ok.mp h with ⟨rows, hrows, rfl⟩
  have hwidth : forall row, row ∈ rows -> row.length = size.1 :=
    Checked.forall_mem_of_mapM hrows fun y row _ hrow =>
      (Checked.length_of_mapM hrow).trans List.length_range
  have hlengths : rows.map List.length = List.replicate size.2 size.1 := by
    rw [List.eq_replicate_iff, List.length_map, Checked.length_of_mapM hrows, List.length_range,
      List.forall_mem_map]
    exact ⟨rfl, hwidth⟩
  rw [List.length_flatten, hlengths, List.sum_replicate, smul_eq_mul, Nat.mul_comm]

theorem addArea_eq (comparison : Comparison) (size : Nat × Nat)
    (pair : Nat -> Nat -> Checked (Nat × Nat)) :
    comparison.addArea size pair = (areaPairs size pair).map comparison.add := by
  unfold addArea
  rw [areaError_eq]
  cases hpairs : areaPairs size pair with
  | error fault => rfl
  | ok pairs =>
      show Except.ok (Comparison.mk _ (_ + size.1 * size.2) _) = _
      rw [← length_of_areaPairs hpairs]
      rfl

theorem addComponent_eq (image reference : Picture) (comparison : Comparison) (c : Nat) :
    addComponent image reference comparison c =
      (componentPairs image reference c).map comparison.add := by
  unfold addComponent componentPairs
  cases image.view.componentSize c with
  | error fault => rfl
  | ok size => exact addArea_eq comparison size _

/-- What each step adds to a comparison, all steps together add to it. -/
theorem foldlM_add {ι : Type} {step : Comparison -> ι -> Checked Comparison}
    {taken : ι -> Checked (List (Nat × Nat))}
    (h : forall comparison x, step comparison x = (taken x).map comparison.add) (xs : List ι)
    (start : Comparison) :
    xs.foldlM step start = (xs.mapM taken).map fun parts => start.add parts.flatten := by
  induction xs generalizing start with
  | nil => rfl
  | cons x rest ih =>
      rw [List.foldlM_cons, List.mapM_cons, h]
      cases taken x with
      | error fault => rfl
      | ok pairs =>
          show rest.foldlM step (start.add pairs) = _
          rw [ih]
          cases rest.mapM taken with
          | error fault => rfl
          | ok parts => exact congrArg Except.ok (add_add start pairs parts.flatten)

end Comparison
end RawVideo

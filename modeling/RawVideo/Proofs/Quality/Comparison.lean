import RawVideo.Proofs.Quality.Pairs
import RawVideo.Proofs.View.Accepted

/-!
# Comparisons of covered pictures

Two covered pictures are compared exactly when they agree in size, chroma family and
depth, and luma alone only when they are YUV.  The result stands for the list of all
pairs, so it does not depend on which picture is the reference: the pairs of shared
components change sides, and a lone alpha is paired with full opacity either way.
-/

namespace RawVideo

namespace Comparison

variable {image reference picture : Picture} {lumaOnly : Bool} {c : Nat}

/-!
## Bounded pairs
-/

/-- Both sides of every pair are samples of at most sixteen bits. -/
def Bounded (pairs : List (Nat × Nat)) : Prop :=
  forall pair, pair ∈ pairs -> pair.1 < 2 ^ 16 ∧ pair.2 < 2 ^ 16

theorem Bounded.nil : Bounded [] :=
  fun _ hpair => (List.not_mem_nil hpair).elim

theorem Bounded.append {pairs other : List (Nat × Nat)} (h : Bounded pairs)
    (hother : Bounded other) : Bounded (pairs ++ other) := by
  intro pair hpair
  cases List.mem_append.mp hpair with
  | inl hpair => exact h pair hpair
  | inr hpair => exact hother pair hpair

theorem Bounded.flatten {parts : List (List (Nat × Nat))}
    (h : forall part, part ∈ parts -> Bounded part) : Bounded parts.flatten := by
  intro pair hpair
  rcases List.mem_flatten.mp hpair with ⟨part, hpart, hpair⟩
  exact h part hpart pair hpair

/-- Not even 2 ^ 32 pairs overflow a sum of 64 bits. -/
theorem Bounded.error_lt {pairs : List (Nat × Nat)} (h : Bounded pairs)
    (hlength : pairs.length ≤ 2 ^ 32) : error pairs < 2 ^ 64 := by
  have hle : error pairs ≤ pairs.length * ((2 ^ 16 - 1) * (2 ^ 16 - 1)) :=
    error_le fun pair hpair =>
      ⟨Nat.le_sub_one_of_lt (h pair hpair).left, Nat.le_sub_one_of_lt (h pair hpair).right⟩
  calc error pairs
      ≤ pairs.length * ((2 ^ 16 - 1) * (2 ^ 16 - 1)) := hle
    _ ≤ 2 ^ 32 * ((2 ^ 16 - 1) * (2 ^ 16 - 1)) := Nat.mul_le_mul_right _ hlength
    _ < 2 ^ 64 := by decide

/-- An area whose pairs are known, row by row. -/
def area (width height : Nat) (f : Nat -> Nat -> Nat × Nat) : List (Nat × Nat) :=
  (List.range height).flatMap fun y => (List.range width).map fun x => f x y

theorem areaPairs_eq_ok {width height : Nat} {pair : Nat -> Nat -> Checked (Nat × Nat)}
    {f : Nat -> Nat -> Nat × Nat}
    (h : forall x y, x < width -> y < height -> pair x y = .ok (f x y)) :
    areaPairs (width, height) pair = .ok (area width height f) := by
  have hrow : forall y, y ∈ List.range height ->
      ((List.range width).mapM fun x => pair x y) =
        .ok ((List.range width).map fun x => f x y) := fun y hy =>
    Checked.mapM_eq_ok fun x hx => h x y (List.mem_range.mp hx) (List.mem_range.mp hy)
  unfold areaPairs area
  rw [Checked.mapM_eq_ok hrow, List.flatMap_def]
  rfl

theorem map_swap_area (width height : Nat) (f : Nat -> Nat -> Nat × Nat) :
    (area width height f).map Prod.swap = area width height fun x y => (f x y).swap := by
  simp only [area, List.map_flatMap, List.map_map]
  rfl

theorem bounded_area {width height : Nat} {f : Nat -> Nat -> Nat × Nat}
    (h : forall x y, x < width -> y < height -> (f x y).1 < 2 ^ 16 ∧ (f x y).2 < 2 ^ 16) :
    Bounded (area width height f) := by
  intro pair hpair
  rcases List.mem_flatMap.mp hpair with ⟨y, hy, hpair⟩
  rcases List.mem_map.mp hpair with ⟨x, hx, rfl⟩
  exact h x y (List.mem_range.mp hx) (List.mem_range.mp hy)

/-!
## Pairs of covered pictures
-/

theorem two_pow_depth_le (format : Format) : 2 ^ format.depth ≤ 2 ^ 16 :=
  Nat.pow_le_pow_right Nat.two_pos format.depth_le

theorem levels_le {format : Format} {comp : Component} (hcomp : format.component c = .ok comp) :
    comp.levels ≤ 2 ^ 16 := by
  unfold Component.levels
  rw [Format.depth_eq hcomp, Nat.one_shiftLeft]
  exact two_pow_depth_le format

/-- What two views have to share for a comparison. -/
structure Comparable (lumaOnly : Bool) (image reference : View) : Prop where
  width : image.width = reference.width
  height : image.height = reference.height
  chroma : image.format.chroma = reference.format.chroma
  depth : image.format.depth = reference.format.depth
  yuv : lumaOnly = true -> image.format.isYuv = true ∧ reference.format.isYuv = true

theorem Comparable.symm {image reference : View} (h : Comparable lumaOnly image reference) :
    Comparable lumaOnly reference image :=
  ⟨h.width.symm, h.height.symm, h.chroma.symm, h.depth.symm, fun hluma => (h.yuv hluma).symm⟩

theorem Comparable.columns_eq {image reference : View} (h : Comparable lumaOnly image reference)
    (c : Nat) : reference.columns c = image.columns c := by
  unfold View.columns Format.columns
  rw [h.width, Format.shiftsOf_congr h.chroma]

theorem Comparable.lines_eq {image reference : View} (h : Comparable lumaOnly image reference)
    (c : Nat) : reference.lines c = image.lines c := by
  unfold View.lines Format.lines
  rw [h.height, Format.shiftsOf_congr h.chroma]

theorem componentPairs_eq_ok {width height : Nat} {f g : Nat -> Nat -> Nat}
    (hsize : image.view.componentSize c = .ok (width, height))
    (hf : forall x y, x < width -> y < height -> image.sample c x y = .ok (f x y))
    (hg : forall x y, x < width -> y < height -> reference.sample c x y = .ok (g x y)) :
    componentPairs image reference c = .ok (area width height fun x y => (f x y, g x y)) := by
  unfold componentPairs
  rw [hsize, Checked.ok_bind]
  apply areaPairs_eq_ok
  intro x y hx hy
  rw [hf x y hx hy, hg x y hx hy]
  rfl

/-- A shared component has the same pairs both ways, with changed sides. -/
theorem exists_componentPairs (himage : image.view.Covered)
    (hreference : reference.view.Covered) (h : Comparable lumaOnly image.view reference.view)
    (hc : c < image.format.components.length) (hc' : c < reference.format.components.length) :
    exists pairs, componentPairs image reference c = .ok pairs ∧
      componentPairs reference image c = .ok (pairs.map Prod.swap) ∧ Bounded pairs := by
  rcases Format.exists_component hc with ⟨comp, hcomp⟩
  rcases Format.exists_component hc' with ⟨second, hsecond⟩
  rcases himage.exists_values hcomp image.memory with ⟨f, hf⟩
  rcases hreference.exists_values hsecond reference.memory with ⟨g, hg⟩
  have hsize := himage.componentSize hcomp
  have hsize' := hreference.componentSize hsecond
  rw [h.columns_eq, h.lines_eq] at hg hsize'
  have hf' := fun x y hx hy => (hf x y hx hy).left
  have hg' := fun x y hx hy => (hg x y hx hy).left
  refine ⟨_, componentPairs_eq_ok hsize hf' hg', ?_, bounded_area fun x y hx hy =>
    ⟨Nat.lt_of_lt_of_le (hf x y hx hy).right (levels_le hcomp),
      Nat.lt_of_lt_of_le (hg x y hx hy).right (levels_le hsecond)⟩⟩
  rw [map_swap_area]
  exact componentPairs_eq_ok hsize' hg' hf'

theorem length_of_alpha (halpha : picture.format.hasAlpha = true) :
    picture.format.components.length = 4 :=
  eq_of_beq halpha

theorem exists_alpha (halpha : picture.format.hasAlpha = true) :
    exists comp, picture.view.format.component 3 = .ok comp :=
  Format.exists_component (Nat.lt_of_lt_of_eq (by decide) (length_of_alpha halpha).symm)

theorem exists_opacityPairs (h : picture.view.Covered)
    (halpha : picture.format.hasAlpha = true) :
    exists pairs, opacityPairs picture = .ok pairs ∧ Bounded pairs := by
  rcases exists_alpha halpha with ⟨comp, hcomp⟩
  rcases h.exists_values hcomp picture.memory with ⟨f, hf⟩
  have hsize := h.componentSize hcomp
  rw [h.fullSize (Or.inr rfl) hcomp] at hsize
  injection hsize with hsize
  injection hsize with hcolumns hlines
  rw [← hcolumns, ← hlines] at hf
  have hfull : 2 ^ picture.format.depth - 1 < 2 ^ 16 :=
    Nat.lt_of_lt_of_le (Nat.sub_lt (Nat.two_pow_pos _) Nat.one_pos) (two_pow_depth_le _)
  refine ⟨_, areaPairs_eq_ok (f := fun x y => (f x y, 2 ^ picture.format.depth - 1)) ?_,
    bounded_area fun x y hx hy =>
      ⟨Nat.lt_of_lt_of_le (hf x y hx hy).right (levels_le hcomp), hfull⟩⟩
  intro x y hx hy
  unfold Picture.sample
  rw [(hf x y hx hy).left]
  rfl

theorem loneAlphaPairs_comm (lumaOnly : Bool) (image reference : Picture) :
    loneAlphaPairs lumaOnly image reference = loneAlphaPairs lumaOnly reference image := by
  unfold loneAlphaPairs
  cases image.format.hasAlpha <;> cases reference.format.hasAlpha <;> rfl

theorem exists_loneAlphaPairs (lumaOnly : Bool) (himage : image.view.Covered)
    (hreference : reference.view.Covered) :
    exists pairs, loneAlphaPairs lumaOnly image reference = .ok pairs ∧ Bounded pairs := by
  unfold loneAlphaPairs
  split
  next => exact ⟨[], rfl, Bounded.nil⟩
  next =>
    cases halpha : image.format.hasAlpha with
    | true =>
        cases reference.format.hasAlpha with
        | true => exact ⟨[], rfl, Bounded.nil⟩
        | false => exact exists_opacityPairs himage halpha
    | false =>
        cases halpha' : reference.format.hasAlpha with
        | true => exact exists_opacityPairs hreference halpha'
        | false => exact ⟨[], rfl, Bounded.nil⟩

/-!
## All pairs
-/

theorem shared_comm (lumaOnly : Bool) (image reference : Format) :
    shared lumaOnly image reference = shared lumaOnly reference image := by
  unfold shared
  rw [Nat.min_comm]

theorem lt_of_lt_shared {image reference : Format} (h : c < shared lumaOnly image reference) :
    c < image.components.length ∧ c < reference.components.length := by
  unfold shared at h
  split at h
  next =>
    rw [Nat.lt_one_iff.mp h]
    exact ⟨image.components_length_pos, reference.components_length_pos⟩
  next => exact Nat.lt_min.mp h

/-- The pairs of comparable pictures, and the pairs of the same pictures exchanged. -/
theorem exists_comparedPairs (himage : image.view.Covered)
    (hreference : reference.view.Covered) (h : Comparable lumaOnly image.view reference.view) :
    exists common alpha, comparedPairs lumaOnly image reference = .ok (common ++ alpha) ∧
      comparedPairs lumaOnly reference image = .ok (common.map Prod.swap ++ alpha) ∧
      Bounded (common ++ alpha) := by
  have hshared : forall c, c ∈ List.range (shared lumaOnly image.format reference.format) ->
      exists pairs, componentPairs image reference c = .ok pairs ∧
        componentPairs reference image c = .ok (pairs.map Prod.swap) ∧ Bounded pairs := by
    intro c hc
    rcases lt_of_lt_shared (List.mem_range.mp hc) with ⟨hlt, hlt'⟩
    exact exists_componentPairs himage hreference h hlt hlt'
  rcases Checked.mapM_answers hshared with ⟨parts, hparts, hswapped, hbounded⟩
  rcases exists_loneAlphaPairs lumaOnly himage hreference with ⟨alpha, halpha, hopaque⟩
  refine ⟨parts.flatten, alpha, ?_, ?_, (Bounded.flatten hbounded).append hopaque⟩
  · unfold comparedPairs
    rw [hparts, Checked.ok_bind, halpha]
    rfl
  · unfold comparedPairs
    rw [shared_comm, hswapped, Checked.ok_bind, loneAlphaPairs_comm, halpha,
      List.map_flatten]
    rfl

/-!
## The checks
-/

theorem depthOf_eq {format : Format} (hc : c < format.components.length) :
    depthOf format c = format.depth := by
  rcases Format.exists_component hc with ⟨comp, hcomp⟩
  unfold depthOf
  rw [Format.component_eq_ok.mp hcomp]
  exact Format.depth_eq hcomp

theorem checkDepth_eq {image reference : Format} (hc : c < image.components.length)
    (hc' : c < reference.components.length) : checkDepth image reference c = .ok () := by
  unfold checkDepth
  rw [depthOf_eq hc, depthOf_eq hc', if_neg (not_not.mpr rfl), if_neg (not_not.mpr rfl)]

theorem commonDepth_eq (lumaOnly : Bool) (image reference : Format) :
    commonDepth image reference (shared lumaOnly image reference) =
      if image.depth ≠ reference.depth then
        .error (.depths image image.depth reference reference.depth)
      else .ok image.depth := by
  have hchecks : ((List.range (shared lumaOnly image reference)).drop 1).forM
      (checkDepth image reference) = .ok () := by
    apply Checked.forM_eq_ok
    intro c hc
    rcases lt_of_lt_shared (List.mem_range.mp (List.mem_of_mem_drop hc)) with ⟨hlt, hlt'⟩
    exact checkDepth_eq hlt hlt'
  unfold commonDepth
  rw [hchecks]
  rfl

theorem checkShape_eq {image reference : View} (hwidth : image.width = reference.width)
    (hheight : image.height = reference.height)
    (hchroma : image.format.chroma = reference.format.chroma) :
    checkShape image reference = .ok () := by
  unfold checkShape
  rw [if_neg (not_or.mpr ⟨not_not.mpr hwidth, not_not.mpr hheight⟩),
    if_neg (not_not.mpr hchroma)]

theorem componentCount_eq {image : Format} (h : lumaOnly = true -> image.isYuv = true)
    (reference : Format) :
    componentCount lumaOnly image reference = .ok (shared lumaOnly image reference) := by
  cases lumaOnly with
  | true =>
      unfold componentCount
      rw [if_pos rfl, if_pos (h rfl)]
      rfl
  | false => rfl

/-- The picture whose alpha has no counterpart, or none, but never an error. -/
theorem loneAlpha_eq (h : image.format.chroma = reference.format.chroma) :
    loneAlpha? image reference =
      .ok (if image.format.hasAlpha && !reference.format.hasAlpha then some image
        else if reference.format.hasAlpha && !image.format.hasAlpha then some reference
        else none) := by
  unfold loneAlpha?
  cases halpha : image.format.hasAlpha with
  | true =>
      rw [length_of_alpha halpha, Format.length_of_hasAlpha h halpha]
      cases reference.format.hasAlpha <;> rfl
  | false =>
      cases halpha' : reference.format.hasAlpha with
      | true =>
          rw [length_of_alpha halpha', Format.length_of_hasAlpha h.symm halpha', halpha]
          rfl
      | false => rfl

/-!
## The computation
-/

/-- No pair yet. -/
def blank (depth : Nat) : Comparison :=
  ⟨0, 0, (1 <<< depth) - 1⟩

theorem addOpacity_eq (h : picture.view.Covered) (halpha : picture.format.hasAlpha = true)
    {comparison : Comparison} (hmax : comparison.maxValue = 2 ^ picture.format.depth - 1) :
    addOpacity picture comparison = (opacityPairs picture).map comparison.add := by
  rcases exists_alpha halpha with ⟨comp, hcomp⟩
  unfold addOpacity opacityPairs
  rw [length_of_alpha halpha]
  show (picture.view.componentSize 3 >>= _) = _
  rw [h.fullSize (Or.inr rfl) hcomp, Checked.ok_bind, hmax]
  exact addArea_eq comparison _ _

theorem addLoneAlpha_eq (himage : image.view.Covered) (hreference : reference.view.Covered)
    (h : Comparable false image.view reference.view) {common : Comparison}
    (hmax : common.maxValue = 2 ^ image.format.depth - 1) :
    (Attempt.ofExcept (loneAlpha? image reference) >>= fun lone =>
      match lone with
      | none => pure common
      | some picture => Attempt.ofChecked (addOpacity picture common)) =
      Attempt.ofChecked ((loneAlphaPairs false image reference).map common.add) := by
  have hdepth : image.format.depth = reference.format.depth := h.depth
  rw [loneAlpha_eq h.chroma, Attempt.ofExcept_ok_bind]
  unfold loneAlphaPairs
  cases halpha : image.format.hasAlpha with
  | true =>
      cases reference.format.hasAlpha with
      | true => rfl
      | false => exact congrArg Attempt.ofChecked (addOpacity_eq himage halpha hmax)
  | false =>
      cases halpha' : reference.format.hasAlpha with
      | true =>
          exact congrArg Attempt.ofChecked (addOpacity_eq hreference halpha' (hdepth ▸ hmax))
      | false => rfl

/-- Comparable pictures compare as the list of all pairs. -/
theorem compute_of_comparable (himage : image.view.Covered)
    (hreference : reference.view.Covered) (h : Comparable lumaOnly image.view reference.view) :
    compute lumaOnly image reference =
      Attempt.ofChecked
        ((comparedPairs lumaOnly image reference).map (blank image.format.depth).add) := by
  have hdepth : image.format.depth = reference.format.depth := h.depth
  have hyuv : lumaOnly = true -> image.format.isYuv = true := fun hluma => (h.yuv hluma).left
  unfold compute
  rw [checkShape_eq h.width h.height h.chroma, Attempt.ofExcept_ok_bind, componentCount_eq hyuv,
    Attempt.ofExcept_ok_bind, commonDepth_eq, if_neg (not_not.mpr hdepth),
    Attempt.ofExcept_ok_bind, foldlM_add (addComponent_eq image reference)]
  unfold comparedPairs
  cases (List.range (shared lumaOnly image.format reference.format)).mapM
    (componentPairs image reference) with
  | error fault => rfl
  | ok parts =>
      have hmax : ((blank image.format.depth).add parts.flatten).maxValue =
          2 ^ image.format.depth - 1 :=
        congrArg Nat.pred (Nat.one_shiftLeft _)
      cases lumaOnly with
      | true => exact congrArg (fun sum => Attempt.ofChecked (.ok sum)) (add_add _ _ [])
      | false =>
          refine Eq.trans (addLoneAlpha_eq himage hreference h hmax) ?_
          cases loneAlphaPairs false image reference with
          | error fault => rfl
          | ok alpha =>
              exact congrArg (fun sum => Attempt.ofChecked (.ok sum)) (add_add _ _ alpha)

/-- Pictures that are not comparable are refused, and not because of their alpha. -/
theorem refuses_of_not_comparable (h : ¬ Comparable lumaOnly image.view reference.view) :
    exists error, (compute lumaOnly image reference).run = .ok (.error error) ∧
      forall a b, error ≠ .alphas a b := by
  unfold compute
  by_cases hsize : image.view.width ≠ reference.view.width ∨
      image.view.height ≠ reference.view.height
  · unfold checkShape
    rw [if_pos hsize]
    exact ⟨_, rfl, fun _ _ => ComparisonError.noConfusion⟩
  by_cases hchroma : image.view.format.chroma ≠ reference.view.format.chroma
  · unfold checkShape
    rw [if_neg hsize, if_pos hchroma]
    exact ⟨_, rfl, fun _ _ => ComparisonError.noConfusion⟩
  rcases not_or.mp hsize with ⟨hwidth, hheight⟩
  rw [not_not] at hwidth hheight hchroma
  rw [checkShape_eq hwidth hheight hchroma, Attempt.ofExcept_ok_bind]
  by_cases hyuv : lumaOnly = true -> image.format.isYuv = true
  · have hyuv' : lumaOnly = true -> reference.format.isYuv = true := fun hluma =>
      (Format.isYuv_congr hchroma).symm.trans (hyuv hluma)
    have hdepth : image.format.depth ≠ reference.format.depth := fun hdepth =>
      h ⟨hwidth, hheight, hchroma, hdepth, fun hluma => ⟨hyuv hluma, hyuv' hluma⟩⟩
    rw [componentCount_eq hyuv, Attempt.ofExcept_ok_bind, commonDepth_eq, if_pos hdepth]
    exact ⟨_, rfl, fun _ _ => ComparisonError.noConfusion⟩
  · rcases Classical.not_imp.mp hyuv with ⟨hluma, hrgb⟩
    unfold componentCount
    rw [if_pos hluma, if_neg hrgb]
    exact ⟨_, rfl, fun _ _ => ComparisonError.noConfusion⟩

theorem answers_compute (himage : image.view.Covered) (hreference : reference.view.Covered)
    {comparison : Comparison} :
    Attempt.Answers (compute lumaOnly image reference) comparison ↔
      Comparable lumaOnly image.view reference.view ∧
        exists pairs, comparedPairs lumaOnly image reference = .ok pairs ∧
          (blank image.format.depth).add pairs = comparison := by
  by_cases h : Comparable lumaOnly image.view reference.view
  · rw [compute_of_comparable himage hreference h, Attempt.answers_ofChecked,
      Checked.map_eq_ok]
    exact (and_iff_right h).symm
  · constructor
    · intro hanswers
      rcases refuses_of_not_comparable h with ⟨error, hrun, _⟩
      exact absurd hrun (hanswers.run_ne_error error)
    · intro h'
      exact absurd h'.left h

theorem exists_comparison (himage : image.view.Covered) (hreference : reference.view.Covered)
    (h : Comparable lumaOnly image.view reference.view) :
    exists comparison, Attempt.Answers (compute lumaOnly image reference) comparison := by
  rcases exists_comparedPairs himage hreference h with ⟨_, _, hpairs, _⟩
  exact ⟨_, (answers_compute himage hreference).mpr ⟨h, _, hpairs, rfl⟩⟩

theorem exists_pairs (himage : image.view.Covered) (hreference : reference.view.Covered)
    {comparison : Comparison}
    (h : Attempt.Answers (compute lumaOnly image reference) comparison) :
    exists pairs, comparedPairs lumaOnly image reference = .ok pairs ∧ Bounded pairs ∧
      comparison.squaredError = error pairs ∧ comparison.samples = pairs.length := by
  rcases (answers_compute himage hreference).mp h with ⟨hcomparable, pairs, hpairs, rfl⟩
  rcases exists_comparedPairs himage hreference hcomparable with
    ⟨common, alpha, hforth, _, hbounded⟩
  rw [hforth] at hpairs
  cases hpairs
  exact ⟨_, hforth, hbounded, Nat.zero_add _, Nat.zero_add _⟩

/-- A comparison does not depend on which picture is the reference. -/
theorem answers_compute_swap (himage : image.view.Covered)
    (hreference : reference.view.Covered) {comparison : Comparison}
    (h : Attempt.Answers (compute lumaOnly image reference) comparison) :
    Attempt.Answers (compute lumaOnly reference image) comparison := by
  rcases (answers_compute himage hreference).mp h with ⟨hcomparable, pairs, hpairs, rfl⟩
  rcases exists_comparedPairs himage hreference hcomparable with
    ⟨common, alpha, hforth, hback, _⟩
  rw [hforth] at hpairs
  cases hpairs
  refine (answers_compute hreference himage).mpr ⟨hcomparable.symm, _, hback, ?_⟩
  have hdepth : image.format.depth = reference.format.depth := hcomparable.depth
  rw [hdepth]
  simp only [add, error_append, error_swap, List.length_append, List.length_map]

/--
Two covered pictures are compared or refused, and compared exactly when they agree in size,
chroma family and depth, and luma alone only when they are YUV; alpha never gets in the way.
The result is the sum of the squared differences of all pairs, and their number.  Up to
2 ^ 32 pairs neither it nor any sum on the way to it overflows 64 bits.  It is the same
with the pictures exchanged.
-/
theorem comparison_exact (lumaOnly : Bool) (image reference : Picture)
    (himage : image.view.Covered) (hreference : reference.view.Covered) :
    Attempt.Settles (compute lumaOnly image reference) ∧
    ((exists comparison, Attempt.Answers (compute lumaOnly image reference) comparison) ↔
      Comparable lumaOnly image.view reference.view) ∧
    (forall a b, (compute lumaOnly image reference).run ≠ .ok (.error (.alphas a b))) ∧
    (forall comparison, Attempt.Answers (compute lumaOnly image reference) comparison ↔
      Attempt.Answers (compute lumaOnly reference image) comparison) ∧
    (Comparable lumaOnly image.view reference.view -> forall c comp d second,
      image.format.component c = .ok comp -> reference.format.component d = .ok second ->
        (comp.channel = second.channel ↔ c = d)) ∧
    forall comparison, Attempt.Answers (compute lumaOnly image reference) comparison ->
      exists pairs, comparedPairs lumaOnly image reference = .ok pairs ∧
        (comparison.squaredError : Int) =
          (pairs.map fun pair => ((pair.1 : Int) - pair.2) ^ 2).sum ∧
        comparison.samples = pairs.length ∧
        (comparison.squaredError = 0 ↔ forall pair, pair ∈ pairs -> pair.1 = pair.2) ∧
        (pairs.length ≤ 2 ^ 32 -> forall part, part.Sublist pairs ->
          error part ≤ comparison.squaredError ∧ comparison.squaredError < UInt64.size) := by
  refine ⟨?_, ?_, ?_, ?_, ?_, ?_⟩
  · by_cases h : Comparable lumaOnly image.view reference.view
    · rcases exists_comparison himage hreference h with ⟨comparison, hanswers⟩
      exact hanswers.settles
    · rcases refuses_of_not_comparable h with ⟨error, hrun, _⟩
      exact ⟨_, hrun⟩
  · constructor
    · intro h'
      rcases h' with ⟨comparison, h⟩
      exact ((answers_compute himage hreference).mp h).left
    · exact exists_comparison himage hreference
  · intro a b hrun
    by_cases h : Comparable lumaOnly image.view reference.view
    · rcases exists_comparison himage hreference h with ⟨comparison, hanswers⟩
      exact hanswers.run_ne_error _ hrun
    · rcases refuses_of_not_comparable h with ⟨error, hrun', herror⟩
      rw [hrun'] at hrun
      injection hrun with hrun
      injection hrun with hrun
      exact herror a b hrun
  · intro comparison
    exact ⟨answers_compute_swap himage hreference, answers_compute_swap hreference himage⟩
  · intro h c comp d second hcomp hsecond
    exact Format.channel_eq_iff h.chroma hcomp hsecond
  · intro comparison h
    rcases exists_pairs himage hreference h with ⟨pairs, hpairs, hbounded, herror, hsamples⟩
    rw [herror]
    refine ⟨pairs, hpairs, cast_error pairs, hsamples, error_eq_zero_iff, ?_⟩
    intro hlength part hpart
    exact ⟨error_le_of_sublist hpart, hbounded.error_lt hlength⟩

/-- Two pixels with alpha against two without. -/
theorem comparison_exact_argb :
    exists argb xrgb : View,
      Attempt.Answers (View.ofPlanes .argb 2 1 [8] [8]) argb ∧
      Attempt.Answers (View.ofPlanes .xrgb 2 1 [8] [8]) xrgb ∧
      Attempt.Answers (compute false ⟨argb, #[128, 1, 2, 3, 255, 4, 5, 6]⟩
        ⟨xrgb, #[0, 1, 2, 3, 9, 4, 5, 7]⟩) ⟨127 * 127 + 1, 8, 255⟩ ∧
      Attempt.Answers (compute false ⟨xrgb, #[0, 1, 2, 3, 9, 4, 5, 7]⟩
        ⟨argb, #[128, 1, 2, 3, 255, 4, 5, 6]⟩) ⟨127 * 127 + 1, 8, 255⟩ ∧
      exists pairs, comparedPairs false ⟨argb, #[128, 1, 2, 3, 255, 4, 5, 6]⟩
        ⟨xrgb, #[0, 1, 2, 3, 9, 4, 5, 7]⟩ = .ok pairs ∧ pairs.length = 8 ∧
          forall part, part.Sublist pairs -> error part ≤ 127 * 127 + 1 := by
  have hargb : Attempt.Answers (View.ofPlanes .argb 2 1 [8] [8])
      ⟨.argb, 2, 1, #v[⟨⟨0, 8⟩, 8⟩, Plane.none, Plane.none, Plane.none]⟩ := rfl
  have hxrgb : Attempt.Answers (View.ofPlanes .xrgb 2 1 [8] [8])
      ⟨.xrgb, 2, 1, #v[⟨⟨0, 8⟩, 8⟩, Plane.none, Plane.none, Plane.none]⟩ := rfl
  have hexact := comparison_exact false ⟨_, #[128, 1, 2, 3, 255, 4, 5, 6]⟩
    ⟨_, #[0, 1, 2, 3, 9, 4, 5, 7]⟩ (View.covered_of_ofPlanes hargb)
    (View.covered_of_ofPlanes hxrgb)
  have hanswers : Attempt.Answers
      (compute false
        ⟨⟨.argb, 2, 1, #v[⟨⟨0, 8⟩, 8⟩, Plane.none, Plane.none, Plane.none]⟩,
          #[128, 1, 2, 3, 255, 4, 5, 6]⟩
        ⟨⟨.xrgb, 2, 1, #v[⟨⟨0, 8⟩, 8⟩, Plane.none, Plane.none, Plane.none]⟩,
          #[0, 1, 2, 3, 9, 4, 5, 7]⟩)
      ⟨127 * 127 + 1, 8, 255⟩ := rfl
  rcases hexact with ⟨_, _, _, hswap, _, hpairs⟩
  rcases hpairs _ hanswers with ⟨pairs, hpairs, _, hlength, _, hbound⟩
  have hshort : pairs.length ≤ 2 ^ 32 := hlength ▸ (by decide : 8 ≤ 2 ^ 32)
  exact ⟨_, _, hargb, hxrgb, hanswers, (hswap _).mp hanswers, pairs, hpairs, hlength.symm,
    fun part hpart => (hbound hshort part hpart).left⟩

end Comparison
end RawVideo

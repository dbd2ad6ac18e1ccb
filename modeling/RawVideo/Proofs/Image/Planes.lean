import RawVideo.Proofs.View.Derived
import RawVideo.Image.Basic

/-!
# Planes of allocated images

The planes of a layout follow each other without overlap up to its size, and each
of them has at least the rows and the pitch that the components on it ask for.
So the view of an allocated image is covered, and it can be written.
-/

namespace RawVideo
namespace Layout

variable {format : Format} {comp : Component} {c width height : Nat}

/-!
## Pitches and rows
-/

/-- The pitch that a component asks of its plane in an image of padded width. -/
def pitchFor (format : Format) (width : Nat) (entry : Component × Nat) : Nat :=
  (width >>> (format.shiftsOf entry.2).1) * entry.1.stride

/-- The rows that a component asks of its plane in an image of padded height. -/
def rowsFor (format : Format) (height : Nat) (entry : Component × Nat) : Nat :=
  height >>> (format.shiftsOf entry.2).2

/-- Every component but the first is shifted alike, since alpha has no subsampled company. -/
theorem shiftsOf_eq (h : format.component c = .ok comp) :
    (if c > 0 then format.shifts else (0, 0)) = format.shiftsOf c :=
  Format.forall_component
    (P := fun format _ c => (if c > 0 then format.shifts else (0, 0)) = format.shiftsOf c)
    (by decide +kernel) h

theorem mod_of_padded {shift n : Nat} (h : 16 ∣ n) (hshift : shift ≤ 1) :
    n % (1 <<< shift) = 0 := by
  rcases Nat.le_one_iff_eq_zero_or_eq_one.mp hshift with rfl | rfl
  · exact Nat.mod_one n
  · show n % 2 = 0
    omega

theorem enter_eq {extents : Extents} (hpadded : 16 ∣ width)
    (hcomp : format.component c = .ok comp) :
    Extents.enter format width height extents (comp, c) =
      if extents.pitches.get comp.plane ≠ 0 ∧
          extents.pitches.get comp.plane ≠ pitchFor format width (comp, c) then
        .error (.contradiction format .pitches)
      else if extents.rows.get comp.plane ≠ 0 ∧
          extents.rows.get comp.plane ≠ rowsFor format height (comp, c) then
        .error (.contradiction format .heights)
      else .ok ⟨extents.pitches.set comp.plane (pitchFor format width (comp, c)),
        extents.rows.set comp.plane (rowsFor format height (comp, c))⟩ := by
  have hpitch : (comp.stride * width) >>> (format.shiftsOf c).1 =
      pitchFor format width (comp, c) := by
    rw [Nat.mul_comm]
    exact Format.mul_shiftRight_of_grid
      (mod_of_padded hpadded (format.shiftsOf_le_one c).left) rfl
  rw [← hpitch]
  unfold Extents.enter rowsFor
  rw [← shiftsOf_eq hcomp]

theorem enter_eq_ok {extents next : Extents} (hpadded : 16 ∣ width)
    (hcomp : format.component c = .ok comp) :
    Extents.enter format width height extents (comp, c) = .ok next ↔
      (extents.pitches.get comp.plane = 0 ∨
        extents.pitches.get comp.plane = pitchFor format width (comp, c)) ∧
      (extents.rows.get comp.plane = 0 ∨
        extents.rows.get comp.plane = rowsFor format height (comp, c)) ∧
      next = ⟨extents.pitches.set comp.plane (pitchFor format width (comp, c)),
        extents.rows.set comp.plane (rowsFor format height (comp, c))⟩ := by
  rw [enter_eq hpadded hcomp]
  split
  next hbad =>
    constructor
    · intro h
      cases h
    · intro h'
      rcases h' with ⟨hor, _, _⟩
      exact (hor.elim hbad.left hbad.right).elim
  next hgood =>
    have hpitches := Decidable.not_and_iff_not_or_not.mp hgood
    rw [Decidable.not_not, Decidable.not_not] at hpitches
    split
    next hbad =>
      constructor
      · intro h
        cases h
      · intro h'
        rcases h' with ⟨_, hor, _⟩
        exact (hor.elim hbad.left hbad.right).elim
    next hgood' =>
      have hrows := Decidable.not_and_iff_not_or_not.mp hgood'
      rw [Decidable.not_not, Decidable.not_not] at hrows
      constructor
      · intro h
        cases h
        exact ⟨hpitches, hrows, rfl⟩
      · intro h'
        rcases h' with ⟨_, _, rfl⟩
        rfl

/-- Nonzero entries stay, and every component finds what it asked for. -/
theorem foldlM_enter {entries : List (Component × Nat)} (hpadded : 16 ∣ width)
    (hentries : forall entry, entry ∈ entries -> format.component entry.2 = .ok entry.1)
    (hpos : forall entry, entry ∈ entries ->
      pitchFor format width entry ≠ 0 ∧ rowsFor format height entry ≠ 0)
    {start extents : Extents}
    (h : entries.foldlM (Extents.enter format width height) start = .ok extents) :
    (forall p, (start.pitches.get p ≠ 0 -> extents.pitches.get p = start.pitches.get p) ∧
      (start.rows.get p ≠ 0 -> extents.rows.get p = start.rows.get p)) ∧
      forall entry, entry ∈ entries ->
        extents.pitches.get entry.1.plane = pitchFor format width entry ∧
          extents.rows.get entry.1.plane = rowsFor format height entry := by
  induction entries generalizing start with
  | nil =>
      cases h
      exact ⟨fun p => ⟨fun _ => rfl, fun _ => rfl⟩,
        fun entry hentry => (List.not_mem_nil hentry).elim⟩
  | cons entry rest ih =>
      rw [List.forall_mem_cons] at hentries hpos
      rw [List.foldlM_cons] at h
      rcases Checked.bind_eq_ok.mp h with ⟨next, hnext, hrest⟩
      rcases (enter_eq_ok hpadded hentries.left).mp hnext with ⟨hpitch, hrows, rfl⟩
      rcases ih hentries.right hpos.right hrest with ⟨hkept, hmem⟩
      constructor
      · intro p
        have hp := hkept p
        rw [PerPlane.get_set, PerPlane.get_set] at hp
        split at hp
        next hplane =>
          subst hplane
          constructor
          · intro hne
            rw [hp.left hpos.left.left, hpitch.resolve_left hne]
          · intro hne
            rw [hp.right hpos.left.right, hrows.resolve_left hne]
        next => exact hp
      · rw [List.forall_mem_cons]
        have hp := hkept entry.1.plane
        rw [PerPlane.get_set, PerPlane.get_set, if_pos rfl, if_pos rfl] at hp
        exact ⟨⟨hp.left hpos.left.left, hp.right hpos.left.right⟩, hmem⟩

/-!
## Offsets
-/

theorem put_eq_ok {extents : Extents} {placed next : Placement} {p : PlaneIndex}
    (h : Placement.put format width height extents placed p = .ok next) :
    (extents.pitches.get p ≠ 0 ∧ extents.rows.get p ≠ 0) ∧
      next = ⟨placed.offsets.set p placed.size,
        extents.pitches.get p * extents.rows.get p + placed.size⟩ := by
  unfold Placement.put at h
  split at h
  next => cases h
  next hne =>
    rw [not_or] at hne
    dsimp only at h
    split at h
    next =>
      cases h
      exact ⟨hne, rfl⟩
    next => cases h

/-- Planes placed one after the other: where they lie, and what stays as it was. -/
structure Placed (extents : Extents) (planes : List PlaneIndex) (start placed : Placement) :
    Prop where
  kept : forall p, p ∉ planes -> placed.offsets.get p = start.offsets.get p
  grown : start.size ≤ placed.size
  inside : forall p, p ∈ planes -> start.size ≤ placed.offsets.get p ∧
    placed.offsets.get p + extents.pitches.get p * extents.rows.get p ≤ placed.size
  apart : forall p q, p ∈ planes -> q ∈ planes -> p ≠ q ->
    placed.offsets.get p + extents.pitches.get p * extents.rows.get p ≤ placed.offsets.get q ∨
      placed.offsets.get q + extents.pitches.get q * extents.rows.get q ≤ placed.offsets.get p

theorem placed_foldlM {extents : Extents} {planes : List PlaneIndex} (hnodup : planes.Nodup)
    {start placed : Placement}
    (h : planes.foldlM (Placement.put format width height extents) start = .ok placed) :
    Placed extents planes start placed := by
  induction planes generalizing start with
  | nil =>
      cases h
      exact ⟨fun _ _ => rfl, Nat.le_refl _, fun p hp => (List.not_mem_nil hp).elim,
        fun p q hp => (List.not_mem_nil hp).elim⟩
  | cons p rest ih =>
      rw [List.nodup_cons] at hnodup
      rw [List.foldlM_cons] at h
      rcases Checked.bind_eq_ok.mp h with ⟨next, hnext, hrest⟩
      rcases put_eq_ok hnext with ⟨_, rfl⟩
      have htail := ih hnodup.right hrest
      -- A plane that occurs once keeps the offset it is given, whatever is placed behind it.
      have hhead : placed.offsets.get p = start.size := by
        rw [htail.kept p hnodup.left, PerPlane.get_set, if_pos rfl]
      have hgrown : extents.pitches.get p * extents.rows.get p + start.size ≤ placed.size :=
        htail.grown
      have hbehind : forall q, q ∈ rest ->
          placed.offsets.get p + extents.pitches.get p * extents.rows.get p ≤
            placed.offsets.get q := by
        intro q hq
        have hq' : extents.pitches.get p * extents.rows.get p + start.size ≤ _ :=
          (htail.inside q hq).left
        omega
      refine ⟨?_, ?_, ?_, ?_⟩
      · intro q hq
        rw [List.mem_cons, not_or] at hq
        rw [htail.kept q hq.right, PerPlane.get_set, if_neg (Ne.symm hq.left)]
      · omega
      · rw [List.forall_mem_cons]
        refine ⟨by omega, ?_⟩
        intro q hq
        have hq' : extents.pitches.get p * extents.rows.get p + start.size ≤ _ ∧ _ :=
          htail.inside q hq
        omega
      · intro q r hq hr hne
        rcases List.mem_cons.mp hq with rfl | hqrest
        · rcases List.mem_cons.mp hr with rfl | hrrest
          · exact (hne rfl).elim
          · exact Or.inl (hbehind r hrrest)
        · rcases List.mem_cons.mp hr with rfl | hrrest
          · exact Or.inr (hbehind q hqrest)
          · exact htail.apart q r hqrest hrrest hne

/-!
## Computed layouts
-/

theorem nodup_planes (format : Format) : format.planes.Nodup := by
  cases format <;> decide

theorem foldlM_of_compute {layout : Layout} (h : compute format width height = .ok layout) :
    (0 < width ∧ 0 < height) ∧ exists found placed,
      extents format (roundUp width alignment) (roundUp height alignment) = .ok found ∧
      format.planes.foldlM (Placement.put format width height found) ⟨PerPlane.all 0, 0⟩ =
        .ok placed ∧
      layout = ⟨format, width, height, found.pitches, found.rows, placed.offsets,
        placed.size⟩ := by
  unfold compute at h
  split at h
  next => cases h
  next hne =>
    rw [not_or] at hne
    rcases Checked.bind_eq_ok.mp h with ⟨found, hfound, h⟩
    rcases Checked.bind_eq_ok.mp h with ⟨placed, hplaced, h⟩
    cases h
    exact ⟨⟨Nat.pos_of_ne_zero hne.left, Nat.pos_of_ne_zero hne.right⟩, found, placed, hfound,
      hplaced, rfl⟩

theorem compute_eq_ok {layout : Layout} (h : compute format width height = .ok layout) :
    (0 < width ∧ 0 < height) ∧ exists found placed,
      extents format (roundUp width alignment) (roundUp height alignment) = .ok found ∧
      Placed found format.planes ⟨PerPlane.all 0, 0⟩ placed ∧
      layout = ⟨format, width, height, found.pitches, found.rows, placed.offsets,
        placed.size⟩ := by
  rcases foldlM_of_compute h with ⟨hsize, found, placed, hfound, hplaced, hlayout⟩
  exact ⟨hsize, found, placed, hfound, placed_foldlM (nodup_planes format) hplaced, hlayout⟩

theorem shiftRight_roundUp_pos {n shift : Nat} (h : 0 < n) (hshift : shift ≤ 1) :
    0 < roundUp n alignment >>> shift := by
  have hle : n ≤ roundUp n alignment := le_roundUp (by decide)
  have hdvd : 16 ∣ roundUp n alignment := dvd_roundUp n alignment
  rcases Nat.le_one_iff_eq_zero_or_eq_one.mp hshift with rfl | rfl
  · exact Nat.lt_of_lt_of_le h hle
  · rw [Nat.shiftRight_succ, Nat.shiftRight_zero]
    omega

theorem shrunk_le_padded {n length shift : Nat} (h : n ≤ roundUp length alignment)
    (hshift : shift ≤ 1) : shrunk n shift ≤ roundUp length alignment >>> shift := by
  have hdvd : 16 ∣ roundUp length alignment := dvd_roundUp length alignment
  rcases Nat.le_one_iff_eq_zero_or_eq_one.mp hshift with rfl | rfl
  · rw [shrunk_zero]
    exact h
  · rw [shrunk_one, Nat.shiftRight_succ, Nat.shiftRight_zero]
    omega

theorem shrunk_le_roundUp (n : Nat) {shift : Nat} (hshift : shift ≤ 1) :
    shrunk n shift ≤ roundUp n alignment >>> shift :=
  shrunk_le_padded (le_roundUp (by decide)) hshift

/-- The pitch and the rows of a plane are those that each component on it asks for. -/
theorem extents_eq_ok {found : Extents} (hwidth : 0 < width) (hheight : 0 < height)
    (h : extents format (roundUp width alignment) (roundUp height alignment) = .ok found)
    (hcomp : format.component c = .ok comp) :
    found.pitches.get comp.plane = pitchFor format (roundUp width alignment) (comp, c) ∧
      found.rows.get comp.plane = rowsFor format (roundUp height alignment) (comp, c) := by
  have hpos : forall entry, entry ∈ format.components.zipIdx ->
      pitchFor format (roundUp width alignment) entry ≠ 0 ∧
        rowsFor format (roundUp height alignment) entry ≠ 0 := by
    intro entry hentry
    have hshifts := format.shiftsOf_le_one entry.2
    have hstride := Format.stride_pos (Format.mem_zipIdx_components.mp hentry)
    exact ⟨Nat.ne_of_gt (Nat.mul_pos (shiftRight_roundUp_pos hwidth hshifts.left) hstride),
      Nat.ne_of_gt (shiftRight_roundUp_pos hheight hshifts.right)⟩
  exact (foldlM_enter (dvd_roundUp width alignment) format.component_of_mem_zipIdx hpos
    h).right (comp, c) (Format.mem_zipIdx_components.mpr hcomp)

theorem extents_of_compute {layout : Layout} (h : compute format width height = .ok layout)
    (hcomp : format.component c = .ok comp) :
    layout.pitches.get comp.plane =
        pitchFor format (roundUp width alignment) (comp, c) ∧
      layout.rows.get comp.plane = rowsFor format (roundUp height alignment) (comp, c) := by
  rcases compute_eq_ok h with ⟨⟨hwidth, hheight⟩, found, placed, hfound, _, rfl⟩
  exact extents_eq_ok hwidth hheight hfound hcomp

/-- What a layout adds and multiplies without a check fits 64 bits. -/
structure Exact (format : Format) (width height : Nat) : Prop where
  columns : width + alignment < UInt64.size
  rows : height + alignment < UInt64.size
  pitch : forall c comp, format.component c = .ok comp ->
    comp.stride * roundUp width alignment < UInt64.size

theorem exact_of_lt (hwidth : width < UInt32.size) (hheight : height < UInt32.size) :
    Exact format width height := by
  have hwords : 8 * (UInt32.size + alignment) < UInt64.size := by decide
  have hround := roundUp_lt (n := width) (show 0 < alignment by decide)
  refine ⟨by omega, by omega, ?_⟩
  intro c comp hcomp
  have hle : comp.stride * roundUp width alignment ≤ 8 * (UInt32.size + alignment) :=
    Nat.mul_le_mul (Format.stride_le hcomp) (by omega)
  exact Nat.lt_of_le_of_lt hle hwords

end Layout

/-!
## Views of images
-/

namespace Image

variable {format : Format} {width height : Nat} {layout : Layout} {image : Image}

theorem viewOf_of_compute (h : Layout.compute format width height = .ok layout) :
    (viewOf layout).format = format ∧ (viewOf layout).width = width ∧
      (viewOf layout).height = height := by
  rcases Layout.compute_eq_ok h with ⟨_, _, _, _, _, rfl⟩
  exact ⟨rfl, rfl, rfl⟩

theorem planes_viewOf (layout : Layout) (p : PlaneIndex) :
    (viewOf layout).planes.get p =
      ⟨⟨layout.offsets.get p, layout.planeSize p⟩, layout.pitches.get p⟩ :=
  PerPlane.get_ofFn _ p

/-- The rows of an image down to its padded height have room on its planes. -/
theorem ample_padded (h : Layout.compute format width height = .ok layout) :
    View.Ample { viewOf layout with height := roundUp height Layout.alignment } := by
  rcases viewOf_of_compute h with ⟨hformat, hw, _⟩
  rcases Layout.compute_eq_ok h with ⟨⟨hwidth, hheight⟩, _⟩
  have hpos : 0 < roundUp height Layout.alignment :=
    Nat.lt_of_lt_of_le hheight (le_roundUp (by decide))
  refine ⟨hw.symm ▸ hwidth, hpos, ?_, ?_⟩
  · intro c comp hcomp
    change (viewOf layout).format.component c = .ok comp at hcomp
    rw [hformat] at hcomp
    unfold View.columns
    rw [planes_viewOf, (Layout.extents_of_compute h hcomp).left, hformat, hw]
    exact Nat.mul_le_mul_right _
      (Layout.shrunk_le_roundUp width (format.shiftsOf_le_one c).left)
  · intro c comp hcomp
    change (viewOf layout).format.component c = .ok comp at hcomp
    rw [hformat] at hcomp
    rcases Layout.extents_of_compute h hcomp with ⟨hpitch, hrows⟩
    have hshifts := format.shiftsOf_le_one c
    unfold View.columns View.lines
    rw [planes_viewOf, hformat, hw]
    show (format.lines c (roundUp height Layout.alignment) - 1) *
        layout.pitches.get comp.plane + format.columns c width * comp.stride ≤
      layout.pitches.get comp.plane * layout.rows.get comp.plane
    have hlast := Component.pred_mul_add_self (format.lines_pos c hpos)
      (layout.pitches.get comp.plane)
    have hrow : format.columns c width * comp.stride ≤ layout.pitches.get comp.plane := by
      rw [hpitch]
      exact Nat.mul_le_mul_right _ (Layout.shrunk_le_roundUp width hshifts.left)
    have hall : format.lines c (roundUp height Layout.alignment) *
          layout.pitches.get comp.plane ≤
        layout.rows.get comp.plane * layout.pitches.get comp.plane := by
      rw [hrows]
      exact Nat.mul_le_mul_right _
        (Layout.shrunk_le_padded (Nat.le_refl _) hshifts.right)
    rw [Nat.mul_comm _ (layout.rows.get comp.plane)]
    omega

theorem ample_viewOf (h : Layout.compute format width height = .ok layout) :
    (viewOf layout).Ample := by
  rcases viewOf_of_compute h with ⟨_, _, hh⟩
  rcases Layout.compute_eq_ok h with ⟨⟨_, hheight⟩, _⟩
  have hpos : 0 < (viewOf layout).height := hh.symm ▸ hheight
  have hle : (viewOf layout).height ≤ roundUp height Layout.alignment :=
    hh.symm ▸ le_roundUp (by decide)
  exact (ample_padded h).shorter hpos hle

theorem covered_viewOf (h : Layout.compute format width height = .ok layout)
    (hwidth : width + 2 < UInt32.size) (hheight : height + 2 < UInt32.size) :
    (viewOf layout).Covered := by
  rcases viewOf_of_compute h with ⟨_, hw, hh⟩
  rw [← hw] at hwidth
  rw [← hh] at hheight
  exact (ample_viewOf h).covered fun c comp hcomp =>
    Format.componentSize_of_lt hcomp hwidth hheight

theorem writable_viewOf (h : Layout.compute format width height = .ok layout) :
    (viewOf layout).Writable layout.size := by
  rcases viewOf_of_compute h with ⟨hformat, _, _⟩
  rcases Layout.compute_eq_ok h with ⟨_, found, placed, _, hplaced, rfl⟩
  constructor
  · intro p hp
    rw [planes_viewOf]
    exact (hplaced.inside p (hformat ▸ hp)).right
  · intro p q hp hq hne
    rw [planes_viewOf, planes_viewOf]
    exact hplaced.apart p q (hformat ▸ hp) (hformat ▸ hq) hne

theorem sides_le_size (h : Layout.compute format width height = .ok layout) :
    width ≤ layout.size ∧ height ≤ layout.size := by
  rcases viewOf_of_compute h with ⟨hformat, _, _⟩
  rcases Layout.compute_eq_ok h with ⟨⟨hwidth, hheight⟩, _⟩
  rcases Format.exists_component format.components_length_pos with ⟨first, hfirst⟩
  rcases Layout.extents_of_compute h hfirst with ⟨hpitch, hrows⟩
  have hplane : first.plane ∈ (viewOf layout).format.planes :=
    hformat.symm ▸ Format.plane_mem_planes hfirst
  have hinside := (writable_viewOf h).inside first.plane hplane
  rw [planes_viewOf] at hinside
  have hsize : layout.pitches.get first.plane * layout.rows.get first.plane ≤ layout.size :=
    Nat.le_trans (Nat.le_add_left _ _) hinside
  have hcolumns : width ≤ layout.pitches.get first.plane := by
    rw [hpitch]
    unfold Layout.pitchFor
    rw [format.shiftsOf_zero]
    exact Nat.le_trans (le_roundUp (by decide))
      (Nat.le_mul_of_pos_right _ (Format.stride_pos hfirst))
  have hlines : height ≤ layout.rows.get first.plane := by
    rw [hrows]
    unfold Layout.rowsFor
    rw [format.shiftsOf_zero]
    exact le_roundUp (by decide)
  have hleft := Nat.le_mul_of_pos_right (layout.pitches.get first.plane)
    (Nat.lt_of_lt_of_le hheight hlines)
  have hright := Nat.le_mul_of_pos_left (layout.rows.get first.plane)
    (Nat.lt_of_lt_of_le hwidth hcolumns)
  omega

theorem allocate_of_compute (h : Layout.compute format width height = .ok layout)
    (hsize : layout.size ≤ largestAllocation) :
    allocate format width height = .ok ⟨some layout, Memory.zeros layout.size⟩ := by
  unfold allocate
  rw [h]
  exact if_neg (Nat.not_lt.mpr hsize)

theorem allocate_eq_ok (h : allocate format width height = .ok image) :
    exists layout, Layout.compute format width height = .ok layout ∧
      layout.size ≤ largestAllocation ∧
      image = ⟨some layout, Memory.zeros layout.size⟩ := by
  unfold allocate at h
  split at h
  next => cases h
  next layout hlayout =>
    split at h
    next => cases h
    next hle =>
      cases h
      exact ⟨layout, hlayout, Nat.not_lt.mp hle, rfl⟩

end Image
end RawVideo

import RawVideo.Proofs.View.Covered

/-!
# Accepted planes

The check of planes that were laid out elsewhere.  What it accepts is covered,
and on sizes that leave room in a machine word it never faults.
-/

namespace RawVideo
namespace View

variable {format : Format} {width height : Nat} {planes : PerPlane Plane}

/-!
## One plane
-/

theorem answers_checkPlane {extents : PerPlane Extent} {p : PlaneIndex} :
    Attempt.Answers (checkPlane extents planes p) () ↔
      ((extents.get p).row ≤ (planes.get p).pitch ∧
        ((extents.get p).rows - 1) * (planes.get p).pitch + (extents.get p).row ≤
          (planes.get p).length) ∧
      ((extents.get p).rows - 1) * (planes.get p).pitch + (extents.get p).row <
        UInt64.size := by
  unfold checkPlane
  rw [Attempt.answers_unless, Attempt.answers_bind, Nat.not_lt]
  constructor
  · intro h
    rcases h with ⟨hpitch, lead, hlead, hrest⟩
    rcases Checked.word64_eq_ok.mp (Attempt.answers_ofChecked.mp hlead) with ⟨_, rfl⟩
    rcases Attempt.answers_bind.mp hrest with ⟨needed, hneeded, hlength⟩
    rcases Checked.word64_eq_ok.mp (Attempt.answers_ofChecked.mp hneeded) with ⟨hword, rfl⟩
    split at hlength
    next => exact (Attempt.not_answers_throw _ _ hlength).elim
    next hle => exact ⟨⟨hpitch, Nat.not_lt.mp hle⟩, hword⟩
  · intro h
    rcases h with ⟨⟨hpitch, hlength⟩, hword⟩
    refine ⟨hpitch, ((extents.get p).rows - 1) * (planes.get p).pitch, ?_, ?_⟩
    · exact Attempt.answers_ofChecked.mpr
        (Checked.word64_of_lt (Nat.lt_of_le_of_lt (Nat.le_add_right _ _) hword))
    · rw [Attempt.answers_bind]
      refine ⟨_, Attempt.answers_ofChecked.mpr (Checked.word64_of_lt hword), ?_⟩
      rw [if_neg (Nat.not_lt.mpr hlength)]
      rfl

theorem settles_checkPlane {extents : PerPlane Extent} {p : PlaneIndex}
    (h : (extents.get p).row ≤ (planes.get p).pitch ->
      ((extents.get p).rows - 1) * (planes.get p).pitch + (extents.get p).row < UInt64.size) :
    Attempt.Settles (checkPlane extents planes p) := by
  unfold checkPlane
  apply Attempt.settles_unless
  intro hpitch
  have hword := h (Nat.not_lt.mp hpitch)
  have hlead := Checked.word64_of_lt (Nat.lt_of_le_of_lt (Nat.le_add_right _ _) hword)
  apply (Attempt.settles_ofChecked hlead).bind
  intro lead hanswer
  rw [Attempt.answers_ofChecked, hlead] at hanswer
  cases hanswer
  apply (Attempt.settles_ofChecked (Checked.word64_of_lt hword)).bind
  intro needed _
  split
  · exact Attempt.settles_throw _
  · exact (Attempt.answers_pure ()).settles

/-!
## All planes
-/

theorem answers_checkPlanes :
    Attempt.Answers (checkPlanes format width height planes) () ↔
      ¬ (width = 0 ∨ height = 0) ∧ exists extents, format.extents width height = .ok extents ∧
        forall p, p ∈ format.planes -> Attempt.Answers (checkPlane extents planes p) () := by
  unfold checkPlanes
  rw [Attempt.answers_unless, Attempt.answers_bind]
  simp only [Attempt.answers_ofChecked, Attempt.answers_forM]

theorem covered_of_checkPlanes (h : Attempt.Answers (checkPlanes format width height planes) ()) :
    Covered ⟨format, width, height, planes⟩ := by
  rcases answers_checkPlanes.mp h with ⟨hsize, extents, hextents, hplanes⟩
  rw [not_or] at hsize
  exact ⟨Nat.pos_of_ne_zero hsize.left, Nat.pos_of_ne_zero hsize.right, extents, hextents,
    fun p hp => (answers_checkPlane.mp (hplanes p hp)).left⟩

/-- A covered view passes the check, if its planes are no longer than a word allows. -/
theorem Covered.answers_checkPlanes {view : View} (h : view.Covered)
    (hword : forall p, p ∈ view.format.planes -> (view.planes.get p).length < UInt64.size) :
    Attempt.Answers (checkPlanes view.format view.width view.height view.planes) () := by
  rcases h.planes with ⟨extents, hextents, hfits⟩
  have hsize := not_or.mpr ⟨Nat.ne_of_gt h.width_pos, Nat.ne_of_gt h.height_pos⟩
  refine View.answers_checkPlanes.mpr ⟨hsize, extents, hextents, fun p hp => ?_⟩
  have hfit := hfits p hp
  exact answers_checkPlane.mpr ⟨hfit, Nat.lt_of_le_of_lt hfit.right (hword p hp)⟩

theorem extents_rows_le {extents : PerPlane Extent} (hwidth : 0 < width)
    (h : format.extents width height = .ok extents) (p : PlaneIndex) :
    (extents.get p).rows ≤ height := by
  have hrow : forall entry, entry ∈ format.components.zipIdx ->
      format.columns entry.2 width * entry.1.stride ≤ (extents.get entry.1.plane).row :=
    fun entry hentry =>
      (Format.asked_within_extents hwidth h
        (Format.mem_zipIdx_components.mp hentry)).right.row
  have hwithin : (extents.get p).Within ⟨height, (extents.get p).row⟩ := by
    apply Format.extents_within hwidth h
    intro c comp hcomp heq
    subst heq
    exact ⟨format.lines_le c height, hrow (comp, c) (Format.mem_zipIdx_components.mpr hcomp)⟩
  exact hwithin.rows

theorem settles_checkPlanes (hwidth : width + 2 < UInt32.size)
    (hheight : height + 2 < UInt32.size)
    (hpitch : forall p, p ∈ format.planes -> height * (planes.get p).pitch < UInt64.size) :
    Attempt.Settles (checkPlanes format width height planes) := by
  unfold checkPlanes
  apply Attempt.settles_unless
  intro hsize
  rw [not_or] at hsize
  have hpos := Nat.pos_of_ne_zero hsize.left
  rcases Format.exists_extents hpos fun c comp hcomp =>
    Format.componentSize_of_lt hcomp hwidth hheight with ⟨extents, hextents⟩
  apply (Attempt.settles_ofChecked hextents).bind
  intro answered hanswered
  rw [Attempt.answers_ofChecked, hextents] at hanswered
  cases hanswered
  refine Attempt.settles_forM fun p hp => settles_checkPlane fun hrow => ?_
  have hrows := Nat.mul_le_mul_right (planes.get p).pitch
    (Nat.sub_le_sub_right (extents_rows_le hpos hextents p) 1)
  have hlast := Component.pred_mul_add_self (Nat.pos_of_ne_zero hsize.right) (planes.get p).pitch
  have hword := hpitch p hp
  omega

/-!
## Planes of known lengths
-/

/-- The planes of a format that lie one behind the other, and nothing in place of the others. -/
def placed (format : Format) (lengths pitches : List Nat) : PerPlane Plane :=
  PerPlane.ofFn fun p =>
    if p.val < format.planeCount then
      (placeFrom 0 (lengths.zip pitches)).getD p.val Plane.none
    else Plane.none

theorem answers_ofPlanes {lengths pitches : List Nat} {view : View}
    (h : Attempt.Answers (ofPlanes format width height lengths pitches) view) :
    ¬ (lengths.length < format.planeCount ∨ pitches.length < format.planeCount) ∧
      Attempt.Answers (checkPlanes format width height view.planes) () ∧
      view = ⟨format, width, height, placed format lengths pitches⟩ := by
  unfold ofPlanes at h
  rw [Attempt.answers_unless, Attempt.answers_unless, Attempt.answers_bind] at h
  rcases h with ⟨_, hcount, _, hcheck, hview⟩
  rw [Attempt.answers_pure_iff] at hview
  subst hview
  exact ⟨hcount, hcheck, rfl⟩

theorem covered_of_ofPlanes {lengths pitches : List Nat} {view : View}
    (h : Attempt.Answers (ofPlanes format width height lengths pitches) view) :
    view.Covered := by
  rcases answers_ofPlanes h with ⟨_, hcheck, hview⟩
  have hcovered := covered_of_checkPlanes hcheck
  rw [hview] at hcovered ⊢
  exact hcovered

end View
end RawVideo

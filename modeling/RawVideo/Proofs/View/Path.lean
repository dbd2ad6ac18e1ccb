import RawVideo.Proofs.Image.Planes
import RawVideo.Conversion.Basic

/-!
# Views at the end of a path

What a single step keeps, every path keeps: a covered view stays covered, its planes
shrink inside the planes it came from, and no step faults.  Planes that were laid out
elsewhere follow each other, so a view of them is one to write through.
-/

namespace RawVideo
namespace View

variable {view derived : View} {comp : Component} {c x y : Nat}

/-!
## Steps and paths
-/

theorem covered_of_step {step : Step} (h : view.Covered)
    (hstep : Attempt.Answers (view.step step) derived) : derived.Covered := by
  cases step with
  | crop rect => exact covered_of_crop h hstep
  | field field => exact covered_of_field hstep

theorem small_of_step {step : Step} (h : view.Covered) (hsmall : view.Small)
    (hstep : Attempt.Answers (view.step step) derived) : derived.Small := by
  cases step with
  | crop rect => exact small_of_crop h hsmall hstep
  | field field => exact small_of_field hsmall hstep

theorem part_of_step {step : Step} (h : view.Ample)
    (hstep : Attempt.Answers (view.step step) derived) : derived.Part view := by
  cases step with
  | crop rect => exact part_of_crop h hstep
  | field field => exact part_of_field hstep

theorem settles_step (h : view.Covered) (hsmall : view.Small) (step : Step) :
    Attempt.Settles (view.step step) := by
  cases step with
  | crop rect => exact settles_crop h rect
  | field field => exact settles_field h hsmall field

theorem derive_nil (view : View) : view.derive [] = pure view := rfl

theorem derive_cons (view : View) (step : Step) (path : List Step) :
    view.derive (step :: path) = view.step step >>= fun next => next.derive path := rfl

theorem derive_keeps {path : List Step} (h : view.Covered) (hsmall : view.Small)
    (hpath : Attempt.Answers (view.derive path) derived) :
    derived.Covered ∧ derived.Small ∧ derived.Part view := by
  -- Small sizes and pitches are part of the invariant, since the next step computes with them.
  induction path generalizing view with
  | nil =>
      rw [derive_nil, Attempt.answers_pure_iff] at hpath
      subst hpath
      exact ⟨h, hsmall, Part.refl view⟩
  | cons step rest ih =>
      rw [derive_cons, Attempt.answers_bind] at hpath
      rcases hpath with ⟨next, hstep, hrest⟩
      rcases ih (covered_of_step h hstep) (small_of_step h hsmall hstep) hrest with
        ⟨hcovered, hsmall', hpart⟩
      exact ⟨hcovered, hsmall', hpart.trans (part_of_step h.ample hstep)⟩

theorem settles_derive (h : view.Covered) (hsmall : view.Small) (path : List Step) :
    Attempt.Settles (view.derive path) := by
  induction path generalizing view with
  | nil => exact (Attempt.answers_pure view).settles
  | cons step rest ih =>
      rw [derive_cons]
      exact (settles_step h hsmall step).bind fun next hnext =>
        ih (covered_of_step h hnext) (small_of_step h hsmall hnext)

/-!
## Planes laid out elsewhere
-/

/-- The address behind planes of the given lengths that follow each other from `start` on. -/
def behind (start : Nat) : List (Nat × Nat) -> Nat
  | [] => start
  | (length, _) :: rest => behind (start + length) rest

theorem le_behind (start : Nat) (entries : List (Nat × Nat)) : start ≤ behind start entries := by
  induction entries generalizing start with
  | nil => exact Nat.le_refl start
  | cons entry rest ih => exact Nat.le_trans (Nat.le_add_right start entry.1) (ih _)

theorem placeFrom_bounds {start i : Nat} {entries : List (Nat × Nat)} {plane : Plane}
    (h : (placeFrom start entries)[i]? = some plane) :
    start ≤ plane.start ∧ plane.stop ≤ behind start entries := by
  induction entries generalizing start i with
  | nil => cases h
  | cons entry rest ih =>
      cases i with
      | zero =>
          cases h
          exact ⟨Nat.le_refl start, le_behind (start + entry.1) rest⟩
      | succ i =>
          have hrest : start + entry.1 ≤ plane.start ∧
              plane.stop ≤ behind (start + entry.1) rest := ih h
          exact ⟨Nat.le_trans (Nat.le_add_right start entry.1) hrest.left, hrest.right⟩

theorem placeFrom_apart {start i j : Nat} {entries : List (Nat × Nat)} {plane other : Plane}
    (hlt : i < j) (h : (placeFrom start entries)[i]? = some plane)
    (hother : (placeFrom start entries)[j]? = some other) : plane.stop ≤ other.start := by
  induction entries generalizing start i j with
  | nil => cases h
  | cons entry rest ih =>
      cases j with
      | zero => cases hlt
      | succ j =>
          cases i with
          | zero =>
              cases h
              have hnext : (placeFrom (start + entry.1) rest)[j]? = some other := hother
              exact (placeFrom_bounds hnext).left
          | succ i => exact ih (Nat.lt_of_succ_lt_succ hlt) h hother

theorem length_placeFrom (start : Nat) (entries : List (Nat × Nat)) :
    (placeFrom start entries).length = entries.length := by
  induction entries generalizing start with
  | nil => rfl
  | cons entry rest ih => exact congrArg (· + 1) (ih (start + entry.1))

theorem getElem?_placed {format : Format} {lengths pitches : List Nat} {p : PlaneIndex}
    (hcount : ¬ (lengths.length < format.planeCount ∨ pitches.length < format.planeCount))
    (hp : p ∈ format.planes) :
    (placeFrom 0 (lengths.zip pitches))[p.val]? = some ((placed format lengths pitches).get p) := by
  rw [Format.mem_planes] at hp
  have hlt : p.val < (placeFrom 0 (lengths.zip pitches)).length := by
    rw [length_placeFrom, List.length_zip]
    omega
  unfold placed
  rw [PerPlane.get_ofFn, if_pos hp, List.getD_eq_getElem?_getD, List.getElem?_eq_getElem hlt]
  rfl

theorem writable_of_ofPlanes {format : Format} {width height size : Nat}
    {lengths pitches : List Nat}
    (h : Attempt.Answers (ofPlanes format width height lengths pitches) view)
    (hsize : behind 0 (lengths.zip pitches) ≤ size) : view.Writable size := by
  rcases answers_ofPlanes h with ⟨hcount, _, hview⟩
  have hplane : forall p, p ∈ view.format.planes ->
      (placeFrom 0 (lengths.zip pitches))[p.val]? = some (view.planes.get p) := by
    subst hview
    intro p hp
    exact getElem?_placed hcount hp
  constructor
  · intro p hp
    exact Nat.le_trans (placeFrom_bounds (hplane p hp)).right hsize
  · intro p q hp hq hne
    rcases Nat.lt_or_gt_of_ne (Fin.val_ne_of_ne hne) with hlt | hgt
    · exact Or.inl (placeFrom_apart hlt (hplane p hp) (hplane q hq))
    · exact Or.inr (placeFrom_apart hgt (hplane q hq) (hplane p hp))

/-!
## Visible extents
-/

theorem foldlM_visible_widen {format : Format} {width height : Nat} (hwidth : 0 < width)
    {entries : List (Component × Nat)}
    (hentries : forall entry, entry ∈ entries -> format.component entry.2 = .ok entry.1)
    {start extents : PerPlane Extent} (p : PlaneIndex)
    (h : entries.foldlM (format.widen width height) start = .ok extents) :
    entries.foldlM (Conversion.widen format width height p) (start.get p) =
      .ok (extents.get p) := by
  induction entries generalizing start with
  | nil =>
      cases h
      rfl
  | cons entry rest ih =>
      rw [List.forall_mem_cons] at hentries
      rw [List.foldlM_cons] at h ⊢
      rcases Checked.bind_eq_ok.mp h with ⟨next, hnext, hrest⟩
      rcases (Format.widen_eq_ok hentries.left hwidth).mp hnext with ⟨hsize, rfl⟩
      have hentry : Conversion.widen format width height p (start.get p) entry =
          .ok ((start.set entry.1.plane
            ⟨max (start.get entry.1.plane).rows (format.asked width height entry).rows,
              max (start.get entry.1.plane).row (format.asked width height entry).row⟩).get
            p) := by
        unfold Conversion.widen
        rw [PerPlane.get_set]
        split
        next hplane =>
          rw [hsize, hplane]
          rfl
        next => rfl
      rw [hentry, Checked.ok_bind]
      exact ih hentries.right hrest

theorem visibleExtent_eq {format : Format} {width height : Nat} {extents : PerPlane Extent}
    (hwidth : 0 < width) (h : format.extents width height = .ok extents) (p : PlaneIndex) :
    Conversion.visibleExtent format width height p = .ok (extents.get p) := by
  have hfold := foldlM_visible_widen hwidth format.component_of_mem_zipIdx p h
  rw [PerPlane.get_all] at hfold
  exact hfold

end View
end RawVideo

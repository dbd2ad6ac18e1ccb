import Mathlib.Algebra.Group.Nat.Defs
import RawVideo.Proofs.View.Path

/-!
# Planes from outside

What the check of planes that were laid out elsewhere does with any sizes, lengths and
pitches.  It computes with machine words, so it stops where a size or the extent of a
plane does not fit its word.  Where it accepts, every visible sample lies in its plane.
-/

namespace RawVideo

/-!
## Sizes that fit
-/

namespace Format

variable {format : Format} {comp : Component} {c width height : Nat} {fault : Fault}

/-- The sums behind the sizes of all components fit their word. -/
def SizesFit (format : Format) (width height : Nat) : Prop :=
  width + (1 <<< format.shifts.1) < UInt32.size ∧
    height + (1 <<< format.shifts.2) < UInt32.size

/-- Some component is halved as often as chroma is. -/
theorem exists_shifted (format : Format) :
    exists c comp, format.component c = .ok comp ∧ format.shiftsOf c = format.shifts := by
  have hentry : forall format, format ∈ all -> exists entry, entry ∈ format.components.zipIdx ∧
      format.shiftsOf entry.2 = format.shifts := by
    decide +kernel
  rcases hentry format (mem_all format) with ⟨⟨comp, c⟩, hmem, hshifts⟩
  exact ⟨c, comp, mem_zipIdx_components.mp hmem, hshifts⟩

theorem componentSize_of_fit (h : format.SizesFit width height)
    (hcomp : format.component c = .ok comp) :
    format.componentSize c width height =
      .ok (format.columns c width, format.lines c height) := by
  refine (componentSize_eq_ok hcomp).mpr ?_
  rcases shiftsOf_eq_zero_or hcomp with hzero | ⟨hshifts, _⟩
  · have hw : 1 ≤ 1 <<< format.shifts.1 := by
      rw [Nat.one_shiftLeft]
      exact Nat.two_pow_pos _
    have hh : 1 ≤ 1 <<< format.shifts.2 := by
      rw [Nat.one_shiftLeft]
      exact Nat.two_pow_pos _
    rw [hzero]
    exact ⟨Nat.lt_of_le_of_lt (Nat.add_le_add_left hw width) h.left,
      Nat.lt_of_le_of_lt (Nat.add_le_add_left hh height) h.right, rfl⟩
  · rw [hshifts]
    exact ⟨h.left, h.right, rfl⟩

theorem halved_eq_error {length shift : Nat} (h : halved length shift = .error fault) :
    fault = .overflow := by
  unfold halved Checked.word32 at h
  split at h
  next hword =>
    split at hword
    next => cases hword
    next =>
      cases hword
      cases h
      rfl
  next => cases h

theorem componentSize_eq_error (hcomp : format.component c = .ok comp)
    (h : format.componentSize c width height = .error fault) : fault = .overflow := by
  unfold componentSize at h
  rw [componentShifts_eq hcomp, Checked.ok_bind] at h
  rcases Checked.bind_eq_error.mp h with hw | ⟨_, _, h⟩
  · exact halved_eq_error hw
  · rcases Checked.bind_eq_error.mp h with hh | ⟨_, _, h⟩
    · exact halved_eq_error hh
    · cases h

theorem widen_eq_error {extents : PerPlane Extent} (hcomp : format.component c = .ok comp)
    (h : format.widen width height extents (comp, c) = .error fault) : fault = .overflow := by
  unfold widen at h
  rcases Checked.bind_eq_error.mp h with hextent | ⟨_, _, h⟩
  · unfold componentExtent at hextent
    rcases Checked.bind_eq_error.mp hextent with hsize | ⟨_, _, h⟩
    · exact componentSize_eq_error hcomp hsize
    · cases h
  · cases h

theorem exists_extents_iff (hwidth : 0 < width) :
    (exists extents, format.extents width height = .ok extents) ↔
      format.SizesFit width height := by
  constructor
  · intro h'
    rcases h' with ⟨extents, hextents⟩
    rcases format.exists_shifted with ⟨c, comp, hcomp, hshifts⟩
    have hsize := (asked_within_extents hwidth hextents hcomp).left
    rcases (componentSize_eq_ok hcomp).mp hsize with ⟨hw, hh, _⟩
    rw [hshifts] at hw hh
    exact ⟨hw, hh⟩
  · intro h
    exact exists_extents hwidth fun c comp hcomp => componentSize_of_fit h hcomp

/-- The extents of a picture overflow where the size of a component does not fit. -/
theorem extents_eq_error (hwidth : 0 < width) :
    format.extents width height = .error fault ↔
      fault = .overflow ∧ ¬ format.SizesFit width height := by
  rw [← exists_extents_iff hwidth]
  cases hextents : format.extents width height with
  | ok extents =>
      constructor
      · intro h
        cases h
      · intro h
        exact (h.right ⟨extents, rfl⟩).elim
  | error other =>
      rcases Checked.exists_of_foldlM_eq_error hextents with ⟨entry, start, hentry, herror⟩
      have hoverflow := widen_eq_error (component_of_mem_zipIdx format entry hentry) herror
      subst hoverflow
      constructor
      · intro h
        cases h
        refine ⟨rfl, fun h' => ?_⟩
        rcases h' with ⟨extents, h⟩
        cases h
      · intro h
        rw [h.left]

theorem pairwise_planes (format : Format) : format.planes.Pairwise (· < ·) := by
  cases format <;> decide

/-- The planes in front of a plane of a format are those with smaller numbers. -/
theorem mem_front_iff {front back : List PlaneIndex} {p q : PlaneIndex}
    (hsplit : format.planes = front ++ p :: back) :
    q ∈ front ↔ q ∈ format.planes ∧ q < p := by
  have hsorted := format.pairwise_planes
  rw [hsplit, List.pairwise_append, List.pairwise_cons] at hsorted
  rw [hsplit, List.mem_append, List.mem_cons]
  constructor
  · intro hq
    exact ⟨Or.inl hq, hsorted.right.right q hq p List.mem_cons_self⟩
  · intro h'
    rcases h' with ⟨hq | rfl | hq, hlt⟩
    · exact hq
    · exact absurd hlt (Fin.lt_irrefl q)
    · exact absurd hlt (Fin.lt_asymm (hsorted.right.left.left q hq))

end Format

namespace View

variable {format : Format} {width height : Nat} {lengths pitches : List Nat}
variable {view : View} {planes : PerPlane Plane} {fault : Fault}

/-!
## Checks that overflow
-/

theorem faults_checkPlane {extents : PerPlane Extent} {p : PlaneIndex} :
    Attempt.Faults (checkPlane extents planes p) fault ↔
      fault = .overflow ∧ (extents.get p).row ≤ (planes.get p).pitch ∧
        UInt64.size ≤
          ((extents.get p).rows - 1) * (planes.get p).pitch + (extents.get p).row := by
  unfold checkPlane
  rw [Attempt.faults_unless, Attempt.faults_bind, Attempt.faults_ofChecked,
    Checked.word64_eq_error, Nat.not_lt]
  constructor
  · intro h'
    rcases h' with ⟨hpitch, ⟨hfault, hlead⟩ | ⟨lead, hlead, hrest⟩⟩
    · exact ⟨hfault, hpitch, Nat.le_trans hlead (Nat.le_add_right _ _)⟩
    · rcases Checked.word64_eq_ok.mp (Attempt.answers_ofChecked.mp hlead) with ⟨_, rfl⟩
      rcases Attempt.faults_bind.mp hrest with hneeded | ⟨needed, _, hlast⟩
      · rw [Attempt.faults_ofChecked, Checked.word64_eq_error] at hneeded
        exact ⟨hneeded.left, hpitch, hneeded.right⟩
      · split at hlast
        · exact (Attempt.not_faults_throw _ hlast).elim
        · exact (Attempt.not_faults_pure _ hlast).elim
  · intro h'
    rcases h' with ⟨hfault, hpitch, hneeded⟩
    refine ⟨hpitch, ?_⟩
    by_cases hlead : ((extents.get p).rows - 1) * (planes.get p).pitch < UInt64.size
    · refine Or.inr ⟨_, Attempt.answers_ofChecked.mpr (Checked.word64_of_lt hlead), ?_⟩
      rw [Attempt.faults_bind, Attempt.faults_ofChecked, Checked.word64_eq_error]
      exact Or.inl ⟨hfault, hneeded⟩
    · exact Or.inl ⟨hfault, Nat.not_lt.mp hlead⟩

/-- What the check of a plane asks of its length. -/
def needed (extents : PerPlane Extent) (pitches : List Nat) (p : PlaneIndex) : Nat :=
  ((extents.get p).rows - 1) * pitches.getD p.val 0 + (extents.get p).row

/-- A plane of a given length and pitch passes its check. -/
structure Passes (extents : PerPlane Extent) (lengths pitches : List Nat) (p : PlaneIndex) :
    Prop where
  pitch : (extents.get p).row ≤ pitches.getD p.val 0
  length : needed extents pitches p ≤ lengths.getD p.val 0
  word : needed extents pitches p < UInt64.size

/-- Where the check of planes computes a number that does not fit its machine word. -/
inductive Overflows (format : Format) (width height : Nat) (lengths pitches : List Nat) :
    Prop where
  /-- The sum behind the size of some component does not fit. -/
  | size (h : UInt32.size ≤ width + (1 <<< format.shifts.1) ∨
      UInt32.size ≤ height + (1 <<< format.shifts.2)) :
      Overflows format width height lengths pitches
  /-- The extent of a plane does not fit, and the planes in front of it pass. -/
  | plane {extents : PerPlane Extent} {p : PlaneIndex}
      (hextents : format.extents width height = .ok extents) (hp : p ∈ format.planes)
      (hfront : forall q, q ∈ format.planes -> q < p -> Passes extents lengths pitches q)
      (hpitch : (extents.get p).row ≤ pitches.getD p.val 0)
      (hneeded : UInt64.size ≤ needed extents pitches p) :
      Overflows format width height lengths pitches

theorem placeFrom_entry {start i : Nat} {entries : List (Nat × Nat)} {plane : Plane}
    (h : (placeFrom start entries)[i]? = some plane) :
    entries[i]? = some (plane.length, plane.pitch) := by
  induction entries generalizing start i with
  | nil => cases h
  | cons entry rest ih =>
      cases i with
      | zero =>
          cases h
          rfl
      | succ i => exact ih h

/-- Each plane of the format has the length and the pitch that were given for it. -/
theorem given_of_placed {p : PlaneIndex}
    (hcount : ¬ (lengths.length < format.planeCount ∨ pitches.length < format.planeCount))
    (hp : p ∈ format.planes) :
    lengths[p.val]? = some ((placed format lengths pitches).get p).length ∧
      pitches[p.val]? = some ((placed format lengths pitches).get p).pitch :=
  List.getElem?_zip_eq_some.mp (placeFrom_entry (getElem?_placed hcount hp))

theorem getD_of_placed {p : PlaneIndex}
    (hcount : ¬ (lengths.length < format.planeCount ∨ pitches.length < format.planeCount))
    (hp : p ∈ format.planes) :
    lengths.getD p.val 0 = ((placed format lengths pitches).get p).length ∧
      pitches.getD p.val 0 = ((placed format lengths pitches).get p).pitch := by
  rcases given_of_placed hcount hp with ⟨hlength, hpitch⟩
  rw [List.getD_eq_getElem?_getD, List.getD_eq_getElem?_getD, hlength, hpitch]
  exact ⟨rfl, rfl⟩

theorem passes_iff {extents : PerPlane Extent} {p : PlaneIndex}
    (hcount : ¬ (lengths.length < format.planeCount ∨ pitches.length < format.planeCount))
    (hp : p ∈ format.planes) :
    Attempt.Answers (checkPlane extents (placed format lengths pitches) p) () ↔
      Passes extents lengths pitches p := by
  rcases getD_of_placed hcount hp with ⟨hlength, hpitch⟩
  rw [answers_checkPlane, ← hlength, ← hpitch]
  constructor
  · intro h
    exact ⟨h.left.left, h.left.right, h.right⟩
  · intro h
    exact ⟨⟨h.pitch, h.length⟩, h.word⟩

theorem faults_checkPlanes :
    Attempt.Faults (checkPlanes format width height planes) fault ↔
      ¬ (width = 0 ∨ height = 0) ∧
        (format.extents width height = .error fault ∨
          exists extents, format.extents width height = .ok extents ∧
            Attempt.Faults (format.planes.forM (checkPlane extents planes)) fault) := by
  unfold checkPlanes
  rw [Attempt.faults_unless, Attempt.faults_bind, Attempt.faults_ofChecked]
  simp only [Attempt.answers_ofChecked]

theorem faults_ofPlanes :
    Attempt.Faults (ofPlanes format width height lengths pitches) fault ↔
      ¬ (width = 0 ∨ height = 0) ∧
        ¬ (lengths.length < format.planeCount ∨ pitches.length < format.planeCount) ∧
          Attempt.Faults
            (checkPlanes format width height (placed format lengths pitches)) fault := by
  unfold ofPlanes
  rw [Attempt.faults_unless, Attempt.faults_unless, Attempt.faults_bind]
  constructor
  · intro h'
    rcases h' with ⟨hsize, hcount, hcheck | ⟨_, _, hpure⟩⟩
    · exact ⟨hsize, hcount, hcheck⟩
    · exact (Attempt.not_faults_pure _ hpure).elim
  · intro h
    exact ⟨h.left, h.right.left, Or.inl h.right.right⟩

/-- The check stops at the first plane whose extent does not fit. -/
theorem faults_forM_checkPlane {extents : PerPlane Extent}
    (hcount : ¬ (lengths.length < format.planeCount ∨ pitches.length < format.planeCount)) :
    Attempt.Faults
        (format.planes.forM (checkPlane extents (placed format lengths pitches))) fault ↔
      fault = .overflow ∧ exists p, p ∈ format.planes ∧
        (forall q, q ∈ format.planes -> q < p -> Passes extents lengths pitches q) ∧
          (extents.get p).row ≤ pitches.getD p.val 0 ∧
            UInt64.size ≤ needed extents pitches p := by
  unfold needed
  rw [Attempt.faults_forM]
  constructor
  · intro h'
    rcases h' with ⟨front, p, back, hsplit, hfront, hfault⟩
    have hp : p ∈ format.planes :=
      hsplit ▸ List.mem_append_right front List.mem_cons_self
    rw [faults_checkPlane, ← (getD_of_placed hcount hp).right] at hfault
    refine ⟨hfault.left, p, hp, ?_, hfault.right⟩
    intro q hq hlt
    exact (passes_iff hcount hq).mp (hfront q ((Format.mem_front_iff hsplit).mpr ⟨hq, hlt⟩))
  · intro h'
    rcases h' with ⟨hfault, p, hp, hfront, hbounds⟩
    rcases List.append_of_mem hp with ⟨front, back, hsplit⟩
    refine ⟨front, p, back, hsplit, ?_, ?_⟩
    · intro q hq
      rcases (Format.mem_front_iff hsplit).mp hq with ⟨hmem, hlt⟩
      exact (passes_iff hcount hmem).mpr (hfront q hmem hlt)
    · rw [faults_checkPlane, ← (getD_of_placed hcount hp).right]
      exact ⟨hfault, hbounds⟩

theorem faults_iff_overflows :
    Attempt.Faults (ofPlanes format width height lengths pitches) fault ↔
      fault = .overflow ∧ width ≠ 0 ∧ height ≠ 0 ∧ format.planeCount ≤ lengths.length ∧
        format.planeCount ≤ pitches.length ∧
          Overflows format width height lengths pitches := by
  rw [faults_ofPlanes, faults_checkPlanes]
  constructor
  · intro h'
    rcases h' with ⟨hsize, hcount, _, hfault⟩
    have hcount' := not_or.mp hcount
    have hpos := Nat.pos_of_ne_zero (not_or.mp hsize).left
    have hoverflow : fault = .overflow ∧ Overflows format width height lengths pitches := by
      rcases hfault with hextents | ⟨extents, hextents, hplanes⟩
      · rcases (Format.extents_eq_error hpos).mp hextents with ⟨hfault, hfit⟩
        rw [Format.SizesFit, Decidable.not_and_iff_not_or_not, Nat.not_lt, Nat.not_lt] at hfit
        exact ⟨hfault, Overflows.size hfit⟩
      · rcases (faults_forM_checkPlane hcount).mp hplanes with
          ⟨hfault, p, hp, hfront, hpitch, hneeded⟩
        exact ⟨hfault, Overflows.plane hextents hp hfront hpitch hneeded⟩
    exact ⟨hoverflow.left, (not_or.mp hsize).left, (not_or.mp hsize).right,
      Nat.not_lt.mp hcount'.left, Nat.not_lt.mp hcount'.right, hoverflow.right⟩
  · intro h'
    rcases h' with ⟨hfault, hwidth, hheight, hlengths, hpitches, hoverflows⟩
    have hsize := not_or.mpr ⟨hwidth, hheight⟩
    have hcount := not_or.mpr ⟨Nat.not_lt.mpr hlengths, Nat.not_lt.mpr hpitches⟩
    refine ⟨hsize, hcount, hsize, ?_⟩
    cases hoverflows with
    | size h =>
        refine Or.inl ((Format.extents_eq_error (Nat.pos_of_ne_zero hwidth)).mpr ⟨hfault, ?_⟩)
        rw [Format.SizesFit, Decidable.not_and_iff_not_or_not, Nat.not_lt, Nat.not_lt]
        exact h
    | plane hextents hp hfront hpitch hneeded =>
        exact Or.inr ⟨_, hextents, (faults_forM_checkPlane hcount).mpr
          ⟨hfault, _, hp, hfront, hpitch, hneeded⟩⟩

/-!
## Accepted planes
-/

theorem shrunk_eq_div (length shift : Nat) :
    shrunk length shift = (length + 2 ^ shift - 1) / 2 ^ shift := by
  unfold shrunk
  rw [Nat.one_shiftLeft, Nat.shiftRight_eq_div_pow]

theorem plane_of_ofPlanes (h : Attempt.Answers (ofPlanes format width height lengths pitches) view)
    {p : PlaneIndex} (hp : p ∈ format.planes) :
    lengths[p.val]? = some (view.planes.get p).length ∧
      pitches[p.val]? = some (view.planes.get p).pitch := by
  rcases answers_ofPlanes h with ⟨hcount, _, rfl⟩
  exact given_of_placed hcount hp

/--
The check of planes from outside stops exactly where a size or the extent of a plane does
not fit its machine word.  Where it accepts, the size of every component is the one of the
picture halved and rounded up, and each of its samples lies in the plane that was given.
-/
theorem external_planes_checked (format : Format) (width height : Nat)
    (lengths pitches : List Nat) :
    (forall fault, (ofPlanes format width height lengths pitches).run = .error fault ↔
      fault = .overflow ∧ width ≠ 0 ∧ height ≠ 0 ∧ format.planeCount ≤ lengths.length ∧
        format.planeCount ≤ pitches.length ∧
          Overflows format width height lengths pitches) ∧
    forall view, Attempt.Answers (ofPlanes format width height lengths pitches) view ->
      forall c, c < format.components.length ->
        exists comp ws hs length pitch, format.component c = .ok comp ∧
          format.componentShifts c = .ok (ws, hs) ∧
          view.componentSize c =
            .ok ((width + 2 ^ ws - 1) / 2 ^ ws, (height + 2 ^ hs - 1) / 2 ^ hs) ∧
          lengths[comp.plane.val]? = some length ∧ pitches[comp.plane.val]? = some pitch ∧
          forall x y, x < (width + 2 ^ ws - 1) / 2 ^ ws ->
            y < (height + 2 ^ hs - 1) / 2 ^ hs ->
              comp.position pitch x y + comp.bytes ≤ length := by
  constructor
  · intro fault
    exact faults_iff_overflows
  · intro view hview c hc
    rcases Format.exists_component hc with ⟨comp, hcomp⟩
    rcases plane_of_ofPlanes hview (Format.plane_mem_planes hcomp) with ⟨hlength, hpitch⟩
    have hcovered := covered_of_ofPlanes hview
    rcases answers_ofPlanes hview with ⟨_, _, rfl⟩
    refine ⟨comp, _, _, _, _, hcomp, Format.componentShifts_eq hcomp, ?_, hlength, hpitch, ?_⟩
    · rw [hcovered.componentSize hcomp, ← shrunk_eq_div, ← shrunk_eq_div]
      rfl
    · intro x y hx hy
      rw [← shrunk_eq_div] at hx hy
      exact hcovered.position_le hcomp hx hy

/-- Odd sizes on planes that end with their last samples. -/
theorem external_planes_checked_nv12 :
    exists view, Attempt.Answers (ofPlanes .nv12 3 3 [9, 8] [3, 4]) view ∧
      view.componentSize 2 = .ok (2, 2) ∧
        (⟨.v, 1, 1, 2, 8⟩ : Component).position 4 1 1 + 1 ≤ 8 := by
  have hview : Attempt.Answers (ofPlanes .nv12 3 3 [9, 8] [3, 4])
      ⟨.nv12, 3, 3, #v[⟨⟨0, 9⟩, 3⟩, ⟨⟨9, 8⟩, 4⟩, Plane.none, Plane.none]⟩ := rfl
  rcases (external_planes_checked .nv12 3 3 [9, 8] [3, 4]).right _ hview 2 (by decide) with
    ⟨comp, ws, hs, length, pitch, hcomp, hshifts, hsize, hlength, hpitch, hinside⟩
  cases hcomp
  cases hshifts
  cases hlength
  cases hpitch
  exact ⟨_, hview, hsize, hinside 1 1 (by decide) (by decide)⟩

/-- The widest picture of one component, and two rows of half the address space. -/
theorem external_planes_overflow :
    (ofPlanes .y800 4294967295 1 [1] [1]).run = .error .overflow ∧
      (ofPlanes .y800 1 3 [1] [9223372036854775808]).run = .error .overflow :=
  ⟨rfl, rfl⟩

end View
end RawVideo

import Mathlib.Algebra.GroupWithZero.Nat
import RawVideo.Image.Parts
import RawVideo.Proofs.Image.Planes
import RawVideo.Proofs.Memory.Tiling

/-!
# Tiled buffers

An image has a layout unless a side is zero or its bytes do not fit a machine word; its
components never contradict each other.  The planes of a layout tile the buffer in order,
and the view that takes the buffer apart is the one that reads it.
-/

namespace RawVideo

namespace Layout

variable {format : Format} {comp : Component} {c width height : Nat} {p : PlaneIndex}
variable {layout : Layout}

/-!
## Extents of planes
-/

/-- The pitch of a plane of an image of some width. -/
def planePitch (format : Format) (width : Nat) (p : PlaneIndex) : Nat :=
  (roundUp width alignment * format.pixelStride p) >>> (format.planeShifts p).1

/-- The allocated rows of a plane of an image of some height. -/
def planeRows (format : Format) (height : Nat) (p : PlaneIndex) : Nat :=
  roundUp height alignment >>> (format.planeShifts p).2

/-- The bytes of all planes of an image. -/
def total (format : Format) (width height : Nat) : Nat :=
  (format.planes.map fun p => planePitch format width p * planeRows format height p).sum

theorem pitchFor_eq (hcomp : format.component c = .ok comp) (width : Nat) :
    pitchFor format (roundUp width alignment) (comp, c) = planePitch format width comp.plane := by
  have hmod := mod_of_padded (dvd_roundUp width alignment) (format.shiftsOf_le_one c).left
  exact (Format.mul_shiftRight_of_grid hmod (Format.planeShifts_spec hcomp).right).symm

theorem rowsFor_eq (hcomp : format.component c = .ok comp) (height : Nat) :
    rowsFor format (roundUp height alignment) (comp, c) = planeRows format height comp.plane := by
  unfold rowsFor planeRows
  rw [(Format.planeShifts_spec hcomp).left]

/-- Every plane has its extent or none so far, and only planes of the format have one. -/
structure Entered (format : Format) (width height : Nat) (extents : Extents) : Prop where
  pitch : forall p, extents.pitches.get p = 0 ∨
    p ∈ format.planes ∧ extents.pitches.get p = planePitch format width p
  rows : forall p, extents.rows.get p = 0 ∨ extents.rows.get p = planeRows format height p

theorem Entered.none (format : Format) (width height : Nat) :
    Entered format width height Extents.none := by
  constructor
  · intro p
    exact Or.inl (PerPlane.get_all 0 p)
  · intro p
    exact Or.inl (PerPlane.get_all 0 p)

theorem Entered.enter {extents : Extents} (h : Entered format width height extents)
    (hcomp : format.component c = .ok comp) :
    exists next,
      Extents.enter format (roundUp width alignment) (roundUp height alignment) extents
          (comp, c) = .ok next ∧
        Entered format width height next := by
  have hpitch := pitchFor_eq hcomp width
  have hrows := rowsFor_eq hcomp height
  refine ⟨_, (enter_eq_ok (dvd_roundUp width alignment) hcomp).mpr ⟨?_, ?_, rfl⟩, ?_, ?_⟩
  · rw [hpitch]
    exact (h.pitch comp.plane).imp_right And.right
  · rw [hrows]
    exact h.rows comp.plane
  · intro p
    rw [PerPlane.get_set]
    split
    next hplane =>
      subst hplane
      exact Or.inr ⟨Format.plane_mem_planes hcomp, hpitch⟩
    next => exact h.pitch p
  · intro p
    rw [PerPlane.get_set]
    split
    next hplane =>
      subst hplane
      exact Or.inr hrows
    next => exact h.rows p

/-- The components of a format agree on the extents of its planes at every size. -/
theorem exists_entered (format : Format) (width height : Nat) :
    exists found,
      extents format (roundUp width alignment) (roundUp height alignment) = .ok found ∧
        Entered format width height found :=
  Checked.foldlM_answers
    (fun _ entry hentry h => h.enter (format.component_of_mem_zipIdx entry hentry))
    (Entered.none format width height)

/-- Every plane of the format is entered in the end. -/
theorem extents_on_plane {found : Extents} (hwidth : 0 < width) (hheight : 0 < height)
    (h : extents format (roundUp width alignment) (roundUp height alignment) = .ok found)
    (hp : p ∈ format.planes) :
    found.pitches.get p = planePitch format width p ∧
      found.rows.get p = planeRows format height p := by
  rcases Format.exists_component_on hp with ⟨c, comp, hcomp, rfl⟩
  rw [← pitchFor_eq hcomp, ← rowsFor_eq hcomp]
  exact extents_eq_ok hwidth hheight h hcomp

theorem planePitch_pos (hwidth : 0 < width) (hp : p ∈ format.planes) :
    0 < planePitch format width p := by
  rcases Format.exists_component_on hp with ⟨c, comp, hcomp, rfl⟩
  rw [← pitchFor_eq hcomp]
  exact Nat.mul_pos (shiftRight_roundUp_pos hwidth (format.shiftsOf_le_one c).left)
    (Format.stride_pos hcomp)

theorem planeRows_pos (hheight : 0 < height) (hp : p ∈ format.planes) :
    0 < planeRows format height p := by
  rcases Format.exists_component_on hp with ⟨c, comp, hcomp, rfl⟩
  rw [← rowsFor_eq hcomp]
  exact shiftRight_roundUp_pos hheight (format.shiftsOf_le_one c).right

/-!
## Placing planes
-/

theorem put_eq {extents : Extents} {placed : Placement}
    (hpos : extents.pitches.get p ≠ 0 ∧ extents.rows.get p ≠ 0) :
    Placement.put format width height extents placed p =
      if extents.pitches.get p * extents.rows.get p + placed.size < UInt64.size then
        .ok ⟨placed.offsets.set p placed.size,
          extents.pitches.get p * extents.rows.get p + placed.size⟩
      else .error (.sizeOverflow width height format) :=
  if_neg (not_or.mpr hpos)

/-- Planes find place as long as the bytes up to their end fit a word, and no longer. -/
theorem foldlM_put {extents : Extents} {planes : List PlaneIndex}
    (hpos : forall p, p ∈ planes -> extents.pitches.get p ≠ 0 ∧ extents.rows.get p ≠ 0)
    {start : Placement} (hstart : start.size < UInt64.size) :
    (exists placed,
      planes.foldlM (Placement.put format width height extents) start = .ok placed ∧
        placed.size = start.size +
          (planes.map fun p => extents.pitches.get p * extents.rows.get p).sum ∧
        placed.size < UInt64.size) ∨
    planes.foldlM (Placement.put format width height extents) start =
        .error (.sizeOverflow width height format) ∧
      UInt64.size ≤ start.size +
        (planes.map fun p => extents.pitches.get p * extents.rows.get p).sum := by
  induction planes generalizing start with
  | nil => exact Or.inl ⟨start, rfl, rfl, hstart⟩
  | cons p rest ih =>
      rw [List.forall_mem_cons] at hpos
      rw [List.foldlM_cons, put_eq hpos.left, List.map_cons, List.sum_cons]
      by_cases hfits : extents.pitches.get p * extents.rows.get p + start.size < UInt64.size
      · rw [if_pos hfits]
        rcases @ih hpos.right ⟨start.offsets.set p start.size, _⟩ hfits with
          ⟨placed, hplaced, hsize, hword⟩ | ⟨herror, hlarge⟩
        · refine Or.inl ⟨placed, hplaced, ?_, hword⟩
          rw [hsize]
          dsimp only
          omega
        · refine Or.inr ⟨herror, ?_⟩
          dsimp only at hlarge
          omega
      · rw [if_neg hfits]
        exact Or.inr ⟨rfl, by omega⟩

theorem sum_on_planes {found : Extents} (hwidth : 0 < width) (hheight : 0 < height)
    (h : extents format (roundUp width alignment) (roundUp height alignment) = .ok found) :
    (format.planes.map fun p => found.pitches.get p * found.rows.get p).sum =
      total format width height := by
  unfold total
  refine congrArg List.sum (List.map_congr_left fun p hp => ?_)
  rcases extents_on_plane hwidth hheight h hp with ⟨hpitch, hrows⟩
  rw [hpitch, hrows]

/-- A layout is answered, or its bytes do not fit a machine word. -/
theorem compute_cases (format : Format) (hwidth : 0 < width) (hheight : 0 < height) :
    (exists layout, compute format width height = .ok layout ∧
        layout.size = total format width height ∧ layout.size < UInt64.size) ∨
      compute format width height = .error (.sizeOverflow width height format) ∧
        UInt64.size ≤ total format width height := by
  rcases exists_entered format width height with ⟨found, hfound, _⟩
  have hpos : forall p, p ∈ format.planes ->
      found.pitches.get p ≠ 0 ∧ found.rows.get p ≠ 0 := by
    intro p hp
    rcases extents_on_plane hwidth hheight hfound hp with ⟨hpitch, hrows⟩
    rw [hpitch, hrows]
    exact ⟨Nat.ne_of_gt (planePitch_pos hwidth hp), Nat.ne_of_gt (planeRows_pos hheight hp)⟩
  have hne := not_or.mpr ⟨Nat.ne_of_gt hwidth, Nat.ne_of_gt hheight⟩
  have hput := @foldlM_put format width height found format.planes hpos ⟨PerPlane.all 0, 0⟩
    (by decide)
  rw [sum_on_planes hwidth hheight hfound] at hput
  dsimp only at hput
  rw [Nat.zero_add] at hput
  unfold compute
  rw [if_neg hne, hfound, Checked.ok_bind]
  rcases hput with ⟨placed, hplaced, hsize, hword⟩ | ⟨herror, hlarge⟩
  · rw [hplaced]
    exact Or.inl ⟨_, rfl, hsize, hword⟩
  · rw [herror]
    exact Or.inr ⟨rfl, hlarge⟩

theorem compute_eq_error {error : Error} :
    compute format width height = .error error ↔
      (width = 0 ∨ height = 0) ∧ error = .emptyImage width height ∨
        width ≠ 0 ∧ height ≠ 0 ∧ UInt64.size ≤ total format width height ∧
          error = .sizeOverflow width height format := by
  by_cases hzero : width = 0 ∨ height = 0
  · have hcompute : compute format width height = .error (.emptyImage width height) :=
      if_pos hzero
    rw [hcompute]
    constructor
    · intro h
      cases h
      exact Or.inl ⟨hzero, rfl⟩
    · intro h'
      rcases h' with ⟨_, rfl⟩ | ⟨hwidth, hheight, _⟩
      · rfl
      · exact (hzero.elim hwidth hheight).elim
  · rcases not_or.mp hzero with ⟨hwidth, hheight⟩
    rcases compute_cases format (Nat.pos_of_ne_zero hwidth)
      (Nat.pos_of_ne_zero hheight) with ⟨layout, hcompute, hsize, hword⟩ | ⟨hcompute, hlarge⟩
    · rw [hcompute, ← hsize]
      constructor
      · intro h
        cases h
      · intro h'
        rcases h' with ⟨hzero', _⟩ | ⟨_, _, hlarge, _⟩
        · exact (hzero hzero').elim
        · exact absurd hword (Nat.not_lt.mpr hlarge)
    · rw [hcompute]
      constructor
      · intro h
        cases h
        exact Or.inr ⟨hwidth, hheight, hlarge, rfl⟩
      · intro h'
        rcases h' with ⟨hzero', _⟩ | ⟨_, _, _, rfl⟩
        · exact (hzero hzero').elim
        · rfl

theorem exists_compute_iff :
    (exists layout, compute format width height = .ok layout) ↔
      width ≠ 0 ∧ height ≠ 0 ∧ total format width height < UInt64.size := by
  constructor
  · intro h'
    rcases h' with ⟨layout, hlayout⟩
    have hnone : forall error, compute format width height ≠ .error error := by
      intro error herror
      rw [hlayout] at herror
      cases herror
    have hwidth : width ≠ 0 := fun hzero =>
      hnone _ (compute_eq_error.mpr (Or.inl ⟨Or.inl hzero, rfl⟩))
    have hheight : height ≠ 0 := fun hzero =>
      hnone _ (compute_eq_error.mpr (Or.inl ⟨Or.inr hzero, rfl⟩))
    refine ⟨hwidth, hheight, Nat.lt_of_not_le fun hlarge => ?_⟩
    exact hnone _ (compute_eq_error.mpr (Or.inr ⟨hwidth, hheight, hlarge, rfl⟩))
  · intro h
    rcases compute_cases format (Nat.pos_of_ne_zero h.left)
      (Nat.pos_of_ne_zero h.right.left) with ⟨layout, hlayout, _⟩ | ⟨_, hlarge⟩
    · exact ⟨layout, hlayout⟩
    · exact absurd h.right.right (Nat.not_lt.mpr hlarge)

/-!
## The buffer
-/

/-- The bytes of a plane in the buffer. -/
def planeSpan (layout : Layout) (p : PlaneIndex) : Span :=
  ⟨layout.offsets.get p, layout.planeSize p⟩

theorem tiles_of_foldlM {extents : Extents} {planes : List PlaneIndex} (hnodup : planes.Nodup)
    {start placed : Placement}
    (h : planes.foldlM (Placement.put format width height extents) start = .ok placed) :
    Tiles start.size
      (planes.map fun p => ⟨placed.offsets.get p, extents.pitches.get p * extents.rows.get p⟩)
      placed.size := by
  induction planes generalizing start with
  | nil =>
      cases h
      rfl
  | cons p rest ih =>
      rw [List.nodup_cons] at hnodup
      rw [List.foldlM_cons] at h
      rcases Checked.bind_eq_ok.mp h with ⟨next, hnext, hrest⟩
      rcases put_eq_ok hnext with ⟨_, rfl⟩
      have hoffset : placed.offsets.get p = start.size := by
        rw [(placed_foldlM hnodup.right hrest).kept p hnodup.left, PerPlane.get_set, if_pos rfl]
      have htail := ih hnodup.right hrest
      refine ⟨hoffset, ?_⟩
      unfold Span.stop
      dsimp only
      rw [hoffset, Nat.add_comm]
      exact htail

/-- What a layout promises about the buffer of its image. -/
structure Tiled (layout : Layout) : Prop where
  pitch : forall p, p ∈ layout.format.planes ->
    layout.pitches.get p = planePitch layout.format layout.width p
  rows : forall p, p ∈ layout.format.planes ->
    layout.rows.get p = planeRows layout.format layout.height p
  size : layout.size = total layout.format layout.width layout.height
  word : layout.size < UInt64.size
  tiles : Tiles 0 (layout.format.planes.map layout.planeSpan) layout.size
  /-- The samples of a row end within the pitch, and there are rows enough for all. -/
  fits : layout.width + 2 < UInt32.size -> layout.height + 2 < UInt32.size ->
    forall c comp, layout.format.component c = .ok comp ->
      exists w h, layout.format.componentSize c layout.width layout.height = .ok (w, h) ∧
        (forall x, x < w ->
          x * comp.stride + comp.offset + comp.bytes ≤ layout.pitches.get comp.plane) ∧
        h ≤ layout.rows.get comp.plane

theorem tiled_of_compute (h : compute format width height = .ok layout) : layout.Tiled := by
  rcases foldlM_of_compute h with ⟨⟨hwidth, hheight⟩, found, placed, hfound, hplaced, hlayout⟩
  have hextents := fun p hp => extents_on_plane (p := p) hwidth hheight hfound hp
  have htiles := tiles_of_foldlM (nodup_planes format) hplaced
  rcases compute_cases format hwidth hheight with
    ⟨other, hother, hsize, hword⟩ | ⟨hother, _⟩
  · rw [h] at hother
    cases hother
    subst hlayout
    refine ⟨fun p hp => (hextents p hp).left, fun p hp => (hextents p hp).right, hsize, hword,
      htiles, ?_⟩
    intro hw hh c comp hcomp
    have hplane := Format.plane_mem_planes hcomp
    refine ⟨_, _, Format.componentSize_of_lt hcomp hw hh, ?_, ?_⟩
    · intro x hx
      show _ ≤ found.pitches.get comp.plane
      rw [(hextents comp.plane hplane).left, ← pitchFor_eq hcomp]
      exact Nat.le_trans (Component.sample_le_row (Format.offset_add_bytes_le hcomp) hx)
        (Nat.mul_le_mul_right _ (shrunk_le_roundUp width (format.shiftsOf_le_one c).left))
    · show _ ≤ found.rows.get comp.plane
      rw [(hextents comp.plane hplane).right, ← rowsFor_eq hcomp]
      exact shrunk_le_roundUp height (format.shiftsOf_le_one c).right
  · rw [h] at hother
    cases hother

/-- Planes that the format does not have are empty. -/
theorem unused_of_compute (h : compute format width height = .ok layout)
    (hp : p ∉ format.planes) : layout.planeSpan p = Span.empty := by
  rcases foldlM_of_compute h with ⟨_, found, placed, hfound, hplaced, rfl⟩
  rcases exists_entered format width height with ⟨other, hother, hentered⟩
  rw [hfound] at hother
  cases hother
  have hpitch : found.pitches.get p = 0 :=
    (hentered.pitch p).resolve_right fun hmem => hp hmem.left
  have hoffset : placed.offsets.get p = 0 :=
    ((placed_foldlM (nodup_planes format) hplaced).kept p hp).trans (PerPlane.get_all 0 p)
  unfold planeSpan planeSize Span.empty
  dsimp only
  rw [hoffset, hpitch, Nat.zero_mul]

end Layout

/-!
## Taking the buffer apart
-/

namespace Image

variable {format : Format} {width height : Nat} {layout : Layout} {image : Image}

theorem take_eq_ok {parts : Parts} {p : PlaneIndex}
    (hoffset : layout.offsets.get p = parts.taken)
    (hroom : layout.planeSize p ≤ parts.rest.length) :
    Parts.take layout parts p =
      .ok ⟨parts.planes.set p
          ⟨⟨parts.rest.start, layout.planeSize p⟩, layout.pitches.get p⟩,
        ⟨parts.rest.start + layout.planeSize p, parts.rest.length - layout.planeSize p⟩,
        layout.offsets.get p + layout.planeSize p⟩ := by
  unfold Parts.take
  rw [hoffset, if_neg (Nat.lt_irrefl _), Nat.sub_self, Span.suffix_of_le (Nat.zero_le _),
    Checked.ok_bind, Nat.sub_zero, Nat.add_zero]
  rw [Span.sub_of_le (by rw [Nat.zero_add]; exact hroom), Checked.ok_bind,
    Span.suffix_of_le hroom]
  rfl

/-- Planes that tile what is left of a buffer can be taken from it one by one. -/
theorem foldlM_take {planes : List PlaneIndex} {stop : Nat} (hnodup : planes.Nodup)
    {parts : Parts} (htiles : Tiles parts.taken (planes.map layout.planeSpan) stop)
    (hstart : parts.rest.start = parts.taken) (hstop : parts.rest.stop = stop) :
    exists last, planes.foldlM (Parts.take layout) parts = .ok last ∧
      (forall q, q ∈ planes ->
        last.planes.get q = ⟨layout.planeSpan q, layout.pitches.get q⟩) ∧
      forall q, q ∉ planes -> last.planes.get q = parts.planes.get q := by
  induction planes generalizing parts with
  | nil => exact ⟨parts, rfl, fun q hq => (List.not_mem_nil hq).elim, fun q _ => rfl⟩
  | cons p rest ih =>
      rw [List.nodup_cons] at hnodup
      rcases htiles with ⟨hoffset, htail⟩
      have hend := htail.le
      unfold Span.stop at hend hstop
      change layout.offsets.get p = parts.taken at hoffset
      change layout.offsets.get p + layout.planeSize p ≤ stop at hend
      have hroom : layout.planeSize p ≤ parts.rest.length := by omega
      have hnext := take_eq_ok hoffset hroom
      have hstart' : parts.rest.start + layout.planeSize p =
          layout.offsets.get p + layout.planeSize p := by omega
      have hstop' : parts.rest.start + layout.planeSize p +
          (parts.rest.length - layout.planeSize p) = stop := by omega
      rcases @ih hnodup.right
          ⟨parts.planes.set p
            ⟨⟨parts.rest.start, layout.planeSize p⟩, layout.pitches.get p⟩, ⟨_, _⟩, _⟩
          htail hstart' hstop' with
        ⟨last, hlast, htaken, hkept⟩
      have hfirst : last.planes.get p = ⟨layout.planeSpan p, layout.pitches.get p⟩ := by
        rw [hkept p hnodup.left, PerPlane.get_set, if_pos rfl, hstart, ← hoffset]
        rfl
      refine ⟨last, ?_, List.forall_mem_cons.mpr ⟨hfirst, htaken⟩, fun q hq => ?_⟩
      · rw [List.foldlM_cons, hnext]
        exact hlast
      · rw [List.mem_cons, not_or] at hq
        rw [hkept q hq.right, PerPlane.get_set, if_neg (Ne.symm hq.left)]

/-- The view that takes the buffer apart is the view that reads it. -/
theorem writableView_eq (h : Layout.compute format width height = .ok layout)
    (himage : image.layout? = some layout) (hsize : image.memory.size = layout.size) :
    image.writableView = .ok (viewOf layout) := by
  rcases viewOf_of_compute h with ⟨hformat, _, _⟩
  have htiles := (Layout.tiled_of_compute h).tiles
  have hnodup := Layout.nodup_planes layout.format
  rcases @foldlM_take layout _ _ hnodup (Parts.none layout image.memory.size) htiles rfl
    ((Nat.zero_add _).trans hsize) with ⟨last, hlast, htaken, hkept⟩
  have heq : last.planes = (viewOf layout).planes := by
    apply PerPlane.ext_get
    intro q
    rw [planes_viewOf]
    by_cases hq : q ∈ layout.format.planes
    · exact htaken q hq
    · have hunused := Layout.unused_of_compute h
        (show q ∉ format.planes from (show layout.format = format from hformat) ▸ hq)
      unfold Layout.planeSpan at hunused
      rw [hkept q hq, hunused]
      exact PerPlane.get_ofFn _ q
  unfold writableView
  rw [himage]
  dsimp only
  rw [hlast, Checked.ok_bind, heq]
  rfl

/-- The planes of an image pass the check that planes from outside have to pass. -/
theorem answers_checkPlanes_viewOf (h : Layout.compute format width height = .ok layout)
    (hwidth : width + 2 < UInt32.size) (hheight : height + 2 < UInt32.size) :
    Attempt.Answers
      (View.checkPlanes (viewOf layout).format (viewOf layout).width (viewOf layout).height
        (viewOf layout).planes) () := by
  have hword := (Layout.tiled_of_compute h).word
  refine (covered_viewOf h hwidth hheight).answers_checkPlanes fun p hp => ?_
  have hinside := (writable_viewOf h).inside p hp
  unfold Span.stop at hinside
  omega

/--
At every size of 32 bits an image has a layout exactly where neither side is zero and the
bytes of its planes fit 64 bits, and an error tells these cases apart.  The planes of a
layout tile its buffer, and both views of an image have them, apart from each other and,
but for the largest sizes, fit for the check of planes from outside.
-/
theorem layouts_sound (format : Format) (width height : Nat) (hwidth : width < UInt32.size)
    (hheight : height < UInt32.size) :
    Layout.Exact format width height ∧
      ((exists layout, Layout.compute format width height = .ok layout) ↔
        width ≠ 0 ∧ height ≠ 0 ∧ Layout.total format width height < UInt64.size) ∧
      (forall error, Layout.compute format width height = .error error ↔
        (width = 0 ∨ height = 0) ∧ error = .emptyImage width height ∨
          width ≠ 0 ∧ height ≠ 0 ∧ UInt64.size ≤ Layout.total format width height ∧
            error = .sizeOverflow width height format) ∧
      (forall error, Layout.compute format width height = .error error ->
        error.kind = .invalidParameter ∨ error.kind = .resourceExhausted) ∧
      (forall layout, Layout.compute format width height = .ok layout ->
        layout.format = format ∧ layout.width = width ∧ layout.height = height ∧
          layout.Tiled) ∧
      forall image, allocate format width height = .ok image ->
        exists view, image.view = .ok view ∧ image.writableView = .ok view ∧
          view.Writable image.memory.size ∧
            (width + 2 < UInt32.size -> height + 2 < UInt32.size ->
              Attempt.Answers
                (View.checkPlanes view.format view.width view.height view.planes) ()) := by
  refine ⟨Layout.exact_of_lt hwidth hheight, Layout.exists_compute_iff,
    fun error => Layout.compute_eq_error, ?_, ?_, ?_⟩
  · intro error herror
    rcases Layout.compute_eq_error.mp herror with ⟨_, rfl⟩ | ⟨_, _, _, rfl⟩
    · exact Or.inl rfl
    · exact Or.inr rfl
  · intro layout hlayout
    rcases viewOf_of_compute hlayout with ⟨hformat, hw, hh⟩
    exact ⟨hformat, hw, hh, Layout.tiled_of_compute hlayout⟩
  · intro image himage
    rcases allocate_eq_ok himage with ⟨layout, hlayout, _, rfl⟩
    have hsize : (Memory.zeros layout.size).size = layout.size := Memory.size_zeros _
    refine ⟨viewOf layout, rfl, writableView_eq hlayout rfl hsize, ?_,
      answers_checkPlanes_viewOf hlayout⟩
    rw [hsize]
    exact writable_viewOf hlayout

/-- The largest size overflows, and a small one of odd sides is tiled. -/
theorem layouts_sound_odd :
    Layout.compute .rgba 4294967295 4294967295 =
        .error (.sizeOverflow 4294967295 4294967295 .rgba) ∧
      exists image view, allocate .i420p10 5 3 = .ok image ∧
        image.writableView = .ok view ∧ view.planes.get .third = ⟨⟨640, 128⟩, 16⟩ ∧
          Attempt.Answers
            (View.checkPlanes view.format view.width view.height view.planes) () := by
  constructor
  · rcases layouts_sound .rgba 4294967295 4294967295 (by decide) (by decide) with
      ⟨_, _, herror, _⟩
    exact (herror _).mpr (Or.inr ⟨by decide, by decide, by decide +kernel, rfl⟩)
  · have himage : allocate .i420p10 5 3 =
        .ok ⟨some ⟨.i420p10, 5, 3, #v[32, 16, 16, 0], #v[16, 8, 8, 0], #v[0, 512, 640, 0], 768⟩,
          Memory.zeros 768⟩ := rfl
    rcases layouts_sound .i420p10 5 3 (by decide) (by decide) with ⟨_, _, _, _, _, hviews⟩
    rcases hviews _ himage with ⟨view, hview, hwritable, _, hcheck⟩
    cases hview
    exact ⟨_, _, himage, hwritable, rfl, hcheck (by decide) (by decide)⟩

end Image
end RawVideo

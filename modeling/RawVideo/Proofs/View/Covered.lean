import RawVideo.Proofs.Pixel.Size
import RawVideo.View.Sample

/-!
# Covered views

A view is covered when every plane has room for the rows of its components: the
pitch is not below the widest of them, and the last of them ends inside the
plane.  In a covered view every visible sample and every visible row lies inside
its plane, and acceptance of planes makes a view covered.  A view is ample when its
planes have that room, even where the size of a component does not fit its word.
-/

namespace RawVideo

/-!
## The bytes of a row
-/

namespace Component

theorem rowSpan_of_pos (comp : Component) {width : Nat} (h : 0 < width) :
    comp.rowSpan width = (width - 1) * comp.stride + comp.bytes :=
  if_neg (Nat.ne_of_gt h)

theorem pred_mul_add_self {n : Nat} (h : 0 < n) (m : Nat) : (n - 1) * m + m = n * m := by
  cases n with
  | zero => cases h
  | succ k => rw [Nat.add_sub_cancel, Nat.succ_mul]

theorem sample_le_row {comp : Component} (hstride : comp.offset + comp.bytes ≤ comp.stride)
    {x width : Nat} (hx : x < width) :
    x * comp.stride + comp.offset + comp.bytes ≤ width * comp.stride := by
  have hnext : (x + 1) * comp.stride ≤ width * comp.stride := Nat.mul_le_mul_right _ hx
  rw [Nat.succ_mul] at hnext
  omega

theorem rowSpan_add_offset_le {comp : Component}
    (hstride : comp.offset + comp.bytes ≤ comp.stride) {width : Nat} (h : 0 < width) :
    comp.rowSpan width + comp.offset ≤ width * comp.stride := by
  have hlast := sample_le_row hstride (Nat.sub_lt h Nat.one_pos)
  rw [rowSpan_of_pos comp h]
  omega

theorem sample_le_rowSpan (comp : Component) {x width : Nat} (hx : x < width) :
    x * comp.stride + comp.bytes ≤ comp.rowSpan width := by
  rw [rowSpan_of_pos comp (Nat.zero_lt_of_lt hx)]
  exact Nat.add_le_add_right (Nat.mul_le_mul_right _ (Nat.le_sub_one_of_lt hx)) _

theorem contiguous_le_rowSpan {comp : Component} (h : comp.stride = comp.bytes) (width : Nat) :
    width * comp.bytes ≤ comp.rowSpan width := by
  cases width with
  | zero =>
      rw [Nat.zero_mul]
      exact Nat.zero_le _
  | succ last =>
      have hlast := comp.sample_le_rowSpan (Nat.lt_succ_self last)
      rw [h, ← Nat.succ_mul] at hlast
      exact hlast

end Component

/-!
## Extents
-/

/-- Neither the rows nor the bytes of a row exceed those of another extent. -/
structure Extent.Within (small large : Extent) : Prop where
  rows : small.rows ≤ large.rows
  row : small.row ≤ large.row

theorem Extent.Within.refl (extent : Extent) : extent.Within extent :=
  ⟨Nat.le_refl _, Nat.le_refl _⟩

namespace Format

variable {format : Format} {comp : Component} {c width height : Nat}

/-- The extent of one component. -/
def asked (format : Format) (width height : Nat) (entry : Component × Nat) : Extent :=
  ⟨format.lines entry.2 height, format.columns entry.2 width * entry.1.stride⟩

theorem componentExtent_eq_ok {extent : Extent} (hcomp : format.component c = .ok comp)
    (hwidth : 0 < width) :
    format.componentExtent width height (comp, c) = .ok extent ↔
      format.componentSize c width height =
          .ok (format.columns c width, format.lines c height) ∧
        extent = format.asked width height (comp, c) := by
  have hrow : max (comp.rowSpan (format.columns c width) + comp.offset)
      (format.columns c width * comp.stride) = format.columns c width * comp.stride :=
    Nat.max_eq_right
      (Component.rowSpan_add_offset_le (offset_add_bytes_le hcomp) (format.columns_pos c hwidth))
  unfold componentExtent
  simp only [Checked.bind_eq_ok]
  constructor
  · intro h
    rcases h with ⟨size, hsize, hextent⟩
    rcases (componentSize_eq_ok hcomp).mp hsize with ⟨_, _, rfl⟩
    cases hextent
    refine ⟨hsize, ?_⟩
    unfold asked
    rw [hrow]
  · intro h
    rcases h with ⟨hsize, rfl⟩
    refine ⟨_, hsize, ?_⟩
    unfold asked
    rw [hrow]
    rfl

theorem widen_eq_ok {extents next : PerPlane Extent} (hcomp : format.component c = .ok comp)
    (hwidth : 0 < width) :
    format.widen width height extents (comp, c) = .ok next ↔
      format.componentSize c width height =
          .ok (format.columns c width, format.lines c height) ∧
        next = extents.set comp.plane
          ⟨max (extents.get comp.plane).rows (format.asked width height (comp, c)).rows,
            max (extents.get comp.plane).row (format.asked width height (comp, c)).row⟩ := by
  unfold widen
  simp only [Checked.bind_eq_ok, componentExtent_eq_ok hcomp hwidth]
  constructor
  · intro h
    rcases h with ⟨extent, ⟨hsize, rfl⟩, hnext⟩
    cases hnext
    exact ⟨hsize, rfl⟩
  · intro h
    rcases h with ⟨hsize, rfl⟩
    exact ⟨_, ⟨hsize, rfl⟩, rfl⟩

/-!
The extents are the least ones that hold every component.  Both bounds are shown
for any run of components, starting from any extents.
-/

theorem within_foldlM_widen (hwidth : 0 < width) {entries : List (Component × Nat)}
    (hentries : forall entry, entry ∈ entries -> format.component entry.2 = .ok entry.1)
    {start extents : PerPlane Extent}
    (h : entries.foldlM (format.widen width height) start = .ok extents) :
    (forall p, (start.get p).Within (extents.get p)) ∧
      forall entry, entry ∈ entries ->
        format.componentSize entry.2 width height =
            .ok (format.columns entry.2 width, format.lines entry.2 height) ∧
          (format.asked width height entry).Within (extents.get entry.1.plane) := by
  induction entries generalizing start with
  | nil =>
      cases h
      exact ⟨fun p => Extent.Within.refl _, fun entry hentry => (List.not_mem_nil hentry).elim⟩
  | cons entry rest ih =>
      rw [List.forall_mem_cons] at hentries
      rw [List.foldlM_cons] at h
      rcases Checked.bind_eq_ok.mp h with ⟨next, hnext, hrest⟩
      rcases (widen_eq_ok hentries.left hwidth).mp hnext with ⟨hsize, rfl⟩
      rcases ih hentries.right hrest with ⟨hgrown, hmem⟩
      constructor
      · intro p
        have hp := hgrown p
        rw [PerPlane.get_set] at hp
        split at hp
        next hplane =>
          subst hplane
          exact ⟨Nat.le_trans (Nat.le_max_left _ _) hp.rows,
            Nat.le_trans (Nat.le_max_left _ _) hp.row⟩
        next => exact hp
      · rw [List.forall_mem_cons]
        refine ⟨⟨hsize, ?_⟩, hmem⟩
        have hp := hgrown entry.1.plane
        rw [PerPlane.get_set, if_pos rfl] at hp
        exact ⟨Nat.le_trans (Nat.le_max_right _ _) hp.rows,
          Nat.le_trans (Nat.le_max_right _ _) hp.row⟩

theorem foldlM_widen_within (hwidth : 0 < width) {entries : List (Component × Nat)}
    (hentries : forall entry, entry ∈ entries -> format.component entry.2 = .ok entry.1)
    {start extents : PerPlane Extent} {p : PlaneIndex} {bound : Extent}
    (hstart : (start.get p).Within bound)
    (hbound : forall entry, entry ∈ entries -> entry.1.plane = p ->
      (format.asked width height entry).Within bound)
    (h : entries.foldlM (format.widen width height) start = .ok extents) :
    (extents.get p).Within bound := by
  induction entries generalizing start with
  | nil =>
      cases h
      exact hstart
  | cons entry rest ih =>
      rw [List.forall_mem_cons] at hentries hbound
      rw [List.foldlM_cons] at h
      rcases Checked.bind_eq_ok.mp h with ⟨next, hnext, hrest⟩
      rcases (widen_eq_ok hentries.left hwidth).mp hnext with ⟨_, rfl⟩
      refine ih hentries.right ?_ hbound.right hrest
      rw [PerPlane.get_set]
      split
      next hplane =>
        have hentry := hbound.left hplane
        rw [hplane]
        exact ⟨Nat.max_le.mpr ⟨hstart.rows, hentry.rows⟩,
          Nat.max_le.mpr ⟨hstart.row, hentry.row⟩⟩
      next => exact hstart

theorem component_of_mem_zipIdx (format : Format) :
    forall entry, entry ∈ format.components.zipIdx -> format.component entry.2 = .ok entry.1 :=
  fun _ hentry => mem_zipIdx_components.mp hentry

theorem asked_within_extents {extents : PerPlane Extent} (hwidth : 0 < width)
    (h : format.extents width height = .ok extents) (hcomp : format.component c = .ok comp) :
    format.componentSize c width height =
        .ok (format.columns c width, format.lines c height) ∧
      (format.asked width height (comp, c)).Within (extents.get comp.plane) :=
  (within_foldlM_widen hwidth format.component_of_mem_zipIdx h).right (comp, c)
    (mem_zipIdx_components.mpr hcomp)

theorem extents_within {extents : PerPlane Extent} {p : PlaneIndex} {bound : Extent}
    (hwidth : 0 < width) (h : format.extents width height = .ok extents)
    (hbound : forall c comp, format.component c = .ok comp -> comp.plane = p ->
      (format.asked width height (comp, c)).Within bound) :
    (extents.get p).Within bound := by
  refine foldlM_widen_within hwidth format.component_of_mem_zipIdx ?_ ?_ h
  · rw [PerPlane.get_all]
    exact ⟨Nat.zero_le _, Nat.zero_le _⟩
  · intro entry hentry hplane
    exact hbound entry.2 entry.1 (mem_zipIdx_components.mp hentry) hplane

theorem exists_extents (hwidth : 0 < width)
    (hsize : forall c comp, format.component c = .ok comp ->
      format.componentSize c width height =
        .ok (format.columns c width, format.lines c height)) :
    exists extents, format.extents width height = .ok extents := by
  have hstep : forall extents entry, entry ∈ format.components.zipIdx -> True ->
      exists next, format.widen width height extents entry = .ok next ∧ True := by
    intro extents entry hentry _
    have hcomp := mem_zipIdx_components.mp hentry
    exact ⟨_, (widen_eq_ok hcomp hwidth).mpr ⟨hsize _ _ hcomp, rfl⟩, trivial⟩
  rcases Checked.foldlM_answers (s := PerPlane.all ⟨0, 0⟩) hstep trivial with ⟨extents, h, _⟩
  exact ⟨extents, h⟩

end Format

/-!
## Covered views
-/

namespace View

/-- The samples of a row of a component. -/
def columns (view : View) (c : Nat) : Nat :=
  view.format.columns c view.width

/-- The rows of a component. -/
def lines (view : View) (c : Nat) : Nat :=
  view.format.lines c view.height

/-- The first address of a sample. -/
def address (view : View) (comp : Component) (x y : Nat) : Nat :=
  (view.planes.get comp.plane).start + comp.position (view.planes.get comp.plane).pitch x y

/-- Every plane holds every row of its components. -/
structure Covered (view : View) : Prop where
  width_pos : 0 < view.width
  height_pos : 0 < view.height
  planes : exists extents, view.format.extents view.width view.height = .ok extents ∧
    forall p, p ∈ view.format.planes ->
      (extents.get p).row ≤ (view.planes.get p).pitch ∧
        ((extents.get p).rows - 1) * (view.planes.get p).pitch + (extents.get p).row ≤
          (view.planes.get p).length

/-- Every plane has room for the rows of its components, of any size. -/
structure Ample (view : View) : Prop where
  width_pos : 0 < view.width
  height_pos : 0 < view.height
  row : forall c comp, view.format.component c = .ok comp ->
    view.columns c * comp.stride ≤ (view.planes.get comp.plane).pitch
  rows : forall c comp, view.format.component c = .ok comp ->
    (view.lines c - 1) * (view.planes.get comp.plane).pitch + view.columns c * comp.stride ≤
      (view.planes.get comp.plane).length

/-- A component with this index has a sample at this position. -/
def Visible (view : View) (c x y : Nat) : Prop :=
  c < view.format.components.length ∧
    exists w h, view.componentSize c = .ok (w, h) ∧ x < w ∧ y < h

variable {view : View} {comp : Component} {c x y : Nat}

theorem address_eq_row (view : View) (comp : Component) (x y : Nat) :
    view.address comp x y = view.address comp 0 y + x * comp.stride := by
  unfold address Component.position
  omega

theorem columns_pos (h : 0 < view.width) (c : Nat) : 0 < view.columns c :=
  view.format.columns_pos c h

theorem Covered.componentSize (h : view.Covered) (hcomp : view.format.component c = .ok comp) :
    view.componentSize c = .ok (view.columns c, view.lines c) := by
  rcases h.planes with ⟨extents, hextents, _⟩
  exact (Format.asked_within_extents h.width_pos hextents hcomp).left

theorem Covered.fullSize (h : view.Covered) (hc : c = 0 ∨ c = 3)
    (hcomp : view.format.component c = .ok comp) :
    view.componentSize c = .ok (view.width, view.height) := by
  rw [h.componentSize hcomp]
  unfold columns lines Format.columns Format.lines Format.shiftsOf
  rw [if_pos hc, shrunk_zero, shrunk_zero]

theorem Covered.size_lt (h : view.Covered) :
    view.width < UInt32.size ∧ view.height < UInt32.size := by
  rcases Format.exists_component view.format.components_length_pos with ⟨first, hfirst⟩
  rcases (Format.componentSize_eq_ok hfirst).mp (h.componentSize hfirst) with
    ⟨hwidth, hheight, _⟩
  exact ⟨Nat.lt_of_le_of_lt (Nat.le_add_right _ _) hwidth,
    Nat.lt_of_le_of_lt (Nat.le_add_right _ _) hheight⟩

theorem Visible.lt {w h : Nat} (hvisible : view.Visible c x y)
    (hsize : view.componentSize c = .ok (w, h)) : x < w ∧ y < h := by
  rcases hvisible with ⟨_, columns, lines, hsize', hx, hy⟩
  rw [hsize] at hsize'
  cases hsize'
  exact ⟨hx, hy⟩

theorem Covered.visible_iff (h : view.Covered) :
    view.Visible c x y ↔
      (exists comp, view.format.component c = .ok comp) ∧ x < view.columns c ∧
        y < view.lines c := by
  constructor
  · intro h'
    rcases h' with ⟨hc, columns, lines, hsize, hx, hy⟩
    rcases Format.exists_component hc with ⟨comp, hcomp⟩
    rw [h.componentSize hcomp] at hsize
    cases hsize
    exact ⟨⟨comp, hcomp⟩, hx, hy⟩
  · intro h'
    rcases h' with ⟨⟨comp, hcomp⟩, hx, hy⟩
    exact ⟨Format.lt_of_component hcomp, _, _, h.componentSize hcomp, hx, hy⟩

theorem Covered.visible (h : view.Covered) (hcomp : view.format.component c = .ok comp)
    (hx : x < view.columns c) (hy : y < view.lines c) : view.Visible c x y :=
  h.visible_iff.mpr ⟨⟨comp, hcomp⟩, hx, hy⟩

theorem Covered.row_le_pitch (h : view.Covered) (hcomp : view.format.component c = .ok comp) :
    view.columns c * comp.stride ≤ (view.planes.get comp.plane).pitch := by
  rcases h.planes with ⟨extents, hextents, hplanes⟩
  have hasked := (Format.asked_within_extents h.width_pos hextents hcomp).right
  exact Nat.le_trans hasked.row (hplanes comp.plane (Format.plane_mem_planes hcomp)).left

theorem Covered.rows_le_length (h : view.Covered)
    (hcomp : view.format.component c = .ok comp) :
    (view.lines c - 1) * (view.planes.get comp.plane).pitch + view.columns c * comp.stride ≤
      (view.planes.get comp.plane).length := by
  rcases h.planes with ⟨extents, hextents, hplanes⟩
  have hasked := (Format.asked_within_extents h.width_pos hextents hcomp).right
  have hlast := (hplanes comp.plane (Format.plane_mem_planes hcomp)).right
  have hrows := Nat.mul_le_mul_right (view.planes.get comp.plane).pitch
    (Nat.sub_le_sub_right hasked.rows 1)
  have hrow := hasked.row
  show (view.format.asked view.width view.height (comp, c)).rows.pred * _ +
    (view.format.asked view.width view.height (comp, c)).row ≤ _
  exact Nat.le_trans (Nat.add_le_add hrows hrow) hlast

theorem Covered.ample (h : view.Covered) : view.Ample :=
  ⟨h.width_pos, h.height_pos, fun _ _ hcomp => h.row_le_pitch hcomp,
    fun _ _ hcomp => h.rows_le_length hcomp⟩

/-- Planes with room for a picture have room for the front of it. -/
theorem Ample.shorter {height : Nat} (h : view.Ample) (hpos : 0 < height)
    (hle : height ≤ view.height) : Ample { view with height := height } := by
  refine ⟨h.width_pos, hpos, h.row, ?_⟩
  intro c comp hcomp
  have hlines : view.format.lines c height - 1 ≤ view.lines c - 1 :=
    Nat.sub_le_sub_right (shrunk_mono hle _) 1
  exact Nat.le_trans (Nat.add_le_add_right (Nat.mul_le_mul_right _ hlines) _)
    (h.rows c comp hcomp)

/-- A view is covered if some extent holds the components of each plane and fits it. -/
theorem covered_of_bounds (hwidth : 0 < view.width) (hheight : 0 < view.height)
    (hsize : forall c comp, view.format.component c = .ok comp ->
      view.componentSize c = .ok (view.columns c, view.lines c))
    (hbound : forall p, p ∈ view.format.planes -> exists bound : Extent,
      (forall c comp, view.format.component c = .ok comp -> comp.plane = p ->
        (view.format.asked view.width view.height (comp, c)).Within bound) ∧
      bound.row ≤ (view.planes.get p).pitch ∧
      (bound.rows - 1) * (view.planes.get p).pitch + bound.row ≤
        (view.planes.get p).length) : view.Covered := by
  rcases Format.exists_extents hwidth hsize with ⟨extents, hextents⟩
  refine ⟨hwidth, hheight, extents, hextents, ?_⟩
  intro p hp
  rcases hbound p hp with ⟨bound, hholds, hpitch, hlength⟩
  have hwithin := Format.extents_within hwidth hextents hholds
  have hrows := Nat.mul_le_mul_right (view.planes.get p).pitch
    (Nat.sub_le_sub_right hwithin.rows 1)
  exact ⟨Nat.le_trans hwithin.row hpitch,
    Nat.le_trans (Nat.add_le_add hrows hwithin.row) hlength⟩

theorem Ample.covered (h : view.Ample)
    (hsize : forall c comp, view.format.component c = .ok comp ->
      view.componentSize c = .ok (view.columns c, view.lines c)) : view.Covered := by
  refine covered_of_bounds h.width_pos h.height_pos hsize fun p hp => ?_
  rcases Format.exists_component_on hp with ⟨c, comp, hcomp, rfl⟩
  -- The components of a plane have the same lines, so one extent bounds the rows of them all.
  refine ⟨⟨view.lines c, min (view.planes.get comp.plane).pitch
    ((view.planes.get comp.plane).length -
      (view.lines c - 1) * (view.planes.get comp.plane).pitch)⟩, ?_, Nat.min_le_left _ _, ?_⟩
  · intro d other hother hplane
    have hlines : view.lines d = view.lines c :=
      Format.lines_eq_of_plane hother hcomp hplane view.height
    have hrow := h.row d other hother
    have hrows := h.rows d other hother
    rw [hplane] at hrow hrows
    rw [hlines] at hrows
    exact ⟨Nat.le_of_eq hlines, Nat.le_min.mpr ⟨hrow, Nat.le_sub_of_add_le' hrows⟩⟩
  · have hrows := Nat.le_of_add_right_le (h.rows c comp hcomp)
    exact Nat.add_le_of_le_sub' hrows (Nat.min_le_right _ _)

/-!
## Visible samples and rows
-/

theorem sample_le_rows {rows row position : Nat} (pitch : Nat) (hy : y < rows)
    (hposition : position ≤ row) :
    y * pitch + position ≤ (rows - 1) * pitch + row :=
  Nat.add_le_add (Nat.mul_le_mul_right pitch (Nat.le_sub_one_of_lt hy)) hposition

theorem Ample.position_le (h : view.Ample) (hcomp : view.format.component c = .ok comp)
    (hx : x < view.columns c) (hy : y < view.lines c) :
    comp.position (view.planes.get comp.plane).pitch x y + comp.bytes ≤
      (view.planes.get comp.plane).length := by
  have hin := Component.sample_le_row (Format.offset_add_bytes_le hcomp) hx
  have hlast := sample_le_rows (view.planes.get comp.plane).pitch hy hin
  have hlength := h.rows c comp hcomp
  unfold Component.position
  omega

theorem Ample.sampleSpan (h : view.Ample) (hcomp : view.format.component c = .ok comp)
    (hx : x < view.columns c) (hy : y < view.lines c) :
    view.sampleSpan comp x y = .ok ⟨view.address comp x y, comp.bytes⟩ :=
  Span.sub_of_le (h.position_le hcomp hx hy)

/-- The value of a sample is the number that its stored bytes spell, cut to its depth. -/
theorem sample_of_stored (view : View) (memory : Memory) (c x y : Nat) :
    view.sample memory c x y = do
      let comp <- view.format.component c
      let bytes <- view.stored memory c x y
      return littleEndian bytes % comp.levels := by
  unfold sample stored
  cases hcomp : view.format.component c with
  | error fault => rfl
  | ok comp =>
      rw [Checked.ok_bind, Checked.ok_bind, Checked.ok_bind]
      cases hspan : view.sampleSpan comp x y with
      | error fault => rfl
      | ok span => rfl

theorem Ample.stored (h : view.Ample) (hcomp : view.format.component c = .ok comp)
    (hx : x < view.columns c) (hy : y < view.lines c) (memory : Memory) :
    view.stored memory c x y = .ok (memory.read (view.address comp x y) comp.bytes) := by
  unfold View.stored
  rw [hcomp, Checked.ok_bind, h.sampleSpan hcomp hx hy]
  rfl

theorem Covered.position_le (h : view.Covered) (hcomp : view.format.component c = .ok comp)
    (hx : x < view.columns c) (hy : y < view.lines c) :
    comp.position (view.planes.get comp.plane).pitch x y + comp.bytes ≤
      (view.planes.get comp.plane).length :=
  h.ample.position_le hcomp hx hy

theorem Covered.sampleSpan (h : view.Covered) (hcomp : view.format.component c = .ok comp)
    (hx : x < view.columns c) (hy : y < view.lines c) :
    view.sampleSpan comp x y = .ok ⟨view.address comp x y, comp.bytes⟩ :=
  h.ample.sampleSpan hcomp hx hy

theorem Ample.row_le_length (h : view.Ample) (hcomp : view.format.component c = .ok comp)
    (hy : y < view.lines c) :
    comp.position (view.planes.get comp.plane).pitch 0 y + comp.rowSpan (view.columns c) ≤
      (view.planes.get comp.plane).length := by
  have hcolumns := view.columns_pos h.width_pos c
  have hin := Component.rowSpan_add_offset_le (Format.offset_add_bytes_le hcomp) hcolumns
  have hlast := sample_le_rows (view.planes.get comp.plane).pitch hy hin
  have hlength := h.rows c comp hcomp
  unfold Component.position
  omega

/-- A row has a span if its plane reaches that far, also below the last line of the view. -/
theorem rowSpan_of_le {w lines : Nat} (hcomp : view.format.component c = .ok comp)
    (hsize : view.componentSize c = .ok (w, lines))
    (hle : comp.position (view.planes.get comp.plane).pitch 0 y + comp.rowSpan w ≤
      (view.planes.get comp.plane).length) :
    view.rowSpan c y = .ok ⟨view.address comp 0 y, comp.rowSpan w⟩ := by
  unfold View.rowSpan
  rw [hcomp, Checked.ok_bind, hsize, Checked.ok_bind]
  exact Span.sub_of_le hle

theorem Ample.rowSpan (h : view.Ample) (hcomp : view.format.component c = .ok comp)
    (hsize : view.componentSize c = .ok (view.columns c, view.lines c))
    (hy : y < view.lines c) :
    view.rowSpan c y = .ok ⟨view.address comp 0 y, comp.rowSpan (view.columns c)⟩ :=
  rowSpan_of_le hcomp hsize (h.row_le_length hcomp hy)

theorem Covered.rowSpan (h : view.Covered) (hcomp : view.format.component c = .ok comp)
    (hy : y < view.lines c) :
    view.rowSpan c y = .ok ⟨view.address comp 0 y, comp.rowSpan (view.columns c)⟩ :=
  h.ample.rowSpan hcomp (h.componentSize hcomp) hy

theorem Covered.stored (h : view.Covered) (hcomp : view.format.component c = .ok comp)
    (hx : x < view.columns c) (hy : y < view.lines c) (memory : Memory) :
    view.stored memory c x y = .ok (memory.read (view.address comp x y) comp.bytes) :=
  h.ample.stored hcomp hx hy memory

theorem Covered.sample (h : view.Covered) (hcomp : view.format.component c = .ok comp)
    (hx : x < view.columns c) (hy : y < view.lines c) (memory : Memory) :
    view.sample memory c x y =
      .ok (littleEndian (memory.read (view.address comp x y) comp.bytes) % comp.levels) := by
  unfold View.sample
  rw [hcomp, Checked.ok_bind, h.sampleSpan hcomp hx hy]
  rfl

theorem Covered.exists_values (h : view.Covered) (hcomp : view.format.component c = .ok comp)
    (memory : Memory) :
    exists f : Nat -> Nat -> Nat, forall x y, x < view.columns c -> y < view.lines c ->
      view.sample memory c x y = .ok (f x y) ∧ f x y < comp.levels := by
  exact ⟨_, fun x y hx hy => ⟨h.sample hcomp hx hy memory, Nat.mod_lt _ comp.levels_pos⟩⟩

end View
end RawVideo

import RawVideo.Proofs.View.Accepted

/-!
# Derived views

Rectangles and fields of covered views.  A rectangle moves the start of a plane by
whole rows and whole samples of every component on it, so what is left of the plane
still holds the rows of the rectangle.  A field is covered because its planes are
checked.  Neither step faults on sizes that leave room in a machine word.
-/

namespace RawVideo

/-!
## Values by plane
-/

namespace PerPlane

variable {ε α : Type}

theorem forall_plane {P : PlaneIndex -> Prop} (h0 : P .first) (h1 : P .second) (h2 : P .third)
    (h3 : P .fourth) : forall p, P p
  | ⟨0, _⟩ => h0
  | ⟨1, _⟩ => h1
  | ⟨2, _⟩ => h2
  | ⟨3, _⟩ => h3

theorem ext_get {values others : PerPlane α} (h : forall p, values.get p = others.get p) :
    values = others :=
  Vector.ext fun i hi => h ⟨i, hi⟩

theorem ofFnM_of_forall {f : PlaneIndex -> Checked α} {values : PerPlane α}
    (h : ofFnM f = .ok values) : forall p, f p = .ok (values.get p) := by
  unfold ofFnM at h
  rcases Checked.bind_eq_ok.mp h with ⟨v0, h0, h⟩
  rcases Checked.bind_eq_ok.mp h with ⟨v1, h1, h⟩
  rcases Checked.bind_eq_ok.mp h with ⟨v2, h2, h⟩
  rcases Checked.bind_eq_ok.mp h with ⟨v3, h3, h⟩
  cases h
  exact forall_plane h0 h1 h2 h3

theorem exists_ofFnM {f : PlaneIndex -> Checked α} (h : forall p, exists value, f p = .ok value) :
    exists values, ofFnM f = .ok values := by
  rcases h .first with ⟨v0, h0⟩
  rcases h .second with ⟨v1, h1⟩
  rcases h .third with ⟨v2, h2⟩
  rcases h .fourth with ⟨v3, h3⟩
  refine ⟨#v[v0, v1, v2, v3], ?_⟩
  unfold ofFnM
  rw [h0, h1, h2, h3]
  rfl

end PerPlane

/-!
## The chroma grid
-/

namespace Format

variable {format : Format} {comp : Component} {c : Nat}

/-- The distance between the samples of the first component on a plane. -/
def pixelStride (format : Format) (p : PlaneIndex) : Nat :=
  ((format.components.find? fun comp => comp.plane == p).map Component.stride).getD 0

/-- How often the coordinates of a rectangle are halved on a plane. -/
def planeShifts (format : Format) (p : PlaneIndex) : Nat × Nat :=
  if p.val = 0 then (0, 0) else format.shifts

theorem pixelStrides_eq (format : Format) :
    format.pixelStrides = .ok (PerPlane.ofFn format.pixelStride) := by
  cases format <;> rfl

theorem planeShifts_spec (h : format.component c = .ok comp) :
    (format.shiftsOf c).2 = (format.planeShifts comp.plane).2 ∧
      format.pixelStride comp.plane <<< (format.shiftsOf c).1 =
        comp.stride <<< (format.planeShifts comp.plane).1 :=
  forall_component
    (P := fun format comp c => (format.shiftsOf c).2 = (format.planeShifts comp.plane).2 ∧
      format.pixelStride comp.plane <<< (format.shiftsOf c).1 =
        comp.stride <<< (format.planeShifts comp.plane).1)
    (by decide +kernel) h

theorem shiftsOf_eq_zero_or (h : format.component c = .ok comp) :
    format.shiftsOf c = (0, 0) ∨
      format.shiftsOf c = format.shifts ∧ ¬ format.components.length ≤ 1 ∧
        format.isRgb = false :=
  forall_component
    (P := fun format _ c => format.shiftsOf c = (0, 0) ∨
      format.shiftsOf c = format.shifts ∧ ¬ format.components.length ≤ 1 ∧
        format.isRgb = false)
    (by decide +kernel) h

theorem mod_of_onGrid {x y : Nat} (hgrid : format.onGrid x y = true)
    (h : format.component c = .ok comp) :
    x % (1 <<< (format.shiftsOf c).1) = 0 ∧ y % (1 <<< (format.shiftsOf c).2) = 0 := by
  rcases shiftsOf_eq_zero_or h with hzero | ⟨hshifts, hmany, hyuv⟩
  · rw [hzero]
    exact ⟨Nat.mod_one x, Nat.mod_one y⟩
  · unfold onGrid at hgrid
    rw [hyuv, decide_eq_false hmany, Bool.false_or, Bool.false_or, Bool.and_eq_true, beq_iff_eq,
      beq_iff_eq] at hgrid
    rw [hshifts]
    exact hgrid

theorem mul_shiftRight_of_grid {x s t a b : Nat} (hx : x % (1 <<< a) = 0)
    (h : s <<< a = t <<< b) : (x * s) >>> b = (x >>> a) * t := by
  rw [Nat.one_shiftLeft] at hx
  rw [Nat.shiftLeft_eq, Nat.shiftLeft_eq] at h
  rw [Nat.shiftRight_eq_div_pow, Nat.shiftRight_eq_div_pow]
  rcases Nat.dvd_of_mod_eq_zero hx with ⟨k, rfl⟩
  rw [Nat.mul_div_cancel_left k (Nat.two_pow_pos a), Nat.mul_right_comm, Nat.mul_comm _ s, h,
    Nat.mul_right_comm, Nat.mul_div_cancel _ (Nat.two_pow_pos b), Nat.mul_comm]

end Format

/-!
## Parts of a view
-/

namespace View

variable {view derived : View} {comp : Component} {c : Nat}

/-- Every plane of a view lies inside the same plane of another view. -/
structure Part (part whole : View) : Prop where
  format : part.format = whole.format
  start : forall p, p ∈ whole.format.planes ->
    (whole.planes.get p).start ≤ (part.planes.get p).start
  stop : forall p, p ∈ whole.format.planes ->
    (part.planes.get p).stop ≤ (whole.planes.get p).stop

theorem Part.refl (view : View) : view.Part view :=
  ⟨rfl, fun _ _ => Nat.le_refl _, fun _ _ => Nat.le_refl _⟩

theorem Part.trans {inner part whole : View} (h : inner.Part part) (h' : part.Part whole) :
    inner.Part whole := by
  refine ⟨h.format.trans h'.format, ?_, ?_⟩
  · intro p hp
    exact Nat.le_trans (h'.start p hp) (h.start p (h'.format ▸ hp))
  · intro p hp
    exact Nat.le_trans (h.stop p (h'.format ▸ hp)) (h'.stop p hp)

/-- The planes lie apart from each other in a memory of some size. -/
structure Writable (view : View) (size : Nat) : Prop where
  inside : forall p, p ∈ view.format.planes -> (view.planes.get p).stop ≤ size
  apart : forall p q, p ∈ view.format.planes -> q ∈ view.format.planes -> p ≠ q ->
    (view.planes.get p).stop ≤ (view.planes.get q).start ∨
      (view.planes.get q).stop ≤ (view.planes.get p).start

theorem Writable.part {size : Nat} (h : view.Writable size) (hpart : derived.Part view) :
    derived.Writable size := by
  constructor
  · intro p hp
    rw [hpart.format] at hp
    exact Nat.le_trans (hpart.stop p hp) (h.inside p hp)
  · intro p q hp hq hne
    rw [hpart.format] at hp hq
    rcases h.apart p q hp hq hne with hle | hle
    · exact Or.inl (Nat.le_trans (hpart.stop p hp) (Nat.le_trans hle (hpart.start q hq)))
    · exact Or.inr (Nat.le_trans (hpart.stop q hq) (Nat.le_trans hle (hpart.start p hp)))

/-- Sizes and pitches leave room in their machine words. -/
structure Small (view : View) : Prop where
  width : view.width + 2 < UInt32.size
  height : view.height + 2 < UInt32.size
  pitch : forall p, p ∈ view.format.planes ->
    2 * (view.height * (view.planes.get p).pitch) < UInt64.size

/-!
## Rectangles
-/

/-- The rows of a plane in front of a rectangle. -/
def rowsBefore (format : Format) (rect : Rect) (p : PlaneIndex) : Nat :=
  rect.y >>> (format.planeShifts p).2

/-- The bytes of a row of a plane in front of a rectangle. -/
def bytesBefore (format : Format) (rect : Rect) (p : PlaneIndex) : Nat :=
  (rect.x * format.pixelStride p) >>> (format.planeShifts p).1

theorem checkRect_eq_ok {rect : Rect} (h : view.checkRect rect = .ok ()) :
    0 < rect.width ∧ 0 < rect.height ∧ rect.x + rect.width ≤ view.width ∧
      rect.y + rect.height ≤ view.height ∧ view.format.onGrid rect.x rect.y = true := by
  unfold checkRect at h
  split at h
  next => cases h
  next hsize =>
    split at h
    next => cases h
    next hinside =>
      split at h
      next => cases h
      next hgrid =>
        rw [not_or] at hsize hinside
        refine ⟨Nat.pos_of_ne_zero hsize.left, Nat.pos_of_ne_zero hsize.right,
          Nat.not_lt.mp hinside.left, Nat.not_lt.mp hinside.right, ?_⟩
        cases hon : view.format.onGrid rect.x rect.y with
        | false =>
            rw [hon] at hgrid
            exact (hgrid rfl).elim
        | true => rfl

theorem rectOffset_eq {rect : Rect} {p : PlaneIndex} (hp : p ∈ view.format.planes)
    (hgrid : view.format.onGrid rect.x rect.y = true) :
    view.rectOffset (PerPlane.ofFn view.format.pixelStride) rect p =
      rowsBefore view.format rect p * (view.planes.get p).pitch +
        bytesBefore view.format rect p := by
  rcases Format.exists_component_on hp with ⟨c, comp, hcomp, rfl⟩
  have hrows := (Format.mod_of_onGrid hgrid hcomp).right
  rw [(Format.planeShifts_spec hcomp).left] at hrows
  show ((rect.y * (view.planes.get comp.plane).pitch) >>>
      (view.format.planeShifts comp.plane).2) +
    ((rect.x * (PerPlane.ofFn view.format.pixelStride).get comp.plane) >>>
      (view.format.planeShifts comp.plane).1) = _
  rw [PerPlane.get_ofFn]
  exact congrArg (· + _) (Format.mul_shiftRight_of_grid hrows rfl)

theorem bytesBefore_eq {format : Format} {rect : Rect}
    (hgrid : format.onGrid rect.x rect.y = true) (hcomp : format.component c = .ok comp) :
    bytesBefore format rect comp.plane = (rect.x >>> (format.shiftsOf c).1) * comp.stride :=
  Format.mul_shiftRight_of_grid (Format.mod_of_onGrid hgrid hcomp).left
    (Format.planeShifts_spec hcomp).right

theorem rowsBefore_eq {format : Format} {rect : Rect}
    (hcomp : format.component c = .ok comp) :
    rowsBefore format rect comp.plane = rect.y >>> (format.shiftsOf c).2 := by
  unfold rowsBefore
  rw [(Format.planeShifts_spec hcomp).left]

/-- The samples of a rectangle are samples of the picture. -/
theorem rect_samples_within {rect : Rect} (hcheck : view.checkRect rect = .ok ())
    (hcomp : view.format.component c = .ok comp) :
    (rect.x >>> (view.format.shiftsOf c).1) + view.format.columns c rect.width ≤
        view.columns c ∧
      (rect.y >>> (view.format.shiftsOf c).2) + view.format.lines c rect.height ≤
        view.lines c := by
  rcases checkRect_eq_ok hcheck with ⟨_, _, hx, hy, hgrid⟩
  have hmod := Format.mod_of_onGrid hgrid hcomp
  have hshifts := view.format.shiftsOf_le_one c
  exact ⟨shift_add_shrunk_le hshifts.left hmod.left hx,
    shift_add_shrunk_le hshifts.right hmod.right hy⟩

/-- Rows and bytes in front of a rectangle and those of it stay within the picture. -/
theorem rect_within {rect : Rect} (hcheck : view.checkRect rect = .ok ())
    (hcomp : view.format.component c = .ok comp) :
    rowsBefore view.format rect comp.plane + view.format.lines c rect.height ≤ view.lines c ∧
      bytesBefore view.format rect comp.plane +
          view.format.columns c rect.width * comp.stride ≤
        view.columns c * comp.stride := by
  rcases checkRect_eq_ok hcheck with ⟨_, _, _, _, hgrid⟩
  rcases rect_samples_within hcheck hcomp with ⟨hcolumns, hlines⟩
  rw [rowsBefore_eq hcomp, bytesBefore_eq hgrid hcomp, ← Nat.add_mul]
  exact ⟨hlines, Nat.mul_le_mul_right _ hcolumns⟩

theorem rectOffset_le {rect : Rect} {p : PlaneIndex} (h : view.Ample)
    (hcheck : view.checkRect rect = .ok ()) (hp : p ∈ view.format.planes) :
    view.rectOffset (PerPlane.ofFn view.format.pixelStride) rect p ≤
      (view.planes.get p).length := by
  rcases checkRect_eq_ok hcheck with ⟨_, hheight, _, _, hgrid⟩
  rw [rectOffset_eq hp hgrid]
  rcases Format.exists_component_on hp with ⟨c, comp, hcomp, rfl⟩
  rcases rect_within hcheck hcomp with ⟨hrows, hbytes⟩
  have hlines := view.format.lines_pos c hheight
  have hlength := h.rows c comp hcomp
  have hlast := Nat.mul_le_mul_right (view.planes.get comp.plane).pitch
    (show rowsBefore view.format rect comp.plane ≤ view.lines c - 1 by omega)
  omega

theorem cropPlane_eq {strides : PerPlane Nat} {rect : Rect} {p : PlaneIndex}
    (hp : p ∈ view.format.planes)
    (hle : view.rectOffset strides rect p ≤ (view.planes.get p).length) :
    view.cropPlane strides rect p =
      .ok ⟨⟨(view.planes.get p).start + view.rectOffset strides rect p,
        (view.planes.get p).length - view.rectOffset strides rect p⟩,
        (view.planes.get p).pitch⟩ := by
  unfold cropPlane
  rw [if_pos (Format.mem_planes.mp hp), Span.suffix_of_le hle]
  rfl

theorem answers_crop {rect : Rect} :
    Attempt.Answers (view.crop rect) derived ↔
      view.checkRect rect = .ok () ∧ exists planes,
        PerPlane.ofFnM (view.cropPlane (PerPlane.ofFn view.format.pixelStride) rect) =
            .ok planes ∧
          derived = ⟨view.format, rect.width, rect.height, planes⟩ := by
  unfold crop
  simp only [Attempt.answers_bind, Attempt.answers_ofExcept, Attempt.answers_ofChecked,
    Attempt.answers_pure_iff, Format.pixelStrides_eq]
  constructor
  · intro h
    rcases h with ⟨_, hcheck, strides, hstrides, planes, hplanes, hderived⟩
    cases hstrides
    exact ⟨hcheck, planes, hplanes, hderived.symm⟩
  · intro h
    rcases h with ⟨hcheck, planes, hplanes, hderived⟩
    exact ⟨(), hcheck, _, rfl, planes, hplanes, hderived.symm⟩

/-- The planes of a rectangle start later by whole rows and samples, and stop where they did. -/
theorem planes_of_crop {rect : Rect} (h : view.Ample)
    (hcrop : Attempt.Answers (view.crop rect) derived) {p : PlaneIndex}
    (hp : p ∈ view.format.planes) :
    derived.planes.get p =
      ⟨⟨(view.planes.get p).start +
          (rowsBefore view.format rect p * (view.planes.get p).pitch +
            bytesBefore view.format rect p),
        (view.planes.get p).length -
          (rowsBefore view.format rect p * (view.planes.get p).pitch +
            bytesBefore view.format rect p)⟩,
        (view.planes.get p).pitch⟩ := by
  rcases answers_crop.mp hcrop with ⟨hcheck, planes, hplanes, rfl⟩
  rcases checkRect_eq_ok hcheck with ⟨_, _, _, _, hgrid⟩
  have hplane := PerPlane.ofFnM_of_forall hplanes p
  rw [cropPlane_eq hp (rectOffset_le h hcheck hp), rectOffset_eq hp hgrid] at hplane
  injection hplane with hplane
  exact hplane.symm

theorem settles_crop (h : view.Covered) (rect : Rect) : Attempt.Settles (view.crop rect) := by
  unfold crop
  apply (Attempt.settles_ofExcept _).bind
  intro _ hcheck
  rw [Attempt.answers_ofExcept] at hcheck
  apply (Attempt.settles_ofExcept _).bind
  intro strides hstrides
  rw [Attempt.answers_ofExcept, Format.pixelStrides_eq] at hstrides
  cases hstrides
  have hplane : forall p, exists plane,
      view.cropPlane (PerPlane.ofFn view.format.pixelStride) rect p = .ok plane := by
    intro p
    by_cases hp : p ∈ view.format.planes
    · exact ⟨_, cropPlane_eq hp (rectOffset_le h.ample hcheck hp)⟩
    · unfold cropPlane
      exact ⟨_, if_neg fun hlt => hp (Format.mem_planes.mpr hlt)⟩
  rcases PerPlane.exists_ofFnM hplane with ⟨planes, hplanes⟩
  exact (Attempt.settles_ofChecked hplanes).bind fun _ _ => (Attempt.answers_pure _).settles

theorem ample_of_crop {rect : Rect} (h : view.Ample)
    (hcrop : Attempt.Answers (view.crop rect) derived) : derived.Ample := by
  have hplanes := fun p hp => planes_of_crop (p := p) h hcrop hp
  rcases answers_crop.mp hcrop with ⟨hcheck, planes, _, rfl⟩
  rcases checkRect_eq_ok hcheck with ⟨hwidth, hheight, _, _, _⟩
  refine ⟨hwidth, hheight, ?_, ?_⟩
  · intro c comp (hcomp : view.format.component c = .ok comp)
    have hrow := (rect_within hcheck hcomp).right
    rw [show planes.get comp.plane = _ from hplanes _ (Format.plane_mem_planes hcomp)]
    exact Nat.le_trans (Nat.le_of_add_left_le hrow) (h.row c comp hcomp)
  · intro c comp (hcomp : view.format.component c = .ok comp)
    rcases rect_within hcheck hcomp with ⟨hrows, hrow⟩
    have hlength := h.rows c comp hcomp
    have hlines := view.format.lines_pos c hheight
    have hlast := Nat.mul_le_mul_right (view.planes.get comp.plane).pitch
      (show view.format.lines c rect.height - 1 + rowsBefore view.format rect comp.plane ≤
        view.lines c - 1 by omega)
    rw [Nat.add_mul] at hlast
    rw [show planes.get comp.plane = _ from hplanes _ (Format.plane_mem_planes hcomp)]
    show (view.format.lines c rect.height - 1) * (view.planes.get comp.plane).pitch +
        view.format.columns c rect.width * comp.stride ≤ _ - _
    omega

theorem covered_of_crop {rect : Rect} (h : view.Covered)
    (hcrop : Attempt.Answers (view.crop rect) derived) : derived.Covered := by
  refine (ample_of_crop h.ample hcrop).covered ?_
  rcases answers_crop.mp hcrop with ⟨hcheck, planes, _, rfl⟩
  rcases checkRect_eq_ok hcheck with ⟨_, _, hx, hy, _⟩
  intro c comp (hcomp : view.format.component c = .ok comp)
  rcases (Format.componentSize_eq_ok hcomp).mp (h.componentSize hcomp) with ⟨hw, hh, _⟩
  have hw' : rect.width + 1 <<< (view.format.shiftsOf c).1 < UInt32.size := by omega
  have hh' : rect.height + 1 <<< (view.format.shiftsOf c).2 < UInt32.size := by omega
  exact (Format.componentSize_eq_ok hcomp).mpr ⟨hw', hh', rfl⟩

theorem part_of_crop {rect : Rect} (h : view.Ample)
    (hcrop : Attempt.Answers (view.crop rect) derived) : derived.Part view := by
  have hplanes := fun p hp => planes_of_crop (p := p) h hcrop hp
  rcases answers_crop.mp hcrop with ⟨hcheck, planes, _, rfl⟩
  rcases checkRect_eq_ok hcheck with ⟨_, _, _, _, hgrid⟩
  refine ⟨rfl, ?_, ?_⟩
  · intro p hp
    rw [hplanes p hp]
    exact Nat.le_add_right _ _
  · intro p hp
    have hle := rectOffset_le h hcheck hp
    rw [rectOffset_eq hp hgrid] at hle
    rw [hplanes p hp]
    show _ + _ + (_ - _) ≤ _ + _
    omega

theorem small_of_crop {rect : Rect} (h : view.Covered) (hsmall : view.Small)
    (hcrop : Attempt.Answers (view.crop rect) derived) : derived.Small := by
  have hplanes := fun p hp => planes_of_crop (p := p) h.ample hcrop hp
  rcases answers_crop.mp hcrop with ⟨hcheck, planes, _, rfl⟩
  rcases checkRect_eq_ok hcheck with ⟨_, _, hx, hy, _⟩
  have hw := hsmall.width
  have hh := hsmall.height
  refine ⟨?_, ?_, ?_⟩
  · show rect.width + 2 < _
    omega
  · show rect.height + 2 < _
    omega
  · intro p hp
    rw [hplanes p hp]
    have hpitch := hsmall.pitch p hp
    have hle := Nat.mul_le_mul_right (view.planes.get p).pitch
      (show rect.height ≤ view.height by omega)
    show 2 * (rect.height * (view.planes.get p).pitch) < _
    omega

/-!
## Fields
-/

theorem answers_field {field : Field} :
    Attempt.Answers (view.field field) derived ↔
      exists planes, PerPlane.ofFnM (view.fieldPlane field) = .ok planes ∧
        ¬ view.height < 2 ∧
        Attempt.Answers (checkPlanes view.format view.width (view.height / 2) planes) () ∧
        derived = ⟨view.format, view.width, view.height / 2, planes⟩ := by
  unfold View.field
  simp only [Attempt.answers_bind, Attempt.answers_ofChecked]
  constructor
  · intro h
    rcases h with ⟨planes, hplanes, hrest⟩
    rw [Attempt.answers_unless, Attempt.answers_bind] at hrest
    rcases hrest with ⟨hheight, _, hcheck, hderived⟩
    rw [Attempt.answers_adapt] at hcheck
    rw [Attempt.answers_pure_iff] at hderived
    exact ⟨planes, hplanes, hheight, hcheck, hderived.symm⟩
  · intro h
    rcases h with ⟨planes, hplanes, hheight, hcheck, hderived⟩
    refine ⟨planes, hplanes, ?_⟩
    rw [Attempt.answers_unless, Attempt.answers_bind]
    exact ⟨hheight, (), Attempt.answers_adapt.mpr hcheck,
      Attempt.answers_pure_iff.mpr hderived.symm⟩

theorem fieldPlane_eq_ok {field : Field} {p : PlaneIndex} {plane : Plane}
    (hp : p ∈ view.format.planes) :
    view.fieldPlane field p = .ok plane ↔
      2 * (view.planes.get p).pitch < UInt64.size ∧
        plane = ⟨fieldSpan (view.planes.get p) field, 2 * (view.planes.get p).pitch⟩ := by
  unfold fieldPlane
  rw [if_pos (Format.mem_planes.mp hp), Checked.bind_eq_ok]
  constructor
  · intro h
    rcases h with ⟨pitch, hpitch, hplane⟩
    rcases Checked.word64_eq_ok.mp hpitch with ⟨hword, rfl⟩
    cases hplane
    exact ⟨hword, rfl⟩
  · intro h
    rcases h with ⟨hword, rfl⟩
    exact ⟨_, Checked.word64_of_lt hword, rfl⟩

theorem planes_of_field {field : Field} (hfield : Attempt.Answers (view.field field) derived)
    {p : PlaneIndex} (hp : p ∈ view.format.planes) :
    derived.planes.get p =
      ⟨fieldSpan (view.planes.get p) field, 2 * (view.planes.get p).pitch⟩ := by
  rcases answers_field.mp hfield with ⟨planes, hplanes, _, _, rfl⟩
  exact ((fieldPlane_eq_ok hp).mp (PerPlane.ofFnM_of_forall hplanes p)).right

theorem covered_of_field {field : Field}
    (hfield : Attempt.Answers (view.field field) derived) : derived.Covered := by
  rcases answers_field.mp hfield with ⟨planes, _, _, hcheck, rfl⟩
  exact covered_of_checkPlanes hcheck

theorem Covered.length_pos (h : view.Covered) {p : PlaneIndex} (hp : p ∈ view.format.planes) :
    0 < (view.planes.get p).length := by
  rcases Format.exists_component_on hp with ⟨c, comp, hcomp, rfl⟩
  have hlength := h.rows_le_length hcomp
  have hrow := Nat.mul_pos (view.columns_pos h.width_pos c) (Format.stride_pos hcomp)
  omega

theorem fieldSpan_of_le {plane : Plane} {field : Field}
    (h : field.line 0 * plane.pitch ≤ plane.length) :
    fieldSpan plane field =
      ⟨plane.start + field.line 0 * plane.pitch,
        plane.length - field.line 0 * plane.pitch⟩ := by
  cases field with
  | top =>
      show plane.toSpan = ⟨_ + 0 * _, _ - 0 * _⟩
      rw [Nat.zero_mul]
      rfl
  | bottom =>
      change 1 * plane.pitch ≤ plane.length at h
      rw [Nat.one_mul] at h
      show (if plane.pitch ≤ plane.length then _ else Span.empty) = ⟨_ + 1 * _, _ - 1 * _⟩
      rw [if_pos h, Nat.one_mul]

/-- A plane that holds a row of the bottom field reaches that far. -/
theorem fieldSpan_eq {plane : Plane} {field : Field} (h : 0 < (fieldSpan plane field).length) :
    fieldSpan plane field =
        ⟨plane.start + field.line 0 * plane.pitch,
          plane.length - field.line 0 * plane.pitch⟩ ∧
      field.line 0 * plane.pitch ≤ plane.length := by
  have hle : field.line 0 * plane.pitch ≤ plane.length := by
    cases field with
    | top => exact Nat.le_trans (Nat.le_of_eq (Nat.zero_mul _)) (Nat.zero_le _)
    | bottom =>
        show 1 * plane.pitch ≤ plane.length
        rw [Nat.one_mul]
        by_cases hle : plane.pitch ≤ plane.length
        · exact hle
        · change 0 < (if plane.pitch ≤ plane.length then _ else Span.empty).length at h
          rw [if_neg hle] at h
          exact (Nat.lt_irrefl 0 h).elim
  exact ⟨fieldSpan_of_le hle, hle⟩

theorem format_of_field {field : Field} (hfield : Attempt.Answers (view.field field) derived) :
    derived.format = view.format := by
  rcases answers_field.mp hfield with ⟨planes, _, _, _, rfl⟩
  rfl

theorem lines_of_field {field : Field} (hfield : Attempt.Answers (view.field field) derived)
    (c : Nat) : derived.lines c = view.format.lines c (view.height / 2) := by
  rcases answers_field.mp hfield with ⟨planes, _, _, _, rfl⟩
  rfl

theorem columns_of_field {field : Field} (hfield : Attempt.Answers (view.field field) derived)
    (c : Nat) : derived.columns c = view.columns c := by
  rcases answers_field.mp hfield with ⟨planes, _, _, _, rfl⟩
  rfl

theorem span_of_field {field : Field} (hfield : Attempt.Answers (view.field field) derived)
    {p : PlaneIndex} (hp : p ∈ view.format.planes) :
    (derived.planes.get p).toSpan =
        ⟨(view.planes.get p).start + field.line 0 * (view.planes.get p).pitch,
          (view.planes.get p).length - field.line 0 * (view.planes.get p).pitch⟩ ∧
      field.line 0 * (view.planes.get p).pitch ≤ (view.planes.get p).length := by
  have hpos := (covered_of_field hfield).length_pos (format_of_field hfield ▸ hp)
  rw [planes_of_field hfield hp] at hpos ⊢
  exact fieldSpan_eq hpos

theorem part_of_field {field : Field} (hfield : Attempt.Answers (view.field field) derived) :
    derived.Part view := by
  refine ⟨format_of_field hfield, ?_, ?_⟩
  · intro p hp
    rw [(span_of_field hfield hp).left]
    exact Nat.le_add_right _ _
  · intro p hp
    have hle := (span_of_field hfield hp).right
    rw [(span_of_field hfield hp).left]
    show _ + _ + (_ - _) ≤ _ + _
    omega

theorem half_mul_double_le (height pitch : Nat) :
    height / 2 * (2 * pitch) ≤ height * pitch := by
  rw [← Nat.mul_assoc]
  exact Nat.mul_le_mul_right pitch (Nat.div_mul_le_self height 2)

theorem small_of_field {field : Field} (hsmall : view.Small)
    (hfield : Attempt.Answers (view.field field) derived) : derived.Small := by
  have hplanes := fun p hp => planes_of_field (p := p) hfield hp
  rcases answers_field.mp hfield with ⟨planes, _, _, _, rfl⟩
  have hh := hsmall.height
  refine ⟨hsmall.width, ?_, ?_⟩
  · show view.height / 2 + 2 < _
    omega
  · intro p hp
    rw [hplanes p hp]
    have hpitch := hsmall.pitch p hp
    have hhalf := half_mul_double_le view.height (view.planes.get p).pitch
    show 2 * (view.height / 2 * (2 * (view.planes.get p).pitch)) < _
    omega

/-- The planes of a field are answered where their doubled pitches fit a word. -/
theorem exists_fieldPlanes (field : Field)
    (hword : forall p, p ∈ view.format.planes -> 2 * (view.planes.get p).pitch < UInt64.size) :
    exists planes, PerPlane.ofFnM (view.fieldPlane field) = .ok planes ∧
      forall p, p ∈ view.format.planes ->
        planes.get p = ⟨fieldSpan (view.planes.get p) field, 2 * (view.planes.get p).pitch⟩ := by
  have hplane : forall p, exists plane, view.fieldPlane field p = .ok plane := by
    intro p
    by_cases hp : p ∈ view.format.planes
    · exact ⟨_, (fieldPlane_eq_ok hp).mpr ⟨hword p hp, rfl⟩⟩
    · unfold fieldPlane
      exact ⟨_, if_neg fun hlt => hp (Format.mem_planes.mpr hlt)⟩
  rcases PerPlane.exists_ofFnM hplane with ⟨planes, hplanes⟩
  exact ⟨planes, hplanes, fun p hp =>
    ((fieldPlane_eq_ok hp).mp (PerPlane.ofFnM_of_forall hplanes p)).right⟩

theorem settles_field (h : view.Covered) (hsmall : view.Small) (field : Field) :
    Attempt.Settles (view.field field) := by
  have hword : forall p, p ∈ view.format.planes ->
      2 * (view.planes.get p).pitch < UInt64.size := by
    intro p hp
    have hpitch := hsmall.pitch p hp
    have hle := Nat.le_mul_of_pos_left (view.planes.get p).pitch h.height_pos
    omega
  rcases exists_fieldPlanes field hword with ⟨planes, hplanes, hplane⟩
  unfold View.field
  apply (Attempt.settles_ofChecked hplanes).bind
  intro answered hanswered
  rw [Attempt.answers_ofChecked, hplanes] at hanswered
  cases hanswered
  apply Attempt.settles_unless
  intro _
  have hh := hsmall.height
  have hcheck : Attempt.Settles
      (checkPlanes view.format view.width (view.height / 2) planes) := by
    apply settles_checkPlanes hsmall.width (by omega)
    intro p hp
    rw [hplane p hp]
    have hpitch := hsmall.pitch p hp
    have hhalf := half_mul_double_le view.height (view.planes.get p).pitch
    show view.height / 2 * (2 * (view.planes.get p).pitch) < _
    omega
  exact (hcheck.adapt _).bind fun _ _ => (Attempt.answers_pure _).settles

end View
end RawVideo

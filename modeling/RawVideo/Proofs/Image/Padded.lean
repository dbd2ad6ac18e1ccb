import RawVideo.Proofs.Image.Tiled
import RawVideo.Proofs.View.Aliased

/-!
# Padded images

A bottom field may need a chroma row below the last line of the picture that it is taken
from.  An allocated image has the rows: its planes go on down to a height that is a multiple
of sixteen, and a field of planes that go on to a multiple of four goes on to the half of
it.  So three times over, a field of a field is there.
-/

namespace RawVideo
namespace View

variable {view : View} {comp : Component} {c lines n : Nat}

/-- The planes of a view have room for more lines of the same picture. -/
structure Padded (view : View) (lines : Nat) : Prop where
  width : view.width + 2 < UInt32.size
  height : view.height + 2 < UInt32.size
  le : view.height ≤ lines
  ample : Ample { view with height := lines }
  room : forall p, p ∈ view.format.planes -> (view.planes.get p).length < UInt64.size / 2

/-- A picture of the same width with half the lines and twice the pitches. -/
structure Halved (view next : View) : Prop where
  format : next.format = view.format
  width : next.width = view.width
  height : next.height = view.height / 2
  pitch : forall p, p ∈ view.format.planes ->
    (next.planes.get p).pitch = 2 * (view.planes.get p).pitch

/--
Any `n` fields, each taken of the one before, are answered as long as there are two lines to
take them of, for reading and in place.
-/
def HasFields : Nat -> View -> Prop
  | 0, _ => True
  | n + 1, view => 2 ≤ view.height -> forall field, exists next,
      Attempt.Answers (view.field field) next ∧ Attempt.Answers (view.fieldInPlace field) next ∧
        view.Halved next ∧ HasFields n next

/-!
## One field
-/

/-- The rows of a field of the padded picture, the rows in front of them included. -/
theorem Padded.field_rows_le (h : view.Padded lines) (hlines : 4 ∣ lines) (hpos : 0 < lines)
    (hcomp : view.format.component c = .ok comp) (field : Field) :
    field.line 0 * (view.planes.get comp.plane).pitch +
        ((view.format.lines c (lines / 2) - 1) * (2 * (view.planes.get comp.plane).pitch) +
          view.columns c * comp.stride) ≤
      (view.planes.get comp.plane).length := by
  have hdouble : 2 * view.format.lines c (lines / 2) = view.format.lines c lines :=
    two_mul_shrunk_half (view.format.shiftsOf_le_one c).right hlines
  have hhalf := view.format.lines_pos c (show 0 < lines / 2 by omega)
  have hrows : (view.format.lines c lines - 1) * (view.planes.get comp.plane).pitch +
      view.columns c * comp.stride ≤ (view.planes.get comp.plane).length :=
    h.ample.rows c comp hcomp
  have hfirst : field.line 0 ≤ 1 := by
    cases field <;> decide
  have hlast := Nat.mul_le_mul_right (view.planes.get comp.plane).pitch
    (show field.line 0 + (view.format.lines c (lines / 2) - 1) * 2 ≤
      view.format.lines c lines - 1 by omega)
  rw [Nat.add_mul, Nat.mul_assoc] at hlast
  omega

/-- The planes of a field: they start inside the planes of the view, and pitches are doubled. -/
theorem Padded.exists_planes (h : view.Padded lines) (hlines : 4 ∣ lines) (hpos : 0 < lines)
    (field : Field) :
    exists planes, PerPlane.ofFnM (view.fieldPlane field) = .ok planes ∧
      forall p, p ∈ view.format.planes ->
        planes.get p =
          ⟨⟨(view.planes.get p).start + field.line 0 * (view.planes.get p).pitch,
            (view.planes.get p).length - field.line 0 * (view.planes.get p).pitch⟩,
            2 * (view.planes.get p).pitch⟩ := by
  have hlead : forall field : Field, forall p, p ∈ view.format.planes ->
      field.line 0 * (view.planes.get p).pitch ≤ (view.planes.get p).length := by
    intro field p hp
    rcases Format.exists_component_on hp with ⟨c, comp, hcomp, rfl⟩
    exact Nat.le_trans (Nat.le_add_right _ _) (h.field_rows_le hlines hpos hcomp field)
  have hword : forall p, p ∈ view.format.planes ->
      2 * (view.planes.get p).pitch < UInt64.size := by
    intro p hp
    have hsecond : 1 * (view.planes.get p).pitch ≤ (view.planes.get p).length :=
      hlead .bottom p hp
    have hroom := h.room p hp
    omega
  rcases exists_fieldPlanes field hword with ⟨planes, hplanes, hplane⟩
  refine ⟨planes, hplanes, fun p hp => ?_⟩
  rw [hplane p hp, fieldSpan_of_le (hlead field p hp)]

/-- The planes of a field have room for half of the padded lines. -/
theorem Padded.halved {planes : PerPlane Plane} (h : view.Padded lines) (hlines : 4 ∣ lines)
    (hheight : 2 ≤ view.height) (field : Field)
    (hplane : forall p, p ∈ view.format.planes ->
      planes.get p =
        ⟨⟨(view.planes.get p).start + field.line 0 * (view.planes.get p).pitch,
          (view.planes.get p).length - field.line 0 * (view.planes.get p).pitch⟩,
          2 * (view.planes.get p).pitch⟩) :
    Padded ⟨view.format, view.width, view.height / 2, planes⟩ (lines / 2) := by
  have hle := h.le
  have hwords := h.height
  have hpos : 0 < lines := by omega
  refine ⟨h.width, show view.height / 2 + 2 < UInt32.size by omega, Nat.div_le_div_right hle,
    ⟨h.ample.width_pos, show 0 < lines / 2 by omega, ?_, ?_⟩, ?_⟩
  · intro c comp hcomp
    rw [hplane _ (Format.plane_mem_planes hcomp)]
    exact Nat.le_trans (h.ample.row c comp hcomp) (Nat.le_mul_of_pos_left _ Nat.two_pos)
  · intro c comp hcomp
    rw [hplane _ (Format.plane_mem_planes hcomp)]
    exact Nat.le_sub_of_add_le' (h.field_rows_le hlines hpos hcomp field)
  · intro p hp
    rw [hplane p hp]
    exact Nat.lt_of_le_of_lt (Nat.sub_le _ _) (h.room p hp)

/-- The check looks at the lines of the picture only, and the padded ones are at least as many. -/
theorem Padded.answers_checkPlanes (h : view.Padded lines) (hpos : 0 < view.height) :
    Attempt.Answers (checkPlanes view.format view.width view.height view.planes) () := by
  have hshort : Ample view := h.ample.shorter hpos h.le
  have hcovered := hshort.covered fun c comp hcomp =>
    Format.componentSize_of_lt hcomp h.width h.height
  exact hcovered.answers_checkPlanes fun p hp =>
    Nat.lt_of_lt_of_le (h.room p hp) (Nat.div_le_self _ 2)

/-- A view that is padded to a multiple of four lines has its fields, padded to half of them. -/
theorem Padded.exists_field (h : view.Padded lines) (hlines : 4 ∣ lines)
    (hheight : 2 ≤ view.height) (field : Field) :
    exists next, Attempt.Answers (view.field field) next ∧ next.Padded (lines / 2) ∧
      view.Halved next := by
  have hpos : 0 < lines := Nat.lt_of_lt_of_le Nat.two_pos (Nat.le_trans hheight h.le)
  rcases h.exists_planes hlines hpos field with ⟨planes, hplanes, hplane⟩
  have hpadded := h.halved hlines hheight field hplane
  have hcheck := hpadded.answers_checkPlanes (show 0 < view.height / 2 by omega)
  refine ⟨⟨view.format, view.width, view.height / 2, planes⟩,
    answers_field.mpr ⟨planes, hplanes, Nat.not_lt.mpr hheight, hcheck, rfl⟩, hpadded, rfl, rfl,
    rfl, fun p hp => ?_⟩
  rw [hplane p hp]

/-!
## Fields of fields
-/

/-- Each field takes one factor of two from the padded lines, and the last one needs four. -/
theorem Padded.hasFields (h : view.Padded lines) (hlines : 2 ^ (n + 1) ∣ lines) :
    view.HasFields n := by
  induction n generalizing view lines with
  | zero => trivial
  | succ n ih =>
      intro hheight field
      have hfour : 4 ∣ lines :=
        Nat.dvd_trans (Nat.pow_dvd_pow 2 (show 2 ≤ n + 1 + 1 by omega)) hlines
      rcases h.exists_field hfour hheight field with ⟨next, hnext, hpadded, hhalved⟩
      have hrest : 2 ^ (n + 1) ∣ lines / 2 := by
        rw [Nat.pow_succ'] at hlines
        exact Nat.dvd_div_of_mul_dvd hlines
      exact ⟨next, hnext, (fieldInPlace_eq view field).symm ▸ hnext, hhalved, ih hpadded hrest⟩

end View

/-!
## Allocated images
-/

namespace Image

variable {format : Format} {width height : Nat} {layout : Layout} {image : Image}

theorem padded_viewOf (h : Layout.compute format width height = .ok layout)
    (hsize : layout.size ≤ largestAllocation) (hwidth : width + 2 < UInt32.size)
    (hheight : height + 2 < UInt32.size) :
    (viewOf layout).Padded (roundUp height Layout.alignment) := by
  rcases viewOf_of_compute h with ⟨_, hw, hh⟩
  refine ⟨hw.symm ▸ hwidth, hh.symm ▸ hheight, hh.symm ▸ le_roundUp (by decide),
    ample_padded h, ?_⟩
  intro p hp
  have hinside := (writable_viewOf h).inside p hp
  have hlargest : largestAllocation < UInt64.size / 2 := by decide
  unfold Span.stop at hinside
  omega

/--
Both fields of an allocated image with two lines are answered, for reading and in place, and
so are both fields of each field and of each field of those, while there are two lines.
-/
theorem fields_of_images_answer (hwidth : width + 2 < UInt32.size)
    (hheight : height + 2 < UInt32.size) (h : allocate format width height = .ok image) :
    exists view, image.view = .ok view ∧ image.writableView = .ok view ∧
      view.format = format ∧ view.width = width ∧ view.height = height ∧ view.HasFields 3 := by
  rcases allocate_eq_ok h with ⟨layout, hlayout, hsize, rfl⟩
  rcases viewOf_of_compute hlayout with ⟨hformat, hw, hh⟩
  have hpadded := padded_viewOf hlayout hsize hwidth hheight
  have hdvd : 2 ^ 4 ∣ roundUp height Layout.alignment := dvd_roundUp height Layout.alignment
  exact ⟨viewOf layout, rfl, writableView_eq hlayout rfl (Memory.size_zeros _), hformat, hw, hh,
    hpadded.hasFields hdvd⟩

/-- Eighteen lines of 4:2:0: exact planes end before the last chroma row of the bottom field. -/
theorem fields_of_images_answer_i420 :
    exists image view first second third,
      allocate .i420 3 18 = .ok image ∧ image.view = .ok view ∧
        Attempt.Answers (view.field .bottom) first ∧ first.height = 9 ∧
        Attempt.Answers (first.field .top) second ∧ second.height = 4 ∧
        Attempt.Answers (second.fieldInPlace .bottom) third ∧ third.height = 2 ∧
          (third.planes.get .second).pitch = 64 := by
  have himage : allocate .i420 3 18 =
      .ok ⟨some ⟨.i420, 3, 18, #v[16, 8, 8, 0], #v[32, 16, 16, 0], #v[0, 512, 640, 0], 768⟩,
        Memory.zeros 768⟩ := rfl
  rcases fields_of_images_answer (by decide) (by decide) himage with
    ⟨view, hview, _, _, _, _, hfields⟩
  cases hview
  rcases hfields (by decide) .bottom with ⟨first, hfirst, _, hhalf, hrest⟩
  have hnine : first.height = 9 := hhalf.height
  rcases hrest (by omega) .top with ⟨second, hsecond, _, hhalf', hrest'⟩
  have hfour : second.height = 4 := by
    rw [hhalf'.height, hnine]
  rcases hrest' (by omega) .bottom with ⟨third, _, hthird, hhalf'', _⟩
  have hformat := hhalf.format
  have hformat' := hhalf'.format
  have hpitch := hhalf''.pitch .second
  have hpitch' := hhalf'.pitch .second
  rw [hformat'] at hpitch
  rw [hformat] at hpitch hpitch'
  rw [hpitch' (by decide), hhalf.pitch .second (by decide)] at hpitch
  exact ⟨_, _, first, second, third, himage, rfl, hfirst, hnine, hsecond, hfour, hthird,
    hhalf''.height.trans (hfour ▸ rfl), hpitch (by decide)⟩

/-- A fourth field may lie beyond the padding. -/
example : ((viewOf ⟨.i420, 1, 16, #v[16, 8, 8, 0], #v[16, 8, 8, 0], #v[0, 256, 320, 0],
    384⟩).derive (List.replicate 4 (.field .bottom))).run =
    .ok (.error (.fieldBeyondPlanes .bottom 1 2 .i420 (.shortPlane 1 0))) := rfl

end Image
end RawVideo

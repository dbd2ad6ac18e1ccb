import RawVideo.Proofs.View.Path

/-!
# Origins of derived samples

A step keeps the bytes of a row together and takes rows of the planes that it starts
from, so every sample of a derived view is a sample at another column and line of the
view that it was derived from.  Its column is visible there.  Its line is visible too,
unless a bottom field of halved chroma takes in the line that follows the last one.
-/

namespace RawVideo

theorem Field.line_eq (field : Field) (y : Nat) : field.line y = field.line 0 + 2 * y := by
  cases field with
  | top =>
      show 2 * y = 2 * 0 + 2 * y
      omega
  | bottom =>
      show 2 * y + 1 = 2 * 0 + 1 + 2 * y
      omega

/-- A line of a field is a line of the frame, or the one behind the last line of chroma. -/
theorem Format.line_of_half {format : Format} {c y height : Nat} (field : Field)
    (hy : y < format.lines c (height / 2)) :
    field.line y < format.lines c height ∨
      field = .bottom ∧ (format.shiftsOf c).2 = 1 ∧ height % 4 = 2 ∧
        field.line y = format.lines c height := by
  unfold Format.lines at hy ⊢
  rcases Nat.le_one_iff_eq_zero_or_eq_one.mp (format.shiftsOf_le_one c).right with hzero | hone
  · rw [hzero, shrunk_zero] at hy ⊢
    cases field with
    | top =>
        show 2 * y < height ∨ _
        omega
    | bottom =>
        show 2 * y + 1 < height ∨ _
        omega
  · rw [hone, shrunk_one] at hy ⊢
    cases field with
    | top =>
        show 2 * y < (height + 1) / 2 ∨ _
        omega
    | bottom =>
        show 2 * y + 1 < (height + 1) / 2 ∨ _ ∧ _ ∧ _ ∧ 2 * y + 1 = (height + 1) / 2
        by_cases hlast : 2 * y + 1 < (height + 1) / 2
        · exact Or.inl hlast
        · exact Or.inr ⟨rfl, rfl, by omega, by omega⟩

/-!
## Bytes of a row
-/

namespace View

variable {view derived : View} {comp : Component} {c x y : Nat}

/-- The address of a byte of a row of a plane. -/
def spot (view : View) (p : PlaneIndex) (y k : Nat) : Nat :=
  (view.planes.get p).start + y * (view.planes.get p).pitch + k

theorem address_eq_spot (view : View) (comp : Component) (x y : Nat) :
    view.address comp x y = view.spot comp.plane y (x * comp.stride + comp.offset) := by
  unfold address spot Component.position
  omega

theorem spot_add (view : View) (p : PlaneIndex) (y k i : Nat) :
    view.spot p y k + i = view.spot p y (k + i) :=
  Nat.add_assoc _ k i

theorem spot_of_crop {rect : Rect} (h : view.Ample)
    (hcrop : Attempt.Answers (view.crop rect) derived) {p : PlaneIndex}
    (hp : p ∈ view.format.planes) (y k : Nat) :
    derived.spot p y k =
      view.spot p (rowsBefore view.format rect p + y) (bytesBefore view.format rect p + k) := by
  unfold spot
  rw [planes_of_crop h hcrop hp, Nat.add_mul]
  dsimp only
  omega

theorem spot_of_field {field : Field} (hfield : Attempt.Answers (view.field field) derived)
    {p : PlaneIndex} (hp : p ∈ view.format.planes) (y k : Nat) :
    derived.spot p y k = view.spot p (field.line y) k := by
  have hstart := congrArg Span.start (span_of_field hfield hp).left
  have hpitch := congrArg Plane.pitch (planes_of_field hfield hp)
  dsimp only at hstart hpitch
  unfold spot
  rw [hstart, hpitch, field.line_eq y, Nat.add_mul, Nat.mul_left_comm, ← Nat.mul_assoc 2]
  omega

end View

/-!
## Steps
-/

namespace Step

/-- The column of a component that a column was before a step. -/
def column (format : Format) (c : Nat) : Step -> Nat -> Nat
  | .crop rect, x => (rect.x >>> (format.shiftsOf c).1) + x
  | .field _, x => x

/-- The line of a component that a line was before a step. -/
def line (format : Format) (c : Nat) : Step -> Nat -> Nat
  | .crop rect, y => (rect.y >>> (format.shiftsOf c).2) + y
  | .field f, y => f.line y

/-- The height after a step. -/
def height : Step -> Nat -> Nat
  | .crop rect, _ => rect.height
  | .field _, height => height / 2

/-- The bottom field of a half that leaves a row over takes in a line of chroma below. -/
def Overhangs (format : Format) (height : Nat) (step : Step) : Prop :=
  step = .field .bottom ∧ format.shifts.2 = 1 ∧ height % 4 = 2

instance (format : Format) (height : Nat) (step : Step) :
    Decidable (step.Overhangs format height) :=
  inferInstanceAs (Decidable (_ ∧ _ ∧ _))

end Step

namespace View

variable {view derived : View} {comp : Component} {step : Step} {path : List Step} {c x y : Nat}

theorem ample_of_step (h : view.Ample) (hstep : Attempt.Answers (view.step step) derived) :
    derived.Ample := by
  cases step with
  | crop rect => exact ample_of_crop h hstep
  | field field => exact (covered_of_field hstep).ample

theorem height_of_step (hstep : Attempt.Answers (view.step step) derived) :
    derived.height = step.height view.height := by
  cases step with
  | crop rect =>
      rcases answers_crop.mp hstep with ⟨_, planes, _, rfl⟩
      rfl
  | field field =>
      rcases answers_field.mp hstep with ⟨planes, _, _, _, rfl⟩
      rfl

/-- A step moves whole samples, and the bytes between them along with them. -/
theorem spot_of_step (h : view.Ample) (hstep : Attempt.Answers (view.step step) derived)
    (hcomp : view.format.component c = .ok comp) (x y k : Nat) :
    derived.spot comp.plane y (x * comp.stride + k) =
      view.spot comp.plane (step.line view.format c y)
        (step.column view.format c x * comp.stride + k) := by
  have hp := Format.plane_mem_planes hcomp
  cases step with
  | crop rect =>
      rcases answers_crop.mp hstep with ⟨hcheck, _⟩
      rcases checkRect_eq_ok hcheck with ⟨_, _, _, _, hgrid⟩
      rw [spot_of_crop h hstep hp, rowsBefore_eq hcomp, bytesBefore_eq hgrid hcomp,
        ← Nat.add_assoc, ← Nat.add_mul]
      rfl
  | field field => exact spot_of_field hstep hp y _

theorem column_lt_of_step (hstep : Attempt.Answers (view.step step) derived)
    (hcomp : view.format.component c = .ok comp) (hx : x < derived.columns c) :
    step.column view.format c x < view.columns c := by
  cases step with
  | crop rect =>
      rcases answers_crop.mp hstep with ⟨hcheck, planes, _, rfl⟩
      exact Nat.lt_of_lt_of_le (Nat.add_lt_add_left hx _) (rect_samples_within hcheck hcomp).left
  | field field =>
      rcases answers_field.mp hstep with ⟨planes, _, _, _, rfl⟩
      exact hx

theorem line_lt_of_step (hstep : Attempt.Answers (view.step step) derived)
    (hcomp : view.format.component c = .ok comp)
    (hclear : ¬ step.Overhangs view.format view.height) (hy : y < derived.lines c) :
    step.line view.format c y < view.lines c := by
  cases step with
  | crop rect =>
      rcases answers_crop.mp hstep with ⟨hcheck, planes, _, rfl⟩
      exact Nat.lt_of_lt_of_le (Nat.add_lt_add_left hy _)
        (rect_samples_within hcheck hcomp).right
  | field field =>
      rcases answers_field.mp hstep with ⟨planes, _, _, _, rfl⟩
      rcases Format.line_of_half field hy with hlt | ⟨rfl, hone, hrest, _⟩
      · exact hlt
      · rcases Format.shiftsOf_eq_zero_or hcomp with hzero | ⟨hshifts, _⟩
        · rw [hzero] at hone
          cases hone
        · rw [hshifts] at hone
          exact (hclear ⟨rfl, hone, hrest⟩).elim

/-!
## Paths
-/

/-- The column of a component that a column was before a path. -/
def originColumn (format : Format) (c : Nat) (path : List Step) (x : Nat) : Nat :=
  path.foldr (Step.column format c) x

/-- The line of a component that a line was before a path. -/
def originLine (format : Format) (c : Nat) (path : List Step) (y : Nat) : Nat :=
  path.foldr (Step.line format c) y

/-- No step of a path overhangs, from a height on. -/
def Clear (format : Format) : Nat -> List Step -> Prop
  | _, [] => True
  | height, step :: rest => ¬ step.Overhangs format height ∧ Clear format (step.height height) rest

instance decidableClear (format : Format) :
    forall (height : Nat) (path : List Step), Decidable (Clear format height path)
  | _, [] => .isTrue trivial
  | height, step :: rest =>
      have := decidableClear format (step.height height) rest
      inferInstanceAs (Decidable (_ ∧ _))

theorem answers_derive_single :
    Attempt.Answers (view.derive [step]) derived ↔ Attempt.Answers (view.step step) derived := by
  rw [derive_cons, Attempt.answers_bind]
  simp only [derive_nil, Attempt.answers_pure_iff, exists_eq_right]

theorem ample_of_derive (h : view.Ample)
    (hpath : Attempt.Answers (view.derive path) derived) :
    derived.Ample ∧ derived.Part view := by
  induction path generalizing view with
  | nil =>
      rw [derive_nil, Attempt.answers_pure_iff] at hpath
      subst hpath
      exact ⟨h, Part.refl view⟩
  | cons step rest ih =>
      rw [derive_cons, Attempt.answers_bind] at hpath
      rcases hpath with ⟨next, hstep, hrest⟩
      rcases ih (ample_of_step h hstep) hrest with ⟨hample, hpart⟩
      exact ⟨hample, hpart.trans (part_of_step h hstep)⟩

theorem covered_of_derive (h : view.Covered)
    (hpath : Attempt.Answers (view.derive path) derived) : derived.Covered := by
  induction path generalizing view with
  | nil =>
      rw [derive_nil, Attempt.answers_pure_iff] at hpath
      subst hpath
      exact h
  | cons step rest ih =>
      rw [derive_cons, Attempt.answers_bind] at hpath
      rcases hpath with ⟨next, hstep, hrest⟩
      exact ih (covered_of_step h hstep) hrest

theorem spot_of_derive (h : view.Ample)
    (hpath : Attempt.Answers (view.derive path) derived)
    (hcomp : view.format.component c = .ok comp) (x y k : Nat) :
    derived.spot comp.plane y (x * comp.stride + k) =
      view.spot comp.plane (originLine view.format c path y)
        (originColumn view.format c path x * comp.stride + k) := by
  induction path generalizing view with
  | nil =>
      rw [derive_nil, Attempt.answers_pure_iff] at hpath
      subst hpath
      rfl
  | cons step rest ih =>
      rw [derive_cons, Attempt.answers_bind] at hpath
      rcases hpath with ⟨next, hstep, hrest⟩
      have hformat := (part_of_step h hstep).format
      rw [ih (ample_of_step h hstep) hrest (hformat.symm ▸ hcomp), hformat,
        spot_of_step h hstep hcomp]
      rfl

theorem address_of_derive (h : view.Ample)
    (hpath : Attempt.Answers (view.derive path) derived)
    (hcomp : view.format.component c = .ok comp) (x y : Nat) :
    derived.address comp x y =
      view.address comp (originColumn view.format c path x)
        (originLine view.format c path y) := by
  rw [address_eq_spot, address_eq_spot, spot_of_derive h hpath hcomp]

theorem column_lt_of_derive (h : view.Ample)
    (hpath : Attempt.Answers (view.derive path) derived)
    (hcomp : view.format.component c = .ok comp) (hx : x < derived.columns c) :
    originColumn view.format c path x < view.columns c := by
  induction path generalizing view with
  | nil =>
      rw [derive_nil, Attempt.answers_pure_iff] at hpath
      subst hpath
      exact hx
  | cons step rest ih =>
      rw [derive_cons, Attempt.answers_bind] at hpath
      rcases hpath with ⟨next, hstep, hrest⟩
      have hformat := (part_of_step h hstep).format
      have hnext := ih (ample_of_step h hstep) hrest (hformat.symm ▸ hcomp)
      rw [hformat] at hnext
      exact column_lt_of_step hstep hcomp hnext

theorem line_lt_of_clear (h : view.Ample)
    (hpath : Attempt.Answers (view.derive path) derived)
    (hcomp : view.format.component c = .ok comp) (hclear : Clear view.format view.height path)
    (hy : y < derived.lines c) : originLine view.format c path y < view.lines c := by
  induction path generalizing view with
  | nil =>
      rw [derive_nil, Attempt.answers_pure_iff] at hpath
      subst hpath
      exact hy
  | cons step rest ih =>
      rw [derive_cons, Attempt.answers_bind] at hpath
      rcases hpath with ⟨next, hstep, hrest⟩
      rcases hclear with ⟨hfirst, hclear⟩
      have hformat := (part_of_step h hstep).format
      rw [← height_of_step hstep, ← hformat] at hclear
      have hnext := ih (ample_of_step h hstep) hrest (hformat.symm ▸ hcomp) hclear
      rw [hformat] at hnext
      exact line_lt_of_step hstep hcomp hfirst hnext

/-!
## Samples
-/

/-- A sample of a derived view is the one that it comes from, if that is visible. -/
theorem stored_of_derive (h : view.Ample)
    (hpath : Attempt.Answers (view.derive path) derived)
    (hcomp : view.format.component c = .ok comp) (hx : x < derived.columns c)
    (hy : y < derived.lines c) (hline : originLine view.format c path y < view.lines c)
    (memory : Memory) :
    derived.stored memory c x y =
      view.stored memory c (originColumn view.format c path x)
        (originLine view.format c path y) := by
  rcases ample_of_derive h hpath with ⟨hample, hpart⟩
  rw [hample.stored (hpart.format.symm ▸ hcomp) hx hy,
    h.stored hcomp (column_lt_of_derive h hpath hcomp hx) hline, address_of_derive h hpath hcomp]

end View
end RawVideo

import RawVideo.Proofs.View.Origin
import RawVideo.Proofs.View.Store
import RawVideo.View.InPlace

/-!
# Aliased samples

A derived view owns no bytes: each of its samples is read and written at the bytes of the
sample that it comes from.  Deriving in place answers the same views, and the rectangle
that takes in the whole picture gives the view back.
-/

namespace RawVideo

/-!
## Planes altered one by one
-/

theorem Format.planes_cases (format : Format) :
    format.planeCount = 1 ∧ format.planes = [.first] ∨
      format.planeCount = 2 ∧ format.planes = [.first, .second] ∨
      format.planeCount = 3 ∧ format.planes = [.first, .second, .third] ∨
      format.planeCount = 4 ∧ format.planes = [.first, .second, .third, .fourth] := by
  cases format <;> decide

namespace PerPlane

variable {α β : Type}

theorem ofFnM_get (values : PerPlane α) :
    ofFnM (fun p => (.ok (values.get p) : Checked α)) = .ok values :=
  congrArg Except.ok (ext_get (forall_plane rfl rfl rfl rfl))

theorem alter_bind {f : PlaneIndex -> α -> Checked α} {values : PerPlane α} {p : PlaneIndex}
    {k : PerPlane α -> Checked β} :
    (alter f values p >>= k) = f p (values.get p) >>= fun value => k (values.set p value) := by
  unfold alter
  cases f p (values.get p) <;> rfl

/-- Altering the planes of a format in turn is computing the values of all planes. -/
theorem foldlM_alter (format : Format) (f : PlaneIndex -> α -> Checked α)
    (values : PerPlane α) :
    format.planes.foldlM (alter f) values =
      ofFnM fun p => if p.val < format.planeCount then f p (values.get p)
        else .ok (values.get p) := by
  rcases values with ⟨⟨values⟩, hsize⟩
  rcases values with _ | ⟨v0, _ | ⟨v1, _ | ⟨v2, _ | ⟨v3, _ | _⟩⟩⟩⟩ <;> cases hsize
  rcases format.planes_cases with h | h | h | h
  all_goals
    rw [h.left, h.right]
    simp only [List.foldlM_cons, List.foldlM_nil, alter_bind]
    -- One value is computed for each plane of the format, in the same order on both sides.
    repeat refine bind_congr fun value => ?_
    rfl

end PerPlane

namespace View

variable {view derived : View} {comp : Component} {path : List Step} {c x y : Nat}

/-!
## In place
-/

theorem withoutRow_eq (plane : Plane) : withoutRow plane = fieldSpan plane .bottom := by
  show withoutRow plane = if plane.pitch ≤ plane.length then _ else Span.empty
  unfold withoutRow
  by_cases hle : plane.pitch ≤ plane.length
  · rw [if_pos hle, Span.suffix_of_le hle]
  · rw [if_neg hle, show plane.suffix plane.pitch = .error .outOfRange from if_neg hle]

theorem thinPlane_eq (view : View) (field : Field) (p : PlaneIndex) :
    (if p.val < view.format.planeCount then thinPlane field p (view.planes.get p)
      else .ok (view.planes.get p)) = view.fieldPlane field p := by
  cases field with
  | top => rfl
  | bottom =>
      unfold thinPlane
      rw [withoutRow_eq]
      rfl

theorem cropInPlace_eq (view : View) (rect : Rect) :
    view.cropInPlace rect = view.crop rect := by
  unfold cropInPlace
  simp only [PerPlane.foldlM_alter]
  rfl

theorem fieldInPlace_eq (view : View) (field : Field) :
    view.fieldInPlace field = view.field field := by
  unfold fieldInPlace
  simp only [PerPlane.foldlM_alter, thinPlane_eq]
  rfl

theorem stepInPlace_eq (view : View) (step : Step) : view.stepInPlace step = view.step step := by
  cases step with
  | crop rect => exact cropInPlace_eq view rect
  | field field => exact fieldInPlace_eq view field

theorem deriveInPlace_eq (view : View) (path : List Step) :
    view.deriveInPlace path = view.derive path := by
  unfold deriveInPlace derive
  rw [funext fun view => funext (stepInPlace_eq view)]

/-!
## The whole picture
-/

theorem checkRect_whole (h : view.Covered) :
    view.checkRect ⟨0, 0, view.width, view.height⟩ = .ok () := by
  have hwidth := Nat.ne_of_gt h.width_pos
  have hheight := Nat.ne_of_gt h.height_pos
  have hgrid : view.format.onGrid 0 0 = true := by
    unfold Format.onGrid
    rw [Nat.zero_mod, Nat.zero_mod]
    exact Bool.or_true _
  unfold checkRect
  rw [if_neg (not_or.mpr ⟨hwidth, hheight⟩), hgrid]
  dsimp only
  rw [Nat.zero_add, Nat.zero_add, if_neg (not_or.mpr ⟨Nat.lt_irrefl _, Nat.lt_irrefl _⟩)]
  rfl

theorem rectOffset_origin (view : View) (strides : PerPlane Nat) (width height : Nat)
    (p : PlaneIndex) : view.rectOffset strides ⟨0, 0, width, height⟩ p = 0 := by
  unfold rectOffset
  dsimp only
  rw [Nat.zero_mul, Nat.zero_mul, Nat.zero_shiftRight, Nat.zero_shiftRight]

theorem answers_crop_whole (h : view.Covered) :
    Attempt.Answers (view.crop ⟨0, 0, view.width, view.height⟩) view := by
  refine answers_crop.mpr ⟨checkRect_whole h, view.planes, ?_, rfl⟩
  rw [← PerPlane.ofFnM_get view.planes]
  refine congrArg PerPlane.ofFnM (funext fun p => ?_)
  by_cases hp : p ∈ view.format.planes
  · rw [cropPlane_eq hp (by rw [rectOffset_origin]; exact Nat.zero_le _), rectOffset_origin]
    rfl
  · unfold cropPlane
    exact if_neg fun hlt => hp (Format.mem_planes.mpr hlt)

/-!
## Samples of derived views
-/

/-- The samples of a derived view lie where those lie that they come from along a path. -/
structure Aliases (derived view : View) (path : List Step) : Prop where
  format : derived.format = view.format
  samples : forall c x y, derived.Visible c x y ->
    exists comp span, view.format.component c = .ok comp ∧
      view.format.componentShifts c = .ok (view.format.shiftsOf c) ∧
      derived.sampleSpan comp x y = .ok span ∧
      view.sampleSpan comp (originColumn view.format c path x)
          (originLine view.format c path y) = .ok span ∧
      forall memory,
        derived.sample memory c x y =
            view.sample memory c (originColumn view.format c path x)
              (originLine view.format c path y) ∧
          forall value, exists next, derived.put c x y value memory = .ok next ∧
            view.put c (originColumn view.format c path x)
                (originLine view.format c path y) value memory = .ok next ∧
              next.size = memory.size ∧
                forall address, ¬ span.Holds address -> next.byte address = memory.byte address

/-- The span of a sample lies in the plane of the base, even on a line that it does not show. -/
theorem sampleSpan_of_derive (h : view.Ample)
    (hpath : Attempt.Answers (view.derive path) derived)
    (hcomp : view.format.component c = .ok comp) (hx : x < derived.columns c)
    (hy : y < derived.lines c) :
    derived.sampleSpan comp x y = .ok ⟨derived.address comp x y, comp.bytes⟩ ∧
      view.sampleSpan comp (originColumn view.format c path x)
        (originLine view.format c path y) = .ok ⟨derived.address comp x y, comp.bytes⟩ := by
  rcases ample_of_derive h hpath with ⟨hample, hpart⟩
  have hcomp' : derived.format.component c = .ok comp := hpart.format.symm ▸ hcomp
  have haddress := address_of_derive h hpath hcomp x y
  refine ⟨hample.sampleSpan hcomp' hx hy, ?_⟩
  have hlast := hample.position_le hcomp' hx hy
  have hstop := hpart.stop comp.plane (Format.plane_mem_planes hcomp)
  rw [haddress]
  apply Span.sub_of_le
  unfold address at haddress
  unfold Span.stop at hstop
  omega

theorem byte_of_put {span : Span} {value : Nat} {memory next : Memory}
    (hcomp : view.format.component c = .ok comp) (hspan : view.sampleSpan comp x y = .ok span)
    (hput : view.put c x y value memory = .ok next) :
    next.size = memory.size ∧
      forall address, ¬ span.Holds address -> next.byte address = memory.byte address := by
  rw [put_eq hcomp hspan] at hput
  cases hput
  refine ⟨Memory.size_write _ _ _, fun address houtside => ?_⟩
  rw [Memory.byte_write, Component.length_encoded, ← Span.length_of_sub hspan]
  exact if_neg fun hin => houtside ⟨hin.left, hin.right.left⟩

theorem sample_eq_of_span {other : View} {x' y' : Nat} {span : Span}
    (hformat : derived.format = other.format) (hcomp : other.format.component c = .ok comp)
    (hspan : derived.sampleSpan comp x y = .ok span)
    (hspan' : other.sampleSpan comp x' y' = .ok span) (memory : Memory) :
    derived.sample memory c x y = other.sample memory c x' y' := by
  unfold sample
  rw [hformat, hcomp, Checked.ok_bind, Checked.ok_bind, hspan, hspan']

theorem Covered.aliases (h : view.Covered)
    (hpath : Attempt.Answers (view.derive path) derived) : derived.Aliases view path := by
  have hformat := (ample_of_derive h.ample hpath).right.format
  refine ⟨hformat, fun c x y hvisible => ?_⟩
  rcases (covered_of_derive h hpath).visible_iff.mp hvisible with ⟨⟨comp, hcomp'⟩, hx, hy⟩
  have hcomp : view.format.component c = .ok comp := hformat ▸ hcomp'
  rcases sampleSpan_of_derive h.ample hpath hcomp hx hy with ⟨hspan, hspan'⟩
  refine ⟨comp, _, hcomp, Format.componentShifts_eq hcomp, hspan, hspan', fun memory => ?_⟩
  refine ⟨sample_eq_of_span hformat hcomp hspan hspan' memory, fun value => ?_⟩
  have hput := put_eq hcomp' hspan value memory
  refine ⟨_, hput, put_eq hcomp hspan' value memory, ?_⟩
  exact byte_of_put hcomp' hspan hput

/--
Every sample of a view derived from a covered one is read and written at the bytes of the
sample of the base that it comes from, and nowhere else.  Deriving in place answers the same
views, and the rectangle of the whole picture is the view itself.
-/
theorem derived_views_alias_base (view : View) (h : view.Covered) :
    (forall path, view.deriveInPlace path = view.derive path) ∧
      (forall path derived, Attempt.Answers (view.derive path) derived ->
        derived.Aliases view path) ∧
      Attempt.Answers (view.derive [.crop ⟨0, 0, view.width, view.height⟩]) view := by
  refine ⟨deriveInPlace_eq view, ?_, ?_⟩
  · intro path derived hpath
    exact h.aliases hpath
  · exact answers_derive_single.mpr (answers_crop_whole h)

/-- A line of chroma that a bottom field takes from behind the picture. -/
theorem derived_views_alias_base_i420 :
    exists base derived, Attempt.Answers (ofPlanes .i420 4 6 [24, 8, 8] [4, 2, 2]) base ∧
      Attempt.Answers (base.deriveInPlace [.crop ⟨2, 0, 2, 6⟩, .field .bottom]) derived ∧
        derived.sampleSpan ⟨.u, 1, 0, 1, 8⟩ 0 1 = .ok ⟨31, 1⟩ ∧
          base.sampleSpan ⟨.u, 1, 0, 1, 8⟩ 1 3 = .ok ⟨31, 1⟩ ∧
            Attempt.Answers (base.derive [.crop ⟨0, 0, 4, 6⟩]) base := by
  have hbase : Attempt.Answers (ofPlanes .i420 4 6 [24, 8, 8] [4, 2, 2])
      ⟨.i420, 4, 6, #v[⟨⟨0, 24⟩, 4⟩, ⟨⟨24, 8⟩, 2⟩, ⟨⟨32, 8⟩, 2⟩, Plane.none]⟩ := rfl
  have hpath : Attempt.Answers
      (derive ⟨.i420, 4, 6, #v[⟨⟨0, 24⟩, 4⟩, ⟨⟨24, 8⟩, 2⟩, ⟨⟨32, 8⟩, 2⟩, Plane.none]⟩
        [.crop ⟨2, 0, 2, 6⟩, .field .bottom])
      ⟨.i420, 2, 3, #v[⟨⟨6, 18⟩, 8⟩, ⟨⟨27, 5⟩, 4⟩, ⟨⟨35, 5⟩, 4⟩, Plane.none]⟩ := rfl
  have hcovered := covered_of_ofPlanes hbase
  rcases derived_views_alias_base _ hcovered with ⟨hinPlace, haliases, hwhole⟩
  have hcomp : Format.i420.component 1 = .ok ⟨.u, 1, 0, 1, 8⟩ := rfl
  have hvisible := (covered_of_derive hcovered hpath).visible_iff.mpr
    (⟨⟨_, hcomp⟩, by decide, by decide⟩ : _ ∧ 0 < columns _ 1 ∧ 1 < lines _ 1)
  rcases (haliases _ _ hpath).samples 1 0 1 hvisible with
    ⟨comp, span, hsecond, _, hspan, hspan', _⟩
  cases hsecond
  cases hspan
  exact ⟨_, _, hbase, hinPlace _ ▸ hpath, rfl, hspan', hwhole⟩

end View
end RawVideo

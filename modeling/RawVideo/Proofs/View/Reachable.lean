import RawVideo.Proofs.Image.Tiled
import RawVideo.Proofs.View.Aliased

/-!
# Reachable views

Allocated images and accepted planes give covered views, to read and to write through alike,
and deriving keeps them covered, in place or not.  Every access to the samples, rows and
planes of a view at the end of a path stays inside its planes.
-/

namespace RawVideo

/-- A span inside another one. -/
structure Span.Inside (inner outer : Span) : Prop where
  start : outer.start ≤ inner.start
  stop : inner.stop ≤ outer.stop

theorem Span.inside_of_sub {span inner : Span} {offset count : Nat}
    (h : span.sub offset count = .ok inner) : inner.Inside span :=
  ⟨(within_of_sub h).left, (within_of_sub h).right⟩

namespace View

variable {view : View}

/-!
## Safe accesses
-/

/-- Every visible access answers, with addresses inside the plane that it belongs to. -/
structure Safe (view : View) : Prop where
  sizes : forall c, c < view.format.components.length ->
    exists w h, view.componentSize c = .ok (w, h)
  samples : forall c x y, view.Visible c x y ->
    exists comp span, view.format.component c = .ok comp ∧
      view.sampleSpan comp x y = .ok span ∧
      span.Inside (view.planes.get comp.plane).toSpan ∧
      forall memory value, (exists sample, view.sample memory c x y = .ok sample) ∧
        exists next, view.put c x y value memory = .ok next
  rows : forall c x y, view.Visible c x y ->
    exists comp span, view.format.component c = .ok comp ∧ view.rowSpan c y = .ok span ∧
      span.Inside (view.planes.get comp.plane).toSpan
  planes : forall p, p ∈ view.format.planes ->
    exists extent, Conversion.visibleExtent view.format view.width view.height p = .ok extent ∧
      forall y, y < extent.rows ->
        exists span,
          (view.planes.get p).sub (y * (view.planes.get p).pitch) extent.row = .ok span ∧
            span.Inside (view.planes.get p).toSpan

theorem Covered.safe (h : view.Covered) : view.Safe := by
  constructor
  · intro c hc
    rcases Format.exists_component hc with ⟨comp, hcomp⟩
    exact ⟨_, _, h.componentSize hcomp⟩
  · intro c x y hvisible
    rcases h.visible_iff.mp hvisible with ⟨⟨comp, hcomp⟩, hx, hy⟩
    have hspan := h.sampleSpan hcomp hx hy
    refine ⟨comp, _, hcomp, hspan, Span.inside_of_sub hspan, fun memory value => ?_⟩
    refine ⟨⟨_, h.sample hcomp hx hy memory⟩, ?_⟩
    unfold put
    rw [hcomp, Checked.ok_bind, hspan]
    exact ⟨_, rfl⟩
  · intro c x y hvisible
    rcases h.visible_iff.mp hvisible with ⟨⟨comp, hcomp⟩, _, hy⟩
    have hspan := h.rowSpan hcomp hy
    have hspan' := hspan
    unfold View.rowSpan at hspan'
    rw [hcomp, Checked.ok_bind, h.componentSize hcomp, Checked.ok_bind] at hspan'
    exact ⟨comp, _, hcomp, hspan, Span.inside_of_sub hspan'⟩
  · intro p hp
    rcases h.planes with ⟨extents, hextents, hfits⟩
    refine ⟨_, visibleExtent_eq h.width_pos hextents p, fun y hy => ?_⟩
    have hlast := sample_le_rows (view.planes.get p).pitch hy
      (Nat.le_refl (extents.get p).row)
    have hspan := Span.sub_of_le (Nat.le_trans hlast (hfits p hp).right)
    exact ⟨_, hspan, Span.inside_of_sub hspan⟩

/-- Sizes and pitches with room for one more row in a signed machine word. -/
structure Roomy (view : View) : Prop where
  width : view.width + 2 < UInt32.size
  height : view.height + 2 < UInt32.size
  pitch : forall p, p ∈ view.format.planes ->
    (view.height + 1) * (view.planes.get p).pitch < UInt64.size / 2

theorem Roomy.small (h : view.Roomy) : view.Small := by
  refine ⟨h.width, h.height, fun p hp => ?_⟩
  have hpitch := h.pitch p hp
  rw [Nat.succ_mul] at hpitch
  omega

/-!
## Images, planes and paths
-/

/--
Allocated images and accepted planes have covered views, and the view that an image is
written through is the one that it is read through.  A path from a covered view never faults,
and it ends alike in place: in an error, or in a covered view on parts of the same planes, all
of whose accesses stay inside them.
-/
theorem reachable_views_safe :
    (forall format width height image, width + 2 < UInt32.size -> height + 2 < UInt32.size ->
      Image.allocate format width height = .ok image ->
        exists view, image.view = .ok view ∧ image.writableView = .ok view ∧
          view.format = format ∧ view.width = width ∧ view.height = height ∧
            view.Covered ∧ view.Writable image.memory.size) ∧
    (forall format width height lengths pitches view,
      Attempt.Answers (ofPlanes format width height lengths pitches) view ->
        view.Covered ∧ view.Writable (behind 0 (lengths.zip pitches))) ∧
    forall view : View, view.Covered -> view.Roomy ->
      forall path, Attempt.Settles (view.derive path) ∧
        view.deriveInPlace path = view.derive path ∧
        forall derived, Attempt.Answers (view.derive path) derived ->
          derived.Covered ∧ derived.Part view ∧ derived.Safe ∧
            forall step, Attempt.Settles (derived.step step) ∧
              derived.stepInPlace step = derived.step step := by
  refine ⟨?_, ?_, ?_⟩
  · intro format width height image hwidth hheight himage
    rcases Image.allocate_eq_ok himage with ⟨layout, hlayout, _, rfl⟩
    rcases Image.viewOf_of_compute hlayout with ⟨hformat, hw, hh⟩
    have hwritable : Image.writableView ⟨some layout, Memory.zeros layout.size⟩ =
        .ok (Image.viewOf layout) :=
      Image.writableView_eq hlayout rfl (Memory.size_zeros layout.size)
    refine ⟨Image.viewOf layout, rfl, hwritable, hformat, hw, hh,
      Image.covered_viewOf hlayout hwidth hheight, ?_⟩
    rw [Memory.size_zeros]
    exact Image.writable_viewOf hlayout
  · intro format width height lengths pitches view hview
    exact ⟨covered_of_ofPlanes hview, writable_of_ofPlanes hview (Nat.le_refl _)⟩
  · intro view hcovered hroomy path
    refine ⟨settles_derive hcovered hroomy.small path, deriveInPlace_eq view path,
      fun derived hderived => ?_⟩
    rcases derive_keeps hcovered hroomy.small hderived with ⟨hcovered', hsmall', hpart⟩
    exact ⟨hcovered', hpart, hcovered'.safe, fun step =>
      ⟨settles_step hcovered' hsmall' step, stepInPlace_eq derived step⟩⟩

/-- An image to write to, and a bottom field of a crop of external planes, taken in place. -/
theorem reachable_views_safe_crop_field :
    (exists image view, Image.allocate .yuy2 3 3 = .ok image ∧ image.view = .ok view ∧
      image.writableView = .ok view ∧ view.Covered ∧ view.Writable image.memory.size) ∧
    exists base derived,
      Attempt.Answers (ofPlanes .i420 6 4 [24, 6, 6] [6, 3, 3]) base ∧ base.Roomy ∧
        Attempt.Answers (base.derive [.crop ⟨2, 0, 4, 4⟩, .field .bottom]) derived ∧
          Attempt.Answers (base.deriveInPlace [.crop ⟨2, 0, 4, 4⟩, .field .bottom]) derived ∧
            derived.Covered ∧ derived.Safe := by
  constructor
  · have himage : Image.allocate .yuy2 3 3 =
        .ok ⟨some ⟨.yuy2, 3, 3, #v[32, 0, 0, 0], #v[16, 0, 0, 0], #v[0, 0, 0, 0], 512⟩,
          Memory.zeros 512⟩ := rfl
    rcases reachable_views_safe.left .yuy2 3 3 _ (by decide) (by decide) himage with
      ⟨view, hview, hwritten, _, _, _, hcovered, hwritable⟩
    exact ⟨_, view, himage, hview, hwritten, hcovered, hwritable⟩
  · have hbase : Attempt.Answers (ofPlanes .i420 6 4 [24, 6, 6] [6, 3, 3])
        ⟨.i420, 6, 4, #v[⟨⟨0, 24⟩, 6⟩, ⟨⟨24, 6⟩, 3⟩, ⟨⟨30, 6⟩, 3⟩, Plane.none]⟩ := rfl
    have hderived : Attempt.Answers
        (derive ⟨.i420, 6, 4, #v[⟨⟨0, 24⟩, 6⟩, ⟨⟨24, 6⟩, 3⟩, ⟨⟨30, 6⟩, 3⟩, Plane.none]⟩
          [.crop ⟨2, 0, 4, 4⟩, .field .bottom])
        ⟨.i420, 4, 2, #v[⟨⟨8, 16⟩, 12⟩, ⟨⟨28, 2⟩, 6⟩, ⟨⟨34, 2⟩, 6⟩, Plane.none]⟩ := rfl
    have hroomy : Roomy
        ⟨.i420, 6, 4, #v[⟨⟨0, 24⟩, 6⟩, ⟨⟨24, 6⟩, 3⟩, ⟨⟨30, 6⟩, 3⟩, Plane.none]⟩ :=
      ⟨by decide, by decide, by decide⟩
    have hcovered := (reachable_views_safe.right.left _ _ _ _ _ _ hbase).left
    rcases reachable_views_safe.right.right _ hcovered hroomy
      [.crop ⟨2, 0, 4, 4⟩, .field .bottom] with ⟨_, hsame, hkept⟩
    rcases hkept _ hderived with ⟨hcovered', _, hsafe, _⟩
    exact ⟨_, _, hbase, hroomy, hderived, hsame.symm ▸ hderived, hcovered', hsafe⟩

end View
end RawVideo

import RawVideo.Proofs.Digest.Frames
import RawVideo.Proofs.View.Origin

/-!
# Digests of frames from their fields

Every line of a frame is a line of one of its fields, at half its number.  It may lie
below the field, as the last line of a frame of odd height does, but its bytes are in the
planes of the field, which end where those of the frame do.  So a frame whose fields can
be taken is digested as well by feeding its lines from the two fields in turn.
-/

namespace RawVideo

variable {picture : Picture} {view part top bottom : View} {comp : Component}
variable {field : Field} {c k y : Nat}

/-!
## Lines of fields
-/

namespace View

/-- The one of two fields that has a line of the frame. -/
def fieldAt (top bottom : View) (y : Nat) : View :=
  if y % 2 = 0 then top else bottom

theorem exists_field_at (htop : Attempt.Answers (view.field .top) top)
    (hbottom : Attempt.Answers (view.field .bottom) bottom) (y : Nat) :
    exists field, Attempt.Answers (view.field field) (fieldAt top bottom y) ∧
      field.line (y / 2) = y := by
  unfold fieldAt
  split
  next heven =>
    refine ⟨.top, htop, ?_⟩
    show 2 * (y / 2) = y
    omega
  next hodd =>
    refine ⟨.bottom, hbottom, ?_⟩
    show 2 * (y / 2) + 1 = y
    omega

/-- A field has the components of the frame, with as many samples in a row. -/
theorem component_of_field (hfield : Attempt.Answers (view.field field) part)
    (hcomp : view.format.component c = .ok comp) :
    part.format.component c = .ok comp ∧
      part.componentSize c = .ok (view.columns c, part.lines c) := by
  have hcomp' : part.format.component c = .ok comp := by
    rw [format_of_field hfield]
    exact hcomp
  have hsize := (covered_of_field hfield).componentSize hcomp'
  rw [columns_of_field hfield] at hsize
  exact ⟨hcomp', hsize⟩

/-- A line of a frame has the same bytes in its field, above or below the field's last line. -/
theorem rowSpan_of_field (h : view.Covered) (hfield : Attempt.Answers (view.field field) part)
    (hcomp : view.format.component c = .ok comp) (hk : field.line k < view.lines c) :
    part.rowSpan c k = view.rowSpan c (field.line k) := by
  have hp := Format.plane_mem_planes hcomp
  rcases component_of_field hfield hcomp with ⟨hcomp', hsize⟩
  have hspan := span_of_field hfield hp
  have hlength := congrArg Span.length hspan.left
  have hpitch := congrArg Plane.pitch (planes_of_field hfield hp)
  dsimp only at hlength hpitch
  have hrow := h.ample.row_le_length hcomp hk
  rw [rowSpan_of_le hcomp' hsize, h.rowSpan hcomp hk, address_eq_spot, address_eq_spot,
    spot_of_field hfield hp]
  -- The planes of the field lack the bytes in front of its first line, and none at the end.
  unfold Component.position at hrow ⊢
  rw [field.line_eq k, Nat.add_mul, Nat.mul_assoc] at hrow
  rw [hlength, hpitch, Nat.mul_left_comm]
  omega

end View

/-!
## Feeding
-/

namespace Context

theorem updateRow_of_field (h : view.Covered) (hfield : Attempt.Answers (view.field field) part)
    (hcomp : view.format.component c = .ok comp) (hk : field.line k < view.lines c)
    (memory : Memory) (context : Context) :
    context.updateRow ⟨part, memory⟩ c k = context.updateRow ⟨view, memory⟩ c (field.line k) := by
  rcases View.component_of_field hfield hcomp with ⟨hcomp', hsize⟩
  unfold updateRow Picture.format
  dsimp only
  rw [hcomp, hcomp', Checked.ok_bind, Checked.ok_bind, hsize, h.componentSize hcomp,
    Checked.ok_bind, Checked.ok_bind, View.rowSpan_of_field h hfield hcomp hk]

/-- Feed the lines of a component of a frame, each one from the field that it lies on. -/
def weaveComponent (picture : Picture) (top bottom : View) (context : Context) (c : Nat) :
    Checked Context := do
  let (_, h) <- picture.view.componentSize c
  (List.range h).foldlM (fun context y =>
    context.updateRow ⟨View.fieldAt top bottom y, picture.memory⟩ c (y / 2)) context

/-- Digest a frame with chroma from its two fields. -/
def weave (picture : Picture) (top bottom : View) (context : Context) : Checked Context := do
  let all <- [0, 1, 2].foldlM (weaveComponent picture top bottom) context
  return all.finalize

theorem weaveComponent_eq (h : picture.view.Covered)
    (htop : Attempt.Answers (picture.view.field .top) top)
    (hbottom : Attempt.Answers (picture.view.field .bottom) bottom)
    (hcomp : picture.view.format.component c = .ok comp) (context : Context) :
    weaveComponent picture top bottom context c =
      .ok (context.update (picture.view.componentSamples picture.memory comp c)) := by
  unfold weaveComponent
  rw [h.componentSize hcomp, Checked.ok_bind]
  refine foldlM_update (fun context y hy => ?_) context
  have hy' : y < picture.view.lines c := List.mem_range.mp hy
  rcases View.exists_field_at htop hbottom y with ⟨field, hfield, hline⟩
  rw [updateRow_of_field h hfield hcomp (hline.symm ▸ hy'), hline]
  exact updateRow_eq h.ample hcomp (h.componentSize hcomp) hy' context

theorem Digestible.weave (h : Digestible picture)
    (htop : Attempt.Answers (picture.view.field .top) top)
    (hbottom : Attempt.Answers (picture.view.field .bottom) bottom) :
    exists bytes, picture.canonical = .ok bytes ∧
      forall context, weave picture top bottom context = .ok (context.update bytes).finalize := by
  rcases h.foldlM_components with ⟨bytes, hbytes, hfed⟩
  refine ⟨bytes, hbytes, fun context => ?_⟩
  unfold Context.weave
  rw [hfed _ (fun c comp hcomp => weaveComponent_eq h.covered htop hbottom hcomp) context]
  rfl

/--
The lines of a covered frame have the same bytes in its two fields, those below the last
line of a field included.  Feeding them from the fields to a new context gives the digest
of the frame.
-/
theorem fields_weave_the_frame (picture : Picture) (top bottom : View) (h : Digestible picture)
    (htop : Attempt.Answers (picture.view.field .top) top)
    (hbottom : Attempt.Answers (picture.view.field .bottom) bottom) :
    (forall c, c < picture.format.components.length ->
      exists width height, picture.view.componentSize c = .ok (width, height) ∧
        forall y, y < height -> exists span,
          (View.fieldAt top bottom y).rowSpan c (y / 2) = .ok span ∧
            picture.view.rowSpan c y = .ok span) ∧
    forall algorithm kernel, forall context : Context, context.algorithm = algorithm ->
      exists done done' : Context,
        weave picture top bottom (new algorithm kernel) = .ok done ∧
          Attempt.Answers (context.digestFrame picture) done' ∧ done.value = done'.value := by
  refine ⟨fun c hc => ?_, fun algorithm kernel context halgorithm => ?_⟩
  · rcases Format.exists_component hc with ⟨comp, hcomp⟩
    refine ⟨_, _, h.covered.componentSize hcomp, fun y hy => ?_⟩
    rcases View.exists_field_at htop hbottom y with ⟨field, hfield, hline⟩
    have hspan := View.rowSpan_of_field h.covered hfield hcomp (hline.symm ▸ hy)
    rw [hline] at hspan
    have hframe := h.covered.rowSpan hcomp hy
    exact ⟨_, hspan.trans hframe, hframe⟩
  · rcases h.digestFrame with ⟨bytes, hbytes, hdigest⟩
    rcases h.weave htop hbottom with ⟨bytes', hbytes', hwoven⟩
    rw [hbytes] at hbytes'
    cases hbytes'
    refine ⟨_, _, hwoven (new algorithm kernel), hdigest context, ?_⟩
    rw [← restart_new, value_digest, value_digest, algorithm_new, halgorithm]

/--
Three rows, the last of which lies below its field, and two rows over chroma planes that
are long enough for a row of the bottom field.
-/
theorem fields_weave_the_frame_i420 :
    (exists view top bottom : View,
      Attempt.Answers (View.ofPlanes .i420 2 3 [6, 2, 2] [2, 1, 1]) view ∧
      Attempt.Answers (view.field .top) top ∧ Attempt.Answers (view.field .bottom) bottom ∧
      top.height = 1 ∧ top.rowSpan 0 1 = view.rowSpan 0 2 ∧
      exists done done',
        weave ⟨view, #[1, 2, 3, 4, 5, 6, 7, 8, 9, 10]⟩ top bottom (new .md5 .ssse3) =
            .ok done ∧
          Attempt.Answers (((new .md5 .scalar).update [9]).digestFrame
            ⟨view, #[1, 2, 3, 4, 5, 6, 7, 8, 9, 10]⟩) done' ∧
          done.value = done'.value) ∧
    exists view top bottom : View,
      Attempt.Answers (View.ofPlanes .i420 2 2 [4, 2, 2] [2, 1, 1]) view ∧
      Attempt.Answers (view.field .top) top ∧ Attempt.Answers (view.field .bottom) bottom ∧
      view.componentSize 1 = .ok (1, 1) ∧ bottom.componentSize 1 = .ok (1, 1) ∧
      exists done done',
        weave ⟨view, #[1, 2, 3, 4, 5, 6, 7, 8]⟩ top bottom (new .adler32 .chunked) = .ok done ∧
          Attempt.Answers ((new .adler32 .ssse3).finalize.digestFrame
            ⟨view, #[1, 2, 3, 4, 5, 6, 7, 8]⟩) done' ∧
          done.value = done'.value := by
  have hodd : Attempt.Answers (View.ofPlanes .i420 2 3 [6, 2, 2] [2, 1, 1])
      ⟨.i420, 2, 3, #v[⟨⟨0, 6⟩, 2⟩, ⟨⟨6, 2⟩, 1⟩, ⟨⟨8, 2⟩, 1⟩, Plane.none]⟩ := rfl
  have heven : Attempt.Answers (View.ofPlanes .i420 2 2 [4, 2, 2] [2, 1, 1])
      ⟨.i420, 2, 2, #v[⟨⟨0, 4⟩, 2⟩, ⟨⟨4, 2⟩, 1⟩, ⟨⟨6, 2⟩, 1⟩, Plane.none]⟩ := rfl
  have hdigestible : Digestible ⟨_, #[1, 2, 3, 4, 5, 6, 7, 8, 9, 10]⟩ :=
    ⟨View.covered_of_ofPlanes hodd, rfl, by decide⟩
  have hdigestible' : Digestible ⟨_, #[1, 2, 3, 4, 5, 6, 7, 8]⟩ :=
    ⟨View.covered_of_ofPlanes heven, rfl, by decide⟩
  refine ⟨⟨_, _, _, hodd, rfl, rfl, rfl, ?_, ?_⟩, _, _, _, heven, rfl, rfl, rfl, rfl, ?_⟩
  · rcases (fields_weave_the_frame _ _ _ hdigestible rfl rfl).left 0 (by decide) with
      ⟨_, _, hsize, hrows⟩
    cases hsize
    rcases hrows 2 (by decide) with ⟨span, hpart, hframe⟩
    exact hpart.trans hframe.symm
  · exact (fields_weave_the_frame _ _ _ hdigestible rfl rfl).right .md5 .ssse3 _ rfl
  · exact (fields_weave_the_frame _ _ _ hdigestible' rfl rfl).right .adler32 .chunked _ rfl

end Context
end RawVideo

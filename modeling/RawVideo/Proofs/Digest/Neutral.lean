import RawVideo.Proofs.Digest.Frames

/-!
# Digests of gray frames

A frame of luma alone has the digest of a 4:2:0 frame with the same luma whose chroma is
neutral everywhere.  The made-up chroma comes as so many rows of two planes, the chroma of
a picture sample by sample, but both are the same byte over and over, and the sizes that
they are computed from round the same way.
-/

namespace RawVideo

variable {picture : Picture} {view : View} {memory : Memory} {comp : Component}
variable {c : Nat} {value : Nat -> Nat -> Nat}

/-!
## Samples of eight bits
-/

namespace View

/-- Samples of eight bits are stored as their values. -/
theorem componentSamples_of_values (h : view.Covered)
    (hcomp : view.format.component c = .ok comp) (hdepth : comp.depth = 8)
    (hvalue : forall x y, x < view.columns c -> y < view.lines c ->
      view.sample memory c x y = .ok (value x y)) :
    view.componentSamples memory comp c =
      (List.range (view.lines c)).flatMap fun y =>
        (List.range (view.columns c)).map fun x => UInt8.ofNat (value x y) := by
  unfold componentSamples rowSamples
  refine List.flatMap_congr fun y hy => ?_
  rw [List.map_eq_flatMap]
  refine List.flatMap_congr fun x hx => ?_
  rw [List.mem_range] at hx hy
  have hsample := hvalue x y hx hy
  rw [h.sample hcomp hx hy] at hsample
  rw [Component.bytes_of_depth_eight hdepth] at hsample ⊢
  rw [Component.levels_of_depth_eight hdepth] at hsample
  injection hsample with hsample
  change ((memory.byte _).toNat + 256 * 0) % 256 = _ at hsample
  rw [Nat.add_zero, Nat.mod_eq_of_lt (UInt8.toNat_lt _)] at hsample
  show [memory.byte _] = _
  rw [← hsample, UInt8.ofNat_toNat]

theorem componentSamples_of_constant {n : Nat} (h : view.Covered)
    (hcomp : view.format.component c = .ok comp) (hdepth : comp.depth = 8)
    (hvalue : forall x y, x < view.columns c -> y < view.lines c ->
      view.sample memory c x y = .ok n) :
    view.componentSamples memory comp c =
      List.replicate (view.lines c * view.columns c) (UInt8.ofNat n) := by
  rw [componentSamples_of_values h hcomp hdepth hvalue]
  simp only [List.map_const', List.length_range, List.flatMap_def, List.flatten_replicate_replicate]

end View

/-!
## Neutral chroma
-/

namespace Format

/-- Three components of eight bits, with chroma halved both ways. -/
structure Subsampled (format : Format) : Prop where
  yuv : format.isYuv = true
  components : 3 ≤ format.components.length
  depth : format.depth = 8
  shifts : format.shifts = (1, 1)

variable {format : Format}

theorem subsampled_of_mem (h : format ∈ [Format.i420, .nv12, .yv12]) : format.Subsampled := by
  have hall : forall format, format ∈ [Format.i420, .nv12, .yv12] ->
      format.isYuv = true ∧ 3 ≤ format.components.length ∧ format.depth = 8 ∧
        format.shifts = (1, 1) := by
    decide
  rcases hall format h with ⟨hyuv, hcomponents, hdepth, hshifts⟩
  exact ⟨hyuv, hcomponents, hdepth, hshifts⟩

theorem Subsampled.depth_eq (h : format.Subsampled) (hcomp : format.component c = .ok comp) :
    comp.depth = 8 :=
  (Format.depth_eq hcomp).trans h.depth

/-- Chroma of an odd size has a sample for the last column and the last row alone. -/
theorem Subsampled.size_eq (h : format.Subsampled) (hc : c = 1 ∨ c = 2) (width height : Nat) :
    format.columns c width = (width + 1) / 2 ∧ format.lines c height = (height + 1) / 2 := by
  have hshifts : format.shiftsOf c = (1, 1) := by
    unfold Format.shiftsOf
    rw [if_neg (by omega), h.shifts]
  unfold columns lines
  rw [hshifts, shrunk_one, shrunk_one]
  exact ⟨rfl, rfl⟩

end Format

/-- Every visible sample of the two chroma components is in the middle of its range. -/
def Picture.NeutralChroma (picture : Picture) : Prop :=
  forall c, c = 1 ∨ c = 2 -> forall x y, picture.view.Visible c x y ->
    picture.sample c x y = .ok 128

theorem Picture.NeutralChroma.componentSamples (h : picture.NeutralChroma)
    (hcovered : picture.view.Covered) (hformat : picture.view.format.Subsampled)
    (hc : c = 1 ∨ c = 2) (hcomp : picture.view.format.component c = .ok comp) :
    picture.view.componentSamples picture.memory comp c =
      List.replicate ((picture.view.height + 1) / 2 * ((picture.view.width + 1) / 2)) 128 := by
  rcases hformat.size_eq hc picture.view.width picture.view.height with ⟨hcolumns, hlines⟩
  rw [← hcolumns, ← hlines]
  exact View.componentSamples_of_constant hcovered hcomp (hformat.depth_eq hcomp)
    fun x y hx hy => h c hc x y (hcovered.visible hcomp hx hy)

namespace Context

theorem neutralPlanes_of_depth_eight (hdepth : comp.depth = 8) (width height : Nat) :
    neutralPlanes comp width height =
      List.replicate (2 * ((height + 1) / 2) * ((width + 1) / 2)) 128 := by
  have hbytes : toLittleEndian comp.bytes (comp.levels / 2) = [128] := by
    rw [Component.bytes_of_depth_eight hdepth, Component.levels_of_depth_eight hdepth]
    rfl
  unfold neutralPlanes neutralRow
  rw [hbytes, List.flatten_replicate_singleton, List.flatten_replicate_replicate]

/-!
## Frames
-/

/-- Neutral chroma of a 4:2:0 frame is fed as a frame without chroma has it made up. -/
theorem updateFrame_of_neutral (h : picture.NeutralChroma) (hcovered : picture.view.Covered)
    (hformat : picture.view.format.Subsampled)
    (hcomp : picture.view.format.component 0 = .ok comp) (context : Context) :
    updateFrame picture context =
      .ok (context.update (picture.view.componentSamples picture.memory comp 0 ++
        neutralPlanes comp picture.view.width picture.view.height)) := by
  have hdigestible : Digestible picture := ⟨hcovered, hformat.yuv, hformat.components⟩
  rcases hdigestible.exists_component (c := 1) (by decide) with ⟨second, hsecond⟩
  rcases hdigestible.exists_component (c := 2) (by decide) with ⟨third, hthird⟩
  rcases hdigestible.updateFrame with ⟨bytes, hbytes, hframe⟩
  rw [canonical_eq hcovered hcomp hsecond hthird] at hbytes
  cases hbytes
  rw [hframe, h.componentSamples hcovered hformat (Or.inl rfl) hsecond,
    h.componentSamples hcovered hformat (Or.inr rfl) hthird,
    neutralPlanes_of_depth_eight (hformat.depth_eq hcomp), List.replicate_append_replicate,
    Nat.mul_assoc, Nat.two_mul]

theorem luma_congr {gray color : Picture} {first second : Component}
    (hgray : gray.view.Covered) (hcolor : color.view.Covered)
    (hfirst : gray.view.format.component 0 = .ok first)
    (hsecond : color.view.format.component 0 = .ok second) (hdepth : first.depth = 8)
    (hdepth' : second.depth = 8) (hwidth : gray.view.width = color.view.width)
    (hheight : gray.view.height = color.view.height)
    (hluma : forall x y, gray.view.Visible 0 x y -> gray.sample 0 x y = color.sample 0 x y) :
    gray.view.componentSamples gray.memory first 0 =
      color.view.componentSamples color.memory second 0 := by
  have hcolumns : color.view.columns 0 = gray.view.columns 0 := by
    unfold View.columns Format.columns
    rw [Format.shiftsOf_zero, Format.shiftsOf_zero, hwidth]
  have hlines : color.view.lines 0 = gray.view.lines 0 := by
    unfold View.lines Format.lines
    rw [Format.shiftsOf_zero, Format.shiftsOf_zero, hheight]
  rcases hgray.exists_values hfirst gray.memory with ⟨value, hvalue⟩
  have hvalue' : forall x y, x < color.view.columns 0 -> y < color.view.lines 0 ->
      color.view.sample color.memory 0 x y = .ok (value x y) := by
    intro x y hx hy
    rw [hcolumns] at hx
    rw [hlines] at hy
    exact (hluma x y (hgray.visible hfirst hx hy)).symm.trans (hvalue x y hx hy).left
  rw [View.componentSamples_of_values hgray hfirst hdepth
      fun x y hx hy => (hvalue x y hx hy).left,
    View.componentSamples_of_values hcolor hsecond hdepth' hvalue', hcolumns, hlines]

/--
A gray frame and a 4:2:0 frame of the same size and luma, whose chroma is neutral, have
the same digest, whatever their layouts and the past of the contexts.
-/
theorem gray_frames_digest_as_neutral (gray color : Picture) (hgray : gray.view.Covered)
    (hcolor : color.view.Covered) (hformat : gray.format = .y800)
    (hformat' : color.format ∈ [Format.i420, .nv12, .yv12])
    (hwidth : gray.view.width = color.view.width)
    (hheight : gray.view.height = color.view.height)
    (hluma : forall x y, gray.view.Visible 0 x y -> gray.sample 0 x y = color.sample 0 x y)
    (hneutral : color.NeutralChroma) (context context' : Context)
    (halgorithm : context.algorithm = context'.algorithm) :
    exists done done' : Context, Attempt.Answers (context.digestFrame gray) done ∧
      Attempt.Answers (context'.digestFrame color) done' ∧ done.value = done'.value := by
  have hsubsampled : color.view.format.Subsampled := Format.subsampled_of_mem hformat'
  rcases Format.exists_component gray.view.format.components_length_pos with ⟨first, hfirst⟩
  rcases Format.exists_component color.view.format.components_length_pos with ⟨second, hsecond⟩
  have hdepth : first.depth = 8 := by
    rw [Format.depth_eq hfirst, show gray.view.format = .y800 from hformat]
    rfl
  have hdepth' := hsubsampled.depth_eq hsecond
  have hfed := updateFrame_of_luma hgray (by rw [hformat]; decide) hfirst context.restart
  have hfed' := updateFrame_of_neutral hneutral hcolor hsubsampled hsecond context'.restart
  rw [luma_congr hgray hcolor hfirst hsecond hdepth hdepth' hwidth hheight hluma, hwidth, hheight,
    neutralPlanes_of_depth_eight hdepth] at hfed
  rw [neutralPlanes_of_depth_eight hdepth'] at hfed'
  have hyuv : gray.format.isYuv = true := by
    rw [hformat]
    rfl
  refine ⟨_, _, digestFrame_of_bytes hyuv hfed, digestFrame_of_bytes hsubsampled.yuv hfed', ?_⟩
  rw [value_digest, value_digest, halgorithm]

/-- A column of three: two rows of chroma, the lower one for the last row of luma alone. -/
theorem gray_frames_digest_as_neutral_nv12 :
    exists gray color : View,
      Attempt.Answers (View.ofPlanes .y800 1 3 [3] [1]) gray ∧
      Attempt.Answers (View.ofPlanes .nv12 1 3 [5, 4] [2, 2]) color ∧
      Picture.NeutralChroma ⟨color, #[1, 9, 2, 9, 3, 128, 128, 128, 128]⟩ ∧
      exists done done',
        Attempt.Answers ((new .md5 .scalar).digestFrame ⟨gray, #[1, 2, 3]⟩) done ∧
        Attempt.Answers (((new .md5 .ssse3).update [9]).digestFrame
          ⟨color, #[1, 9, 2, 9, 3, 128, 128, 128, 128]⟩) done' ∧
        done.value = done'.value := by
  have hgray : Attempt.Answers (View.ofPlanes .y800 1 3 [3] [1])
      ⟨.y800, 1, 3, #v[⟨⟨0, 3⟩, 1⟩, Plane.none, Plane.none, Plane.none]⟩ := rfl
  have hcolor : Attempt.Answers (View.ofPlanes .nv12 1 3 [5, 4] [2, 2])
      ⟨.nv12, 1, 3, #v[⟨⟨0, 5⟩, 2⟩, ⟨⟨5, 4⟩, 2⟩, Plane.none, Plane.none]⟩ := rfl
  have hneutral : Picture.NeutralChroma
      ⟨⟨.nv12, 1, 3, #v[⟨⟨0, 5⟩, 2⟩, ⟨⟨5, 4⟩, 2⟩, Plane.none, Plane.none]⟩,
        #[1, 9, 2, 9, 3, 128, 128, 128, 128]⟩ := by
    intro c hc x y hvisible
    have hsize : Format.componentSize .nv12 c 1 3 = .ok (1, 2) := by
      rcases hc with rfl | rfl <;> rfl
    rcases hvisible.lt hsize with ⟨hx, hy⟩
    interval_cases x
    rcases hc with rfl | rfl <;> interval_cases y <;> rfl
  refine ⟨_, _, hgray, hcolor, hneutral, ?_⟩
  refine gray_frames_digest_as_neutral ⟨_, #[1, 2, 3]⟩ ⟨_, _⟩ (View.covered_of_ofPlanes hgray)
    (View.covered_of_ofPlanes hcolor) rfl (by decide) rfl rfl (fun x y hvisible => ?_) hneutral
    _ _ rfl
  rcases hvisible.lt (w := 1) (h := 3) rfl with ⟨hx, hy⟩
  interval_cases x
  interval_cases y <;> rfl

end Context
end RawVideo

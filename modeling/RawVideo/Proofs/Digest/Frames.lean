import RawVideo.Digest.Frame
import RawVideo.Proofs.Digest.Calls
import RawVideo.Proofs.View.Accepted

/-!
# Digests of covered frames

A covered frame with chroma is digested as the stored bytes of its first three
components, sample by sample.  Where rows are fed in one piece they hold the samples
one behind the other, and in which pieces a context is fed does not matter.  So the
layout of a frame, its alpha and the past of the context do not show in the digest.
-/

namespace RawVideo

variable {picture other : Picture} {view : View} {comp : Component} {context : Context}
variable {c x y : Nat}

/-!
## Canonical bytes
-/

namespace Picture

/-- The stored bytes of a row of samples, from the left. -/
def storedRow (picture : Picture) (c width y : Nat) : Checked (List UInt8) := do
  let samples <- (List.range width).mapM fun x => picture.view.stored picture.memory c x y
  return samples.flatten

/-- The stored bytes of a component, row by row from the top. -/
def storedComponent (picture : Picture) (c : Nat) : Checked (List UInt8) := do
  let (w, h) <- picture.view.componentSize c
  let rows <- (List.range h).mapM (picture.storedRow c w)
  return rows.flatten

/-- The stored bytes of the first three components. -/
def canonical (picture : Picture) : Checked (List UInt8) := do
  let components <- [0, 1, 2].mapM picture.storedComponent
  return components.flatten

theorem storedComponent_eq {w h : Nat} {bytes : Nat -> Nat -> List UInt8}
    (hsize : picture.view.componentSize c = .ok (w, h))
    (hbytes : forall x y, x < w -> y < h ->
      picture.view.stored picture.memory c x y = .ok (bytes x y)) :
    picture.storedComponent c =
      .ok ((List.range h).flatMap fun y => (List.range w).flatMap fun x => bytes x y) := by
  have hrow : forall y, y ∈ List.range h ->
      picture.storedRow c w y = .ok ((List.range w).flatMap fun x => bytes x y) := by
    intro y hy
    unfold storedRow
    rw [Checked.mapM_eq_ok (g := fun x => bytes x y) fun x hx =>
      hbytes x y (List.mem_range.mp hx) (List.mem_range.mp hy), List.flatMap_def]
    rfl
  unfold storedComponent
  rw [hsize, Checked.ok_bind]
  dsimp only
  rw [Checked.mapM_eq_ok hrow, List.flatMap_def]
  rfl

end Picture

/-!
## Rows
-/

namespace View

/-- The bytes of the samples of a row, from the left. -/
def rowSamples (view : View) (memory : Memory) (comp : Component) (c y : Nat) : List UInt8 :=
  (List.range (view.columns c)).flatMap fun x =>
    memory.read (view.address comp x y) comp.bytes

/-- The bytes of the samples of a component, row by row. -/
def componentSamples (view : View) (memory : Memory) (comp : Component) (c : Nat) :
    List UInt8 :=
  (List.range (view.lines c)).flatMap (view.rowSamples memory comp c)

theorem Covered.storedComponent (h : picture.view.Covered)
    (hcomp : picture.view.format.component c = .ok comp) :
    picture.storedComponent c =
      .ok (picture.view.componentSamples picture.memory comp c) :=
  Picture.storedComponent_eq (h.componentSize hcomp) fun _ _ hx hy =>
    h.stored hcomp hx hy picture.memory

end View

theorem Memory.read_add (memory : Memory) (start count more : Nat) :
    memory.read start (count + more) =
      memory.read start count ++ memory.read (start + count) more := by
  unfold read
  rw [List.range_add, List.map_append, List.map_map]
  simp only [Function.comp_def, Nat.add_assoc]

/-- A piece that holds its parts one behind the other is read part by part. -/
theorem Memory.read_mul (memory : Memory) (start width count : Nat) :
    memory.read start (width * count) =
      (List.range width).flatMap fun x => memory.read (start + x * count) count := by
  induction width with
  | zero => simp
  | succ width ih =>
      rw [Nat.succ_mul, read_add, ih, List.range_succ, List.flatMap_append,
        List.flatMap_singleton]

/-!
## Feeding
-/

namespace Context

theorem foldl_update {ι : Type} (context : Context) (bytes : ι -> List UInt8) (xs : List ι) :
    xs.foldl (fun context x => context.update (bytes x)) context =
      context.update (xs.flatMap bytes) := by
  induction xs generalizing context with
  | nil => rfl
  | cons x rest ih => rw [List.foldl_cons, ih, update_update, List.flatMap_cons]

theorem foldlM_update {ι : Type} {feed : Context -> ι -> Checked Context}
    {bytes : ι -> List UInt8} {xs : List ι}
    (h : forall context x, x ∈ xs -> feed context x = .ok (context.update (bytes x)))
    (context : Context) : xs.foldlM feed context = .ok (context.update (xs.flatMap bytes)) := by
  rw [Checked.foldlM_eq_ok h, foldl_update]

theorem updateSamples_eq (context : Context) (comp : Component) (start width : Nat)
    (memory : Memory) :
    context.updateSamples comp ⟨start, comp.rowSpan width⟩ width memory =
      .ok (context.update
        ((List.range width).flatMap fun x =>
          memory.read (start + x * comp.stride) comp.bytes)) := by
  unfold updateSamples
  apply foldlM_update
  intro context x hx
  have hsub : Span.sub ⟨start, comp.rowSpan width⟩ (x * comp.stride) comp.bytes =
      .ok ⟨start + x * comp.stride, comp.bytes⟩ :=
    Span.sub_of_le (comp.sample_le_rowSpan (List.mem_range.mp hx))
  rw [hsub]
  rfl

theorem updateRow_eq (h : picture.view.Ample)
    (hcomp : picture.view.format.component c = .ok comp)
    (hsize : picture.view.componentSize c = .ok (picture.view.columns c, picture.view.lines c))
    (hy : y < picture.view.lines c) (context : Context) :
    context.updateRow picture c y =
      .ok (context.update (picture.view.rowSamples picture.memory comp c y)) := by
  unfold updateRow Picture.format
  rw [hcomp, Checked.ok_bind, hsize, Checked.ok_bind]
  dsimp only
  rw [h.rowSpan hcomp hsize hy, Checked.ok_bind]
  split
  next hcontiguous =>
    have hstride := Component.isContiguous_iff.mp hcontiguous
    have hroom := Component.contiguous_le_rowSpan hstride (picture.view.columns c)
    have hsub : Span.sub
        ⟨picture.view.address comp 0 y, comp.rowSpan (picture.view.columns c)⟩ 0
          (picture.view.columns c * comp.bytes) =
        .ok ⟨picture.view.address comp 0 y, picture.view.columns c * comp.bytes⟩ :=
      Span.sub_of_le (by rw [Nat.zero_add]; exact hroom)
    rw [hsub, Checked.ok_bind]
    show Except.ok (context.update (picture.memory.read _ _)) = _
    rw [Memory.read_mul, ← hstride]
    simp only [← View.address_eq_row]
    rw [hstride]
    rfl
  next =>
    rw [updateSamples_eq]
    simp only [← View.address_eq_row]
    rfl

theorem updateComponent_eq (h : picture.view.Ample)
    (hcomp : picture.view.format.component c = .ok comp)
    (hsize : picture.view.componentSize c = .ok (picture.view.columns c, picture.view.lines c))
    (context : Context) :
    updateComponent picture context c =
      .ok (context.update (picture.view.componentSamples picture.memory comp c)) := by
  unfold updateComponent
  rw [hsize, Checked.ok_bind]
  exact foldlM_update
    (fun context y hy => updateRow_eq h hcomp hsize (List.mem_range.mp hy) context) context

theorem updateComponent_of_covered (h : picture.view.Covered)
    (hcomp : picture.view.format.component c = .ok comp) (context : Context) :
    updateComponent picture context c =
      .ok (context.update (picture.view.componentSamples picture.memory comp c)) :=
  updateComponent_eq h.ample hcomp (h.componentSize hcomp) context

/-- Two neutral chroma planes, half as wide and as high as a frame. -/
def neutralPlanes (comp : Component) (width height : Nat) : List UInt8 :=
  (List.replicate (2 * ((height + 1) / 2)) (neutralRow comp width)).flatten

theorem updateNeutral_eq (hcomp : picture.view.format.component 0 = .ok comp)
    (context : Context) :
    context.updateNeutral picture =
      .ok (context.update (neutralPlanes comp picture.view.width picture.view.height)) := by
  unfold updateNeutral Picture.format neutralPlanes
  rw [hcomp, Checked.ok_bind, ← List.flatMap_id]
  exact congrArg Except.ok (foldl_update context id _)

/-!
## Frames
-/

/-- Feed the samples that a digest takes: three components, or luma and neutral chroma. -/
def updateFrame (picture : Picture) (context : Context) : Checked Context := do
  let luma <- updateComponent picture context 0
  if 1 < picture.format.components.length then [1, 2].foldlM (updateComponent picture) luma
  else luma.updateNeutral picture

theorem updateFrame_of_luma (h : picture.view.Covered)
    (hluma : picture.format.components.length ≤ 1)
    (hcomp : picture.view.format.component 0 = .ok comp) (context : Context) :
    updateFrame picture context =
      .ok (context.update (picture.view.componentSamples picture.memory comp 0 ++
        neutralPlanes comp picture.view.width picture.view.height)) := by
  unfold updateFrame
  rw [updateComponent_of_covered h hcomp, Checked.ok_bind, if_neg (Nat.not_lt.mpr hluma),
    updateNeutral_eq hcomp, update_update]

/-- Digest a frame with a context that keeps whatever was done to it. -/
def digestInPlace (picture : Picture) : Action Error Context Unit := do
  if !picture.format.isYuv then throw (.withoutDigest picture.format)
  modify restart
  Action.update (updateFrame picture)
  modify finalize

theorem digestFrame_eq (h : picture.format.isYuv = true) (context : Context) :
    context.digestFrame picture =
      Attempt.ofChecked ((updateFrame picture context.restart).map finalize) := by
  unfold digestFrame updateFrame
  rw [h, if_neg (by decide)]
  refine congrArg Attempt.ofChecked ?_
  cases updateComponent picture context.restart 0 with
  | error fault => rfl
  | ok luma =>
      show (if _ then _ else _) = Except.map finalize (if _ then _ else _)
      split
      next => cases [1, 2].foldlM (updateComponent picture) luma <;> rfl
      next => cases luma.updateNeutral picture <;> rfl

/-- A context that digests in place ends as the digest of the frame, or stays as it was. -/
theorem run_digestInPlace (picture : Picture) (context : Context) :
    (digestInPlace picture).run context =
      (context.digestFrame picture).run.map fun outcome =>
        match outcome with
        | .ok done => (.ok (), done)
        | .error error => (.error error, context) := by
  cases hyuv : picture.format.isYuv with
  | false =>
      unfold digestInPlace digestFrame
      rw [hyuv]
      rfl
  | true =>
      rw [digestFrame_eq hyuv]
      unfold digestInPlace
      rw [hyuv, if_neg (by decide)]
      show (updateFrame picture context.restart).map _ >>= _ = _
      cases updateFrame picture context.restart <;> rfl

/-- A covered frame that has a digest and chroma of its own. -/
structure Digestible (picture : Picture) : Prop where
  covered : picture.view.Covered
  yuv : picture.format.isYuv = true
  components : 3 ≤ picture.format.components.length

theorem Digestible.exists_component (h : Digestible picture) (hc : c < 3) :
    exists comp, picture.view.format.component c = .ok comp :=
  Format.exists_component (Nat.lt_of_lt_of_le hc h.components)

theorem canonical_eq {first second third : Component} (h : picture.view.Covered)
    (hfirst : picture.view.format.component 0 = .ok first)
    (hsecond : picture.view.format.component 1 = .ok second)
    (hthird : picture.view.format.component 2 = .ok third) :
    picture.canonical =
      .ok (picture.view.componentSamples picture.memory first 0 ++
        (picture.view.componentSamples picture.memory second 1 ++
          picture.view.componentSamples picture.memory third 2)) := by
  unfold Picture.canonical
  simp only [List.mapM_cons, List.mapM_nil, h.storedComponent hfirst, h.storedComponent hsecond,
    h.storedComponent hthird]
  show Except.ok (_ ++ (_ ++ (_ ++ []))) = _
  rw [List.append_nil]

/-- Whoever feeds each component as its samples feeds all three as the canonical bytes. -/
theorem Digestible.foldlM_components (h : Digestible picture) :
    exists bytes, picture.canonical = .ok bytes ∧
      forall feed : Context -> Nat -> Checked Context,
        (forall c comp, picture.view.format.component c = .ok comp -> forall context,
          feed context c =
            .ok (context.update (picture.view.componentSamples picture.memory comp c))) ->
        forall context, [0, 1, 2].foldlM feed context = .ok (context.update bytes) := by
  rcases h.exists_component (c := 0) (by decide) with ⟨first, hfirst⟩
  rcases h.exists_component (c := 1) (by decide) with ⟨second, hsecond⟩
  rcases h.exists_component (c := 2) (by decide) with ⟨third, hthird⟩
  refine ⟨_, canonical_eq h.covered hfirst hsecond hthird, fun feed hfeed context => ?_⟩
  simp only [List.foldlM_cons, List.foldlM_nil, hfeed 0 first hfirst, hfeed 1 second hsecond,
    hfeed 2 third hthird, Checked.ok_bind, update_update]
  rfl

theorem Digestible.updateFrame (h : Digestible picture) :
    exists bytes, picture.canonical = .ok bytes ∧
      forall context, updateFrame picture context = .ok (context.update bytes) := by
  rcases h.foldlM_components with ⟨bytes, hbytes, hfed⟩
  have hmany : 1 < picture.format.components.length :=
    Nat.lt_of_lt_of_le (by decide) h.components
  refine ⟨bytes, hbytes, fun context => ?_⟩
  unfold Context.updateFrame
  simp only [if_pos hmany, ← List.foldlM_cons]
  exact hfed _ (fun c comp hcomp => updateComponent_of_covered h.covered hcomp) context

theorem digestFrame_of_bytes {bytes : List UInt8} (hyuv : picture.format.isYuv = true)
    (h : Context.updateFrame picture context.restart = .ok (context.restart.update bytes)) :
    Attempt.Answers (context.digestFrame picture) (context.restart.update bytes).finalize := by
  rw [digestFrame_eq hyuv, h, Attempt.answers_ofChecked]
  rfl

theorem Digestible.digestFrame (h : Digestible picture) :
    exists bytes, picture.canonical = .ok bytes ∧
      forall context : Context,
        Attempt.Answers (context.digestFrame picture) (context.restart.update bytes).finalize := by
  rcases h.updateFrame with ⟨bytes, hbytes, hfed⟩
  exact ⟨bytes, hbytes, fun context => digestFrame_of_bytes h.yuv (hfed context.restart)⟩

theorem phase_update_restart (context : Context) (bytes : List UInt8) :
    (context.restart.update bytes).phase ≠ .finalized := by
  rcases update_cases context.restart bytes with h | ⟨_, _, h⟩
  · rw [h]
    simp [restart]
  · rw [h]
    simp

theorem accumulator_update_restart (context : Context) (bytes : List UInt8) :
    (context.restart.update bytes).accumulator =
      (Accumulator.initial context.algorithm).update context.kernel bytes := by
  by_cases hbytes : bytes = []
  · rw [hbytes, Accumulator.update_initial_nil]
    rfl
  · rw [update_of_open (by simp [restart]) hbytes]
    rfl

theorem value_digest (context : Context) (bytes : List UInt8) :
    (context.restart.update bytes).finalize.value = context.algorithm.digest bytes := by
  rw [finalize_of_open (phase_update_restart context bytes), accumulator_update_restart]
  exact Accumulator.value_update_initial _ _ _

/-!
## Frames with the same samples
-/

/-- Two frames store the same bytes for each sample of their first three components. -/
def SameStored (picture other : Picture) : Prop :=
  forall c, c < 3 ->
    picture.view.componentSize c = other.view.componentSize c ∧
      forall x y, picture.view.Visible c x y ->
        picture.view.stored picture.memory c x y = other.view.stored other.memory c x y

theorem storedComponent_congr (h : Digestible picture) (hsame : SameStored picture other)
    (hc : c < 3) : picture.storedComponent c = other.storedComponent c := by
  rcases h.exists_component hc with ⟨comp, hcomp⟩
  rcases hsame c hc with ⟨hsize, hstored⟩
  have hsize' := h.covered.componentSize hcomp
  rw [h.covered.storedComponent hcomp]
  refine (Picture.storedComponent_eq (hsize.symm.trans hsize') fun x y hx hy => ?_).symm
  rw [← hstored x y (h.covered.visible hcomp hx hy)]
  exact h.covered.stored hcomp hx hy picture.memory

theorem canonical_congr (h : Digestible picture) (hsame : SameStored picture other) :
    picture.canonical = other.canonical := by
  unfold Picture.canonical
  simp only [List.mapM_cons, List.mapM_nil, storedComponent_congr h hsame (c := 0) (by decide),
    storedComponent_congr h hsame (c := 1) (by decide),
    storedComponent_congr h hsame (c := 2) (by decide)]

/--
The digest of a covered frame with chroma is the digest of its stored samples, and the
context is finished.  Frames that store the same samples have the same digest, whatever
else their memories hold and whatever the contexts did before.  A frame without a digest
leaves the context as it was.
-/
theorem frames_digest_stored_samples :
    (forall picture, Digestible picture -> exists bytes, picture.canonical = .ok bytes ∧
      forall context : Context, exists done,
        Attempt.Answers (context.digestFrame picture) done ∧
          Action.Answers (digestInPlace picture) context () done ∧
          done.phase = .finalized ∧ done.value = context.algorithm.digest bytes ∧
          done.algorithm = context.algorithm ∧ done.kernel = context.kernel) ∧
    (forall picture other, Digestible picture -> Digestible other -> SameStored picture other ->
      forall context context' : Context, context.algorithm = context'.algorithm ->
        exists done done' : Context, Attempt.Answers (context.digestFrame picture) done ∧
          Attempt.Answers (context'.digestFrame other) done' ∧ done.value = done'.value) ∧
    forall picture, picture.format.isRgb = true ->
      (Error.withoutDigest picture.format).kind = .unsupported ∧
      forall context : Context,
        (context.digestFrame picture).run = .ok (.error (.withoutDigest picture.format)) ∧
          Action.Reports (digestInPlace picture) context (.withoutDigest picture.format)
            context := by
  refine ⟨?_, ?_, ?_⟩
  · intro picture h
    rcases h.digestFrame with ⟨bytes, hbytes, hdigest⟩
    refine ⟨bytes, hbytes, fun context => ⟨_, hdigest context, ?_, ?_, ?_, ?_, ?_⟩⟩
    · unfold Action.Answers
      rw [run_digestInPlace, hdigest context]
      rfl
    · exact phase_finalize _
    · exact value_digest context bytes
    · simp
    · simp [restart]
  · intro picture other h hother hsame context context' halgorithm
    rcases h.digestFrame with ⟨bytes, hbytes, hdigest⟩
    rcases hother.digestFrame with ⟨bytes', hbytes', hdigest'⟩
    rw [canonical_congr h hsame, hbytes'] at hbytes
    cases hbytes
    refine ⟨_, _, hdigest context, hdigest' context', ?_⟩
    rw [value_digest, value_digest, halgorithm]
  · intro picture hrgb
    have hrefused : forall context : Context,
        (context.digestFrame picture).run = .ok (.error (.withoutDigest picture.format)) := by
      intro context
      unfold digestFrame Format.isYuv
      rw [hrgb]
      rfl
    refine ⟨rfl, fun context => ⟨hrefused context, ?_⟩⟩
    unfold Action.Reports
    rw [run_digestInPlace, hrefused]
    rfl

/-- Four luma samples with interleaved and with planar chroma, and a pixel without a digest. -/
theorem frames_digest_stored_samples_nv12 :
    exists nv12 i420 : View,
      Attempt.Answers (View.ofPlanes .nv12 2 2 [5, 2] [3, 2]) nv12 ∧
      Attempt.Answers (View.ofPlanes .i420 2 2 [4, 1, 1] [2, 1, 1]) i420 ∧
      (exists done done',
        Attempt.Answers
            (((new .md5 .scalar).update [9]).digestFrame ⟨nv12, #[1, 2, 0, 3, 4, 5, 6]⟩) done ∧
          Attempt.Answers
            ((new .md5 .ssse3).finalize.digestFrame ⟨i420, #[1, 2, 3, 4, 5, 6]⟩) done' ∧
          done.value = done'.value) ∧
      (exists bytes done,
        Picture.canonical ⟨nv12, #[1, 2, 0, 3, 4, 5, 6]⟩ = .ok bytes ∧
          Attempt.Answers
            ((new .adler32 .chunked).digestFrame ⟨nv12, #[1, 2, 0, 3, 4, 5, 6]⟩) done ∧
          done.value = Algorithm.adler32.digest bytes) ∧
      exists view : View, Attempt.Answers (View.ofPlanes .argb 1 1 [4] [4]) view ∧
        Action.Reports (digestInPlace ⟨view, #[1, 2, 3, 4]⟩) ((new .md5 .scalar).update [9])
          (.withoutDigest .argb) ((new .md5 .scalar).update [9]) := by
  have hnv12 : Attempt.Answers (View.ofPlanes .nv12 2 2 [5, 2] [3, 2])
      ⟨.nv12, 2, 2, #v[⟨⟨0, 5⟩, 3⟩, ⟨⟨5, 2⟩, 2⟩, Plane.none, Plane.none]⟩ := rfl
  have hi420 : Attempt.Answers (View.ofPlanes .i420 2 2 [4, 1, 1] [2, 1, 1])
      ⟨.i420, 2, 2, #v[⟨⟨0, 4⟩, 2⟩, ⟨⟨4, 1⟩, 1⟩, ⟨⟨5, 1⟩, 1⟩, Plane.none]⟩ := rfl
  have hargb : Attempt.Answers (View.ofPlanes .argb 1 1 [4] [4])
      ⟨.argb, 1, 1, #v[⟨⟨0, 4⟩, 4⟩, Plane.none, Plane.none, Plane.none]⟩ := rfl
  have hfirst : Digestible ⟨_, #[1, 2, 0, 3, 4, 5, 6]⟩ :=
    ⟨View.covered_of_ofPlanes hnv12, rfl, by decide⟩
  have hsecond : Digestible ⟨_, #[1, 2, 3, 4, 5, 6]⟩ :=
    ⟨View.covered_of_ofPlanes hi420, rfl, by decide⟩
  have hsame : SameStored
      ⟨⟨.nv12, 2, 2, #v[⟨⟨0, 5⟩, 3⟩, ⟨⟨5, 2⟩, 2⟩, Plane.none, Plane.none]⟩,
        #[1, 2, 0, 3, 4, 5, 6]⟩
      ⟨⟨.i420, 2, 2, #v[⟨⟨0, 4⟩, 2⟩, ⟨⟨4, 1⟩, 1⟩, ⟨⟨5, 1⟩, 1⟩, Plane.none]⟩,
        #[1, 2, 3, 4, 5, 6]⟩ := by
    intro c hc
    interval_cases c
    · refine ⟨rfl, fun x y hvisible => ?_⟩
      rcases hvisible.lt (w := 2) (h := 2) rfl with ⟨hx, hy⟩
      interval_cases x <;> interval_cases y <;> rfl
    · refine ⟨rfl, fun x y hvisible => ?_⟩
      rcases hvisible.lt (w := 1) (h := 1) rfl with ⟨hx, hy⟩
      rw [Nat.lt_one_iff.mp hx, Nat.lt_one_iff.mp hy]
      rfl
    · refine ⟨rfl, fun x y hvisible => ?_⟩
      rcases hvisible.lt (w := 1) (h := 1) rfl with ⟨hx, hy⟩
      rw [Nat.lt_one_iff.mp hx, Nat.lt_one_iff.mp hy]
      rfl
  refine ⟨_, _, hnv12, hi420, ?_, ?_, _, hargb, ?_⟩
  · exact frames_digest_stored_samples.right.left _ _ hfirst hsecond hsame _ _ rfl
  · rcases frames_digest_stored_samples.left _ hfirst with ⟨bytes, hbytes, hdone⟩
    rcases hdone (new .adler32 .chunked) with ⟨done, hdone, _, _, hvalue, _⟩
    exact ⟨bytes, done, hbytes, hdone, hvalue⟩
  · exact ((frames_digest_stored_samples.right.right ⟨_, #[1, 2, 3, 4]⟩ rfl).right _).right

end Context
end RawVideo

import RawVideo.Proofs.Conversion.Content

/-!
# Bounced conversions agree with plain ones

On planes that hold one component each, without gaps, a row has no bytes besides its
samples.  There a plain copy draws the content of the source too, so it leaves what a
bounced copy leaves, and conversions with and without the buffer end alike for every
choice of fields and every history of their converters.
-/

namespace RawVideo

/-!
## Planes of one component
-/

/-- Every plane holds a single component whose samples are consecutive bytes. -/
def Format.Planar (format : Format) : Prop :=
  forall c comp, format.component c = .ok comp ->
    comp.offset = 0 ∧ comp.stride = 1 ∧ comp.bytes = 1 ∧
      forall d other, format.component d = .ok other -> other.plane = comp.plane -> d = c

theorem Format.planar_of_mem {format : Format} (h : format ∈ [Format.i420, Format.yv12]) :
    format.Planar := by
  have hall : forall format, format ∈ [Format.i420, Format.yv12] ->
      forall entry, entry ∈ format.components.zipIdx ->
        entry.1.offset = 0 ∧ entry.1.stride = 1 ∧ entry.1.bytes = 1 ∧
          forall other, other ∈ format.components.zipIdx ->
            other.1.plane = entry.1.plane -> other.2 = entry.2 := by
    decide +kernel
  intro c comp hcomp
  rcases hall format h (comp, c) (mem_zipIdx_components.mpr hcomp) with
    ⟨hoffset, hstride, hbytes, hsingle⟩
  exact ⟨hoffset, hstride, hbytes, fun d other hother hplane =>
    hsingle (other, d) (mem_zipIdx_components.mpr hother) hplane⟩

namespace Conversion

variable {target source : View} {extents : PerPlane Extent} {comp : Component} {c size : Nat}

theorem extent_of_planar {view : View} (h : view.Covered) (hplanar : view.format.Planar)
    (hextents : Spanned view extents) (hcomp : view.format.component c = .ok comp) :
    (extents.get comp.plane).rows ≤ view.lines c ∧
      (extents.get comp.plane).row ≤ view.columns c := by
  rcases hplanar c comp hcomp with ⟨_, hstride, _, hsingle⟩
  have hwithin : (extents.get comp.plane).Within
      (view.format.asked view.width view.height (comp, c)) := by
    apply Format.extents_within h.width_pos hextents
    intro d other hother hplane
    have hsame := hsingle d other hother hplane
    subst hsame
    rw [hcomp] at hother
    cases hother
    exact Extent.Within.refl _
  refine ⟨hwithin.rows, ?_⟩
  have hrow := hwithin.row
  change _ ≤ view.columns c * comp.stride at hrow
  rw [hstride, Nat.mul_one] at hrow
  exact hrow

theorem planesInk_iff_ink {origin : Memory} {address : Nat} {b : UInt8}
    (h : Paired target source size) (hplanar : target.format.Planar)
    (hformat : source.format = target.format) (hextents : Spanned source extents) :
    planesInk target source extents origin address b ↔
      target.ink (source.content origin) address b := by
  have hspanned := h.spanned hformat hextents
  unfold planesInk View.ink
  constructor
  · intro hdrawn
    rcases hdrawn with ⟨p, y, k, hp, hy, hk, haddress, hb⟩
    rcases Format.exists_component_on hp with ⟨c, comp, hcomp, rfl⟩
    rcases extent_of_planar h.targetCovered hplanar hspanned hcomp with ⟨hrows, hrow⟩
    rcases hplanar c comp hcomp with ⟨hoffset, hstride, hbytes, _⟩
    refine ⟨c, comp, k, y, 0, hcomp, by omega, by omega, by omega, ?_, ?_⟩
    · unfold View.address Component.position
      rw [hoffset, hstride, haddress]
      omega
    · rw [View.content_eq (hformat ▸ hcomp)]
      unfold View.address Component.position
      rw [hoffset, hstride, hb]
      congr 1
      omega
  · intro hdrawn
    rcases hdrawn with ⟨c, comp, x, y, i, hcomp, hx, hy, hi, haddress, hb⟩
    have hin := sample_in_row h.targetCovered hspanned hcomp hx hy hi
    refine ⟨comp.plane, y, x * comp.stride + comp.offset + i, Format.plane_mem_planes hcomp,
      hin.left, hin.right, ?_, ?_⟩
    · rw [haddress]
      unfold View.address Component.position
      omega
    · rw [hb, View.content_eq (hformat ▸ hcomp)]
      unfold View.address Component.position
      congr 1
      omega

theorem painted_copyDirectly {before : Memory} (h : Paired target source before.size)
    (hplanar : target.format.Planar) (origin : Memory) :
    exists after, copyDirectly target source origin before = .ok after ∧
      Painted (target.ink (source.content origin)) before after := by
  unfold copyDirectly
  split
  next hformat =>
    rcases h.sourceCovered.planes with ⟨extents, hextents, _⟩
    rcases paints_copyPlanes h hformat hextents origin before rfl with
      ⟨after, hafter, hpainted⟩
    exact ⟨after, hafter, hpainted.congr fun address b =>
      planesInk_iff_ink h hplanar hformat hextents⟩
  next => exact paints_copyComponents h origin before rfl

/-- A bounced copy leaves what a direct copy leaves, whatever the buffer held. -/
theorem bounce_eq_copyDirectly (work : Workspace) (h : Paired target source work.target.size)
    (hplanar : target.format.Planar) (features : Features) (origin : Memory) :
    exists done after, bounce features target source origin work = .ok done ∧
      copyDirectly target source origin work.target = .ok after ∧ done.target = after ∧
        after.size = work.target.size := by
  rcases painted_bounce work h features origin with ⟨done, hdone, hpainted⟩
  rcases painted_copyDirectly h hplanar origin with ⟨after, hafter, hpainted'⟩
  exact ⟨done, after, hdone, hafter,
    hpainted.unique hpainted' (h.targetCovered.ink_functional h.writable), hpainted'.size⟩

/-!
## The loop over blocks
-/

/--
The loop over the blocks of a plane: a line is not empty, a block has at least one
row, every row is visited once and in order, and the lines of a block lie inside the
buffer.
-/
structure LoopSound (cache : Memory) (extent : Extent) : Prop where
  line : 0 < lineLength extent.row
  step : 0 < stepOf cache extent
  rows : (rowBlocks (stepOf cache extent) 0 extent.rows).flatMap rowsIn = List.range extent.rows
  inside : forall block, block ∈ rowBlocks (stepOf cache extent) 0 extent.rows ->
    forall i, i < block.2 ->
      i * lineLength extent.row + lineLength extent.row ≤
        (Memory.reserve cache (lineLength extent.row)).size

theorem loopSound_of_plane (h : source.Covered) {p : PlaneIndex}
    (hp : p ∈ source.format.planes) (cache : Memory) :
    exists extent, visibleExtent source.format source.width source.height p = .ok extent ∧
      LoopSound cache extent := by
  rcases h.planes with ⟨extents, hextents, _⟩
  have hline : 0 < lineLength (extents.get p).row :=
    Nat.lt_of_lt_of_le (row_pos h hextents hp) (le_lineLength (extents.get p).row)
  have hstep : 0 < stepOf cache (extents.get p) := step_pos cache hline
  refine ⟨_, View.visibleExtent_eq h.width_pos hextents p, hline, hstep, ?_, ?_⟩
  · rw [flatMap_rowBlocks hstep, Nat.sub_zero, List.range_eq_range']
  · intro block hblock i hi
    exact line_le hi (block_le_cache hblock)

end Conversion

namespace Converter

open Conversion

variable {target source : View} {origin : Memory} {job other : Job} {size : Nat}

/-!
## Runs that look the same
-/

/-- What a caller sees of a run: how it ends, and the memory of the target. -/
def seen (result : Checked (Except Error Unit × Job)) : Checked (Except Error Unit × Memory) :=
  result.map fun (outcome, job) => (outcome, job.target)

/-- Two runs look the same, and a target keeps its size. -/
structure Agreed (size : Nat) (result other : Checked (Except Error Unit × Job)) : Prop where
  seen : seen result = seen other
  size : forall outcome job, result = .ok (outcome, job) -> job.target.size = size

theorem agreed_of_target {outcome : Except Error Unit} (h : job.target = other.target) :
    Agreed job.target.size (.ok (outcome, job)) (.ok (outcome, other)) := by
  constructor
  · show Except.ok (outcome, job.target) = Except.ok (outcome, other.target)
    rw [h]
  · intro _ _ hrun
    cases hrun
    rfl

theorem agreed_of_fault (fault : Fault) : Agreed size (.error fault) (.error fault) :=
  ⟨rfl, fun _ _ hrun => nomatch hrun⟩

theorem Agreed.bind {x x' : Action Error Job Unit} {f f' : Unit -> Action Error Job Unit}
    (hx : Agreed size (x.run job) (x'.run other))
    (hf : forall next next', next.target = next'.target -> next.target.size = size ->
      Agreed size ((f ()).run next) ((f' ()).run next')) :
    Agreed size ((x >>= f).run job) ((x' >>= f').run other) := by
  have hseen := hx.seen
  have hsize := hx.size
  rw [Action.run_bind, Action.run_bind]
  -- What is seen of a run tells a fault, an error and an answer apart.
  cases hrun : x.run job with
  | error fault =>
      rw [hrun] at hseen
      cases hrun' : x'.run other with
      | error fault' =>
          rw [hrun'] at hseen
          cases hseen
          exact agreed_of_fault fault
      | ok pair =>
          rw [hrun'] at hseen
          cases hseen
  | ok pair =>
      rcases pair with ⟨outcome, next⟩
      rw [hrun] at hseen
      cases hrun' : x'.run other with
      | error fault =>
          rw [hrun'] at hseen
          cases hseen
      | ok pair' =>
          rcases pair' with ⟨outcome', next'⟩
          rw [hrun'] at hseen
          injection hseen with hseen
          injection hseen with houtcome htarget
          subst houtcome
          have hnext := hsize _ _ hrun
          subst hnext
          cases outcome with
          | error error => exact agreed_of_target htarget
          | ok _ => exact hf next next' htarget rfl

theorem Agreed.ofAttempt_bind {α : Type} {x : Attempt Error α}
    {f f' : α -> Action Error Job Unit} (h : job.target = other.target)
    (hf : forall a, Attempt.Answers x a ->
      Agreed job.target.size ((f a).run job) ((f' a).run other)) :
    Agreed job.target.size ((Action.ofAttempt x >>= f).run job)
      ((Action.ofAttempt x >>= f').run other) := by
  rw [Action.run_bind, Action.run_bind, Action.run_ofAttempt, Action.run_ofAttempt]
  cases hx : x.run with
  | error fault => exact agreed_of_fault fault
  | ok outcome =>
      cases outcome with
      | error error => exact agreed_of_target h
      | ok a => exact hf a hx

theorem Agreed.forM {ι : Type} {f f' : ι -> Action Error Job Unit} {xs : List ι}
    (hf : forall x, x ∈ xs -> forall next next', next.target = next'.target ->
      next.target.size = size -> Agreed size ((f x).run next) ((f' x).run next'))
    (h : job.target = other.target) (hsize : job.target.size = size) :
    Agreed size ((xs.forM f).run job) ((xs.forM f').run other) := by
  induction xs generalizing job other with
  | nil => exact hsize ▸ agreed_of_target h
  | cons x rest ih =>
      rw [List.forall_mem_cons] at hf
      show Agreed size ((f x >>= fun _ => rest.forM f).run job)
        ((f' x >>= fun _ => rest.forM f').run other)
      apply (hf.left job other h hsize).bind
      intro next next' hnext hnext'
      exact ih hf.right hnext hnext'

/-!
## Frames and fields
-/

theorem convertFrame_bounced
    (h : source.format = target.format ∨ (source.format, target.format) ∈ pairs)
    (hbounced : isBounced source.format target.format = true) :
    convertFrame true target source origin = Action.update (bounceJob target source origin) := by
  unfold convertFrame
  rw [isSupported_iff.mpr h, hbounced]
  rfl

theorem convertFrame_plain
    (h : source.format = target.format ∨ (source.format, target.format) ∈ pairs) :
    convertFrame false target source origin = Action.update (copyJob target source origin) := by
  unfold convertFrame
  rw [isSupported_iff.mpr h]
  rfl

theorem convertFrame_agrees (h : Convertible target source job.target.size)
    (hplanar : target.format.Planar) (hbounced : isBounced source.format target.format = true)
    (htarget : job.target = other.target) (origin : Memory) :
    Agreed job.target.size ((convertFrame true target source origin).run job)
      ((convertFrame false target source origin).run other) := by
  rcases job with ⟨⟨features, cache⟩, memory⟩
  rcases other with ⟨converter, memory'⟩
  change memory = memory' at htarget
  subst htarget
  rcases bounce_eq_copyDirectly ⟨cache, memory⟩ h.paired hplanar features origin with
    ⟨done, after, hdone, hafter, hsame, hsize⟩
  have hbounce : bounceJob target source origin ⟨⟨features, cache⟩, memory⟩ =
      .ok ⟨⟨features, done.cache⟩, done.target⟩ := by
    dsimp only [bounceJob]
    rw [hdone]
    rfl
  have hcopy : copyJob target source origin ⟨converter, memory⟩ = .ok ⟨converter, after⟩ := by
    dsimp only [copyJob] at hafter ⊢
    rw [hafter]
    rfl
  rw [convertFrame_bounced h.supported hbounced, convertFrame_plain h.supported,
    Action.answers_update hbounce, Action.answers_update hcopy]
  change after.size = memory.size at hsize
  subst hsame
  rw [← hsize]
  have hjobs : (Job.mk ⟨features, done.cache⟩ done.target).target =
      (Job.mk converter done.target).target := rfl
  exact agreed_of_target hjobs

theorem size_of_field {view derived : View} {field : Field}
    (h : Attempt.Answers (view.field field) derived) :
    derived.format = view.format ∧ derived.width = view.width ∧
      derived.height = view.height / 2 := by
  rcases View.answers_field.mp h with ⟨planes, _, _, _, rfl⟩
  exact ⟨rfl, rfl, rfl⟩

theorem convertible_of_field {into part : View} {field : Field}
    (h : Convertible target source size) (hinto : Attempt.Answers (target.field field) into)
    (hpart : Attempt.Answers (source.field field) part) : Convertible into part size := by
  rcases size_of_field hinto with ⟨hformat, hwidth, hheight⟩
  rcases size_of_field hpart with ⟨hformat', hwidth', hheight'⟩
  refine ⟨View.covered_of_field hinto, View.covered_of_field hpart,
    h.writable.part (View.part_of_field hinto), ?_, ?_, ?_⟩
  · rw [hwidth, hwidth', h.width]
  · rw [hheight, hheight', h.height]
  · rw [hformat, hformat']
    exact h.supported

theorem convertField_agrees (h : Convertible target source job.target.size)
    (hplanar : target.format.Planar) (hbounced : isBounced source.format target.format = true)
    (htarget : job.target = other.target) (origin : Memory) (field : Field) :
    Agreed job.target.size ((convertField true target source origin field).run job)
      ((convertField false target source origin field).run other) := by
  unfold convertField
  apply Agreed.ofAttempt_bind htarget
  intro part hpart
  apply Agreed.ofAttempt_bind htarget
  intro into hinto
  refine convertFrame_agrees (convertible_of_field h hinto hpart) ?_ ?_ htarget origin
  · rw [(size_of_field hinto).left]
    exact hplanar
  · rw [(size_of_field hinto).left, (size_of_field hpart).left]
    exact hbounced

theorem convert_agrees {source : Picture} (job other : Job)
    (h : Convertible target source.view job.target.size)
    (hplanar : target.format.Planar)
    (hbounced : isBounced source.view.format target.format = true)
    (htarget : job.target = other.target) (top bottom : Bool) :
    Agreed job.target.size ((convert ⟨top, bottom, true⟩ target source).run job)
      ((convert ⟨top, bottom, false⟩ target source).run other) := by
  have hchroma := (alike_of_supported h.supported).chroma
  by_cases hfields : ConversionFlags.fields ⟨top, bottom, true⟩ = []
  · rw [convert_frame ⟨top, bottom, true⟩ h.width h.height hchroma hfields,
      convert_frame ⟨top, bottom, false⟩ h.width h.height hchroma hfields]
    exact convertFrame_agrees h hplanar hbounced htarget source.memory
  · rw [convert_fields ⟨top, bottom, true⟩ h.width h.height hchroma hfields,
      convert_fields ⟨top, bottom, false⟩ h.width h.height hchroma hfields]
    refine Agreed.forM (fun field _ next next' hnext hsize => ?_) htarget rfl
    rw [← hsize] at h ⊢
    exact convertField_agrees h hplanar hbounced hnext source.memory field

/-!
## Settled conversions
-/

theorem convertField_settles (h : Convertible target source job.target.size)
    (hsmall : target.Small) (hsmall' : source.Small) (uncached : Bool) (origin : Memory)
    (field : Field) :
    exists outcome done,
      (convertField uncached target source origin field).run job = .ok (outcome, done) ∧
        done.target.size = job.target.size := by
  unfold convertField
  rcases View.settles_field h.sourceCovered hsmall' field with ⟨outcome, hpart⟩
  rcases View.settles_field h.targetCovered hsmall field with ⟨outcome', hinto⟩
  cases outcome with
  | error error =>
      have hreports := Action.reports_ofAttempt hpart job
      exact ⟨_, job, hreports.bind _, rfl⟩
  | ok part =>
      have hanswers := Action.answers_ofAttempt hpart job
      cases outcome' with
      | error error =>
          have hreports := Action.reports_ofAttempt hinto job
          exact ⟨_, job, hanswers.bind_reports (hreports.bind _), rfl⟩
      | ok into =>
          have hanswers' := Action.answers_ofAttempt hinto job
          rcases convertFrame_copied (convertible_of_field h hinto hpart) uncached origin with
            ⟨done, hdone, hcopied⟩
          exact ⟨_, done, hanswers.bind (hanswers'.bind hdone), hcopied.size⟩

theorem forM_settles {ι : Type} {f : ι -> Action Error Job Unit} {xs : List ι}
    (hf : forall x, x ∈ xs -> forall next : Job, next.target.size = size ->
      exists outcome done, (f x).run next = .ok (outcome, done) ∧ done.target.size = size)
    (hsize : job.target.size = size) :
    exists outcome done, (xs.forM f).run job = .ok (outcome, done) ∧
      done.target.size = size := by
  induction xs generalizing job with
  | nil => exact ⟨_, job, rfl, hsize⟩
  | cons x rest ih =>
      rw [List.forall_mem_cons] at hf
      rcases hf.left job hsize with ⟨outcome, next, hnext, hsize'⟩
      show exists outcome done, (f x >>= fun _ => rest.forM f).run job = _ ∧ _
      rw [Action.run_bind, hnext]
      cases outcome with
      | error error => exact ⟨_, next, rfl, hsize'⟩
      | ok _ => exact ih hf.right hsize'

theorem convert_settles {source : Picture} (job : Job)
    (h : Convertible target source.view job.target.size)
    (hsmall : target.Small) (hsmall' : source.view.Small) (flags : ConversionFlags) :
    exists outcome done, (convert flags target source).run job = .ok (outcome, done) := by
  have hchroma := (alike_of_supported h.supported).chroma
  by_cases hfields : flags.fields = []
  · rw [convert_frame flags h.width h.height hchroma hfields]
    rcases convertFrame_copied h flags.uncached source.memory with ⟨done, hdone, _⟩
    exact ⟨_, done, hdone⟩
  · rw [convert_fields flags h.width h.height hchroma hfields]
    have hstep : forall field, field ∈ flags.fields ->
        forall next : Job, next.target.size = job.target.size ->
          exists outcome done,
            (convertField flags.uncached target source.view source.memory field).run next =
                .ok (outcome, done) ∧ done.target.size = job.target.size := by
      intro field _ next hnext
      rw [← hnext] at h ⊢
      exact convertField_settles h hsmall hsmall' flags.uncached source.memory field
    rcases forM_settles hstep rfl with ⟨outcome, done, hdone, _⟩
    exact ⟨outcome, done, hdone⟩

/-!
## Agreement
-/

theorem supported_of_mem {source target : Format}
    (hsource : source ∈ [Format.nv12, Format.i420, Format.yv12])
    (htarget : target ∈ [Format.i420, Format.yv12]) :
    (source = target ∨ (source, target) ∈ pairs) ∧ isBounced source target = true := by
  have hall : forall source, source ∈ [Format.nv12, Format.i420, Format.yv12] ->
      forall target, target ∈ [Format.i420, Format.yv12] ->
        (source = target ∨ (source, target) ∈ pairs) ∧ isBounced source target = true := by
    decide
  exact hall source hsource target htarget

/--
With and without streaming loads a conversion ends alike and leaves the same bytes in
the memory of the target, whatever the converters were used for before.  It never
faults on small views, nor without a field to convert, and the loop over the blocks of
each plane is sound.
-/
theorem bounced_conversions_agree (target : View) (source : Picture)
    (hsource : source.view.format ∈ [Format.nv12, Format.i420, Format.yv12])
    (htarget : target.format ∈ [Format.i420, Format.yv12]) (hcovered : target.Covered)
    (hcovered' : source.view.Covered) (hwidth : target.width = source.view.width)
    (hheight : target.height = source.view.height) :
    (forall top bottom converter other memory, target.Writable memory.size ->
      seen ((convert ⟨top, bottom, true⟩ target source).run ⟨converter, memory⟩) =
        seen ((convert ⟨top, bottom, false⟩ target source).run ⟨other, memory⟩)) ∧
    (forall converter memory, target.Writable memory.size ->
      exists done, Action.Answers (convert ⟨false, false, true⟩ target source)
        ⟨converter, memory⟩ () done) ∧
    (target.Small -> source.view.Small ->
      forall flags converter memory, target.Writable memory.size ->
        exists outcome done,
          (convert flags target source).run ⟨converter, memory⟩ = .ok (outcome, done)) ∧
    forall p, p ∈ source.view.format.planes -> forall cache, exists extent,
      visibleExtent source.view.format source.view.width source.view.height p = .ok extent ∧
        LoopSound cache extent := by
  rcases supported_of_mem hsource htarget with ⟨hsupported, hbounced⟩
  have hconvertible : forall memory : Memory, target.Writable memory.size ->
      Convertible target source.view memory.size :=
    fun memory hwritable => ⟨hcovered, hcovered', hwritable, hwidth, hheight, hsupported⟩
  refine ⟨?_, ?_, ?_, ?_⟩
  · intro top bottom converter other memory hwritable
    exact (convert_agrees ⟨converter, memory⟩ ⟨other, memory⟩ (hconvertible memory hwritable)
      (Format.planar_of_mem htarget) hbounced rfl top bottom).seen
  · intro converter memory hwritable
    rcases convert_copied ⟨converter, memory⟩ (hconvertible memory hwritable) true with
      ⟨done, hdone, _⟩
    exact ⟨done, hdone⟩
  · intro hsmall hsmall' flags converter memory hwritable
    exact convert_settles ⟨converter, memory⟩ (hconvertible memory hwritable) hsmall hsmall'
      flags
  · intro p hp cache
    exact loopSound_of_plane hcovered' hp cache

/-- The bottom field of four rows, with a buffer that is too small and holds other bytes. -/
theorem bounced_conversions_agree_bottom :
    exists nv12 yv12 : View,
      Attempt.Answers (View.ofPlanes .nv12 3 4 [12, 8] [3, 4]) nv12 ∧
      Attempt.Answers (View.ofPlanes .yv12 3 4 [12, 4, 4] [3, 2, 2]) yv12 ∧
      seen ((convert ⟨false, true, true⟩ yv12 ⟨nv12, Memory.zeros 20⟩).run
          ⟨⟨⟨true, true⟩, #[1, 2, 3]⟩, #[4, 5, 6, 7, 8, 9, 10, 11, 12, 13, 14, 15, 16, 17, 18, 19,
            20, 21, 22, 23]⟩) =
        seen ((convert ⟨false, true, false⟩ yv12 ⟨nv12, Memory.zeros 20⟩).run
          ⟨new ⟨false, false⟩, #[4, 5, 6, 7, 8, 9, 10, 11, 12, 13, 14, 15, 16, 17, 18, 19,
            20, 21, 22, 23]⟩) ∧
      (exists done, Action.Answers (convert ⟨false, false, true⟩ yv12 ⟨nv12, Memory.zeros 20⟩)
        ⟨new ⟨true, true⟩, Memory.zeros 20⟩ () done) ∧
      (exists outcome done,
        (convert ⟨true, true, true⟩ yv12 ⟨nv12, Memory.zeros 20⟩).run
            ⟨new ⟨true, true⟩, Memory.zeros 20⟩ = .ok (outcome, done)) ∧
      exists extent,
        visibleExtent nv12.format nv12.width nv12.height PlaneIndex.second = .ok extent ∧
          LoopSound #[1, 2, 3] extent := by
  have hnv12 : Attempt.Answers (View.ofPlanes .nv12 3 4 [12, 8] [3, 4])
      ⟨.nv12, 3, 4, #v[⟨⟨0, 12⟩, 3⟩, ⟨⟨12, 8⟩, 4⟩, Plane.none, Plane.none]⟩ := rfl
  have hyv12 : Attempt.Answers (View.ofPlanes .yv12 3 4 [12, 4, 4] [3, 2, 2])
      ⟨.yv12, 3, 4, #v[⟨⟨0, 12⟩, 3⟩, ⟨⟨12, 4⟩, 2⟩, ⟨⟨16, 4⟩, 2⟩, Plane.none]⟩ := rfl
  have hwritable := View.writable_of_ofPlanes hyv12 (show _ ≤ 20 by decide)
  have hzeros : View.Writable _ (Memory.zeros 20).size := Memory.size_zeros 20 ▸ hwritable
  rcases bounced_conversions_agree _ ⟨_, Memory.zeros 20⟩ (show Format.nv12 ∈ _ by decide)
    (show Format.yv12 ∈ _ by decide) (View.covered_of_ofPlanes hyv12)
    (View.covered_of_ofPlanes hnv12) rfl rfl with ⟨hseen, hframe, hsettled, hloop⟩
  refine ⟨_, _, hnv12, hyv12, ?_, ?_, ?_, ?_⟩
  · exact hseen false true _ _ _ hwritable
  · exact hframe _ _ hzeros
  · exact hsettled ⟨by decide, by decide, by decide⟩ ⟨by decide, by decide, by decide⟩ _ _ _
      hzeros
  · exact hloop _ (show PlaneIndex.second ∈ Format.planes .nv12 by decide) _

end Converter
end RawVideo

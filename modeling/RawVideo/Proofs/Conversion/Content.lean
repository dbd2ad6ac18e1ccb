import RawVideo.Proofs.Conversion.Bounced
import RawVideo.Conversion.Converter

/-!
# Conversions preserve content

A supported conversion of a frame answers, and every sample of the target then has
the value that it has in the source.  So has the last target of a chain of supported
conversions.  A conversion that is not supported leaves its target alone.
-/

namespace RawVideo

/-!
## Fields asked for
-/

namespace ConversionFlags

variable {flags : ConversionFlags}

theorem top_mem_fields : Field.top ∈ flags.fields ↔ flags.top = true := by
  unfold fields
  cases flags.top <;> cases flags.bottom <;> decide

theorem bottom_mem_fields : Field.bottom ∈ flags.fields ↔ flags.bottom = true := by
  unfold fields
  cases flags.top <;> cases flags.bottom <;> decide

end ConversionFlags

/-!
## Supported pairs
-/

namespace Conversion

variable {target source : View} {origin : Memory} {size : Nat}

theorem isSupported_iff {source target : Format} :
    isSupported source target = true ↔ source = target ∨ (source, target) ∈ pairs := by
  unfold isSupported
  rw [Bool.or_eq_true, beq_iff_eq, List.contains_iff_mem]

theorem alike_of_supported {source target : Format}
    (h : source = target ∨ (source, target) ∈ pairs) : target.Alike source := by
  rcases h with rfl | hpair
  · exact Format.Alike.refl source
  · have hall : forall pair, pair ∈ pairs -> pair.1.chroma = pair.2.chroma ∧
        pair.1.components.length = pair.2.components.length ∧
          pair.1.depth = pair.2.depth := by
      decide
    rcases hall _ hpair with ⟨hchroma, hcomponents, hdepth⟩
    exact ⟨hchroma.symm, hcomponents.symm, hdepth.symm⟩

/-- Two covered views of one size between which a conversion is supported. -/
structure Convertible (target source : View) (size : Nat) : Prop where
  targetCovered : target.Covered
  sourceCovered : source.Covered
  writable : target.Writable size
  width : target.width = source.width
  height : target.height = source.height
  supported : source.format = target.format ∨ (source.format, target.format) ∈ pairs

theorem Convertible.paired (h : Convertible target source size) : Paired target source size :=
  ⟨h.targetCovered, h.sourceCovered, h.writable, h.width, h.height,
    alike_of_supported h.supported⟩

end Conversion

namespace Converter

open Conversion

variable {target source : View} {origin : Memory} {job : Job}

/-!
## Frames
-/

theorem bounceJob_copied (h : Paired target source job.target.size) (origin : Memory) :
    exists done, bounceJob target source origin job = .ok done ∧
      Copied target source origin job.target done.target := by
  rcases job with ⟨⟨features, cache⟩, memory⟩
  rcases painted_bounce ⟨cache, memory⟩ h features origin with ⟨done, hdone, hpainted⟩
  refine ⟨⟨⟨features, done.cache⟩, done.target⟩, ?_, h.copied_of_painted hpainted⟩
  dsimp only [bounceJob]
  rw [hdone]
  rfl

theorem copyJob_copied (h : Paired target source job.target.size) (origin : Memory) :
    exists done, copyJob target source origin job = .ok done ∧
      Copied target source origin job.target done.target := by
  rcases job with ⟨converter, memory⟩
  rcases copyDirectly_copied h origin with ⟨after, hafter, hcopied⟩
  refine ⟨⟨converter, after⟩, ?_, hcopied⟩
  dsimp only [copyJob] at hafter ⊢
  rw [hafter]
  rfl

theorem convertFrame_copied (h : Convertible target source job.target.size) (uncached : Bool)
    (origin : Memory) :
    exists done, Action.Answers (convertFrame uncached target source origin) job () done ∧
      Copied target source origin job.target done.target := by
  unfold convertFrame
  rw [isSupported_iff.mpr h.supported, if_neg (by decide)]
  split
  next =>
    rcases bounceJob_copied h.paired origin with ⟨done, hdone, hcopied⟩
    exact ⟨done, Action.answers_update hdone, hcopied⟩
  next =>
    rcases copyJob_copied h.paired origin with ⟨done, hdone, hcopied⟩
    exact ⟨done, Action.answers_update hdone, hcopied⟩

theorem convertFrame_reports
    (h : ¬ (source.format = target.format ∨ (source.format, target.format) ∈ pairs))
    (uncached : Bool) (origin : Memory) (job : Job) :
    Action.Reports (convertFrame uncached target source origin) job
      (.noConversion source.format target.format) job := by
  have hno : isSupported source.format target.format = false := by
    rw [← isSupported_iff] at h
    exact eq_false_of_ne_true h
  unfold convertFrame
  rw [hno]
  rfl

theorem convert_frame (flags : ConversionFlags) {source : Picture}
    (hwidth : target.width = source.view.width) (hheight : target.height = source.view.height)
    (hchroma : target.format.chroma = source.view.format.chroma) (hfields : flags.fields = []) :
    convert flags target source =
      convertFrame flags.uncached target source.view source.memory := by
  unfold convert
  rw [if_neg (not_or.mpr ⟨fun hne => hne hwidth, fun hne => hne hheight⟩),
    if_neg fun hne => hne hchroma, hfields]

theorem convert_fields (flags : ConversionFlags) {source : Picture}
    (hwidth : target.width = source.view.width) (hheight : target.height = source.view.height)
    (hchroma : target.format.chroma = source.view.format.chroma) (hfields : flags.fields ≠ []) :
    convert flags target source =
      flags.fields.forM (convertField flags.uncached target source.view source.memory) := by
  unfold convert
  rw [if_neg (not_or.mpr ⟨fun hne => hne hwidth, fun hne => hne hheight⟩),
    if_neg fun hne => hne hchroma]
  split
  next hnone => exact (hfields hnone).elim
  next => rfl

theorem convert_copied {source : Picture} (job : Job)
    (h : Convertible target source.view job.target.size) (uncached : Bool) :
    exists done,
      Action.Answers (convert ⟨false, false, uncached⟩ target source) job () done ∧
        Copied target source.view source.memory job.target done.target := by
  rw [convert_frame _ h.width h.height (alike_of_supported h.supported).chroma rfl]
  exact convertFrame_copied h uncached source.memory

/-!
## Chains
-/

/-- One conversion of a chain: a target over its memory, and the converter to use. -/
structure Stage where
  uncached : Bool
  converter : Converter
  target : View
  memory : Memory

/-- The picture that a conversion leaves in its target. -/
def Stage.run (stage : Stage) (source : Picture) : Attempt Error Picture :=
  ExceptT.mk (((convert ⟨false, false, stage.uncached⟩ stage.target source).run
    ⟨stage.converter, stage.memory⟩).map fun (outcome, job) =>
      outcome.map fun _ => ⟨stage.target, job.target⟩)

/-- Convert a picture to the first target, the picture there to the second one, and so on. -/
def chain : List Stage -> Picture -> Attempt Error Picture
  | [], picture => pure picture
  | stage :: rest, picture => do
      let next <- stage.run picture
      chain rest next

/-- Every conversion of a chain is supported. -/
def Linked : View -> List Stage -> Prop
  | _, [] => True
  | source, stage :: rest =>
      Convertible stage.target source stage.memory.size ∧ Linked stage.target rest

theorem Stage.run_matches {stage : Stage} {source : Picture}
    (h : Convertible stage.target source.view stage.memory.size) :
    exists next, Attempt.Answers (stage.run source) next ∧ next.view = stage.target ∧
      next.view.Matches next.memory source.view source.memory := by
  rcases convert_copied ⟨stage.converter, stage.memory⟩ h stage.uncached with
    ⟨done, hdone, hcopied⟩
  refine ⟨⟨stage.target, done.target⟩, ?_, rfl, hcopied.content⟩
  unfold Stage.run Attempt.Answers
  rw [show (convert ⟨false, false, stage.uncached⟩ stage.target source).run
    ⟨stage.converter, stage.memory⟩ = .ok (.ok (), done) from hdone]
  rfl

theorem chain_matches {stages : List Stage} {source : Picture} (hcovered : source.view.Covered)
    (h : Linked source.view stages) :
    exists last, Attempt.Answers (chain stages source) last ∧
      last.view.Matches last.memory source.view source.memory := by
  induction stages generalizing source with
  | nil => exact ⟨source, Attempt.answers_pure source, hcovered.matches_self source.memory⟩
  | cons stage rest ih =>
      rcases Stage.run_matches h.left with ⟨next, hnext, hview, hmatches⟩
      rcases ih (hview ▸ h.left.targetCovered) (hview ▸ h.right) with ⟨last, hlast, hmatches'⟩
      exact ⟨last, Attempt.answers_bind.mpr ⟨next, hnext, hlast⟩, hmatches'.trans hmatches⟩

/-!
## Samples
-/

/-- Two pictures have the same value at every sample that is visible in the second one. -/
def SameSamples (picture source : Picture) : Prop :=
  forall c x y, source.view.Visible c x y ->
    picture.view.Visible c x y ∧
      exists value, picture.sample c x y = .ok value ∧ source.sample c x y = .ok value

theorem sameSamples_of_matches {picture source : Picture}
    (h : picture.view.Matches picture.memory source.view source.memory) :
    SameSamples picture source :=
  fun c x y hvisible => ⟨(h.stored c x y hvisible).left, h.sample_eq hvisible⟩

/--
A supported conversion of a frame preserves every sample, and so does a chain of
them.  A conversion that is not supported reports so and changes nothing.
-/
theorem convert_preserves_samples :
    (forall uncached target (source : Picture) job,
      Convertible target source.view job.target.size ->
        exists done,
          Action.Answers (convert ⟨false, false, uncached⟩ target source) job () done ∧
            SameSamples ⟨target, done.target⟩ source) ∧
    (forall uncached target (source : Picture) job,
      target.width = source.view.width -> target.height = source.view.height ->
      target.format.chroma = source.view.format.chroma ->
      ¬ (source.view.format = target.format ∨
        (source.view.format, target.format) ∈ pairs) ->
        Action.Reports (convert ⟨false, false, uncached⟩ target source) job
          (.noConversion source.view.format target.format) job) ∧
    forall stages (source : Picture), source.view.Covered -> Linked source.view stages ->
      exists last, Attempt.Answers (chain stages source) last ∧ SameSamples last source := by
  refine ⟨?_, ?_, ?_⟩
  · intro uncached target source job h
    rcases convert_copied job h uncached with ⟨done, hdone, hcopied⟩
    exact ⟨done, hdone, sameSamples_of_matches hcopied.content⟩
  · intro uncached target source job hwidth hheight hchroma hno
    rw [convert_frame _ hwidth hheight hchroma rfl]
    exact convertFrame_reports hno uncached source.memory job
  · intro stages source hcovered hlinked
    rcases chain_matches hcovered hlinked with ⟨last, hlast, hmatches⟩
    exact ⟨last, hlast, sameSamples_of_matches hmatches⟩

/-- Three columns and rows go from two planes to three by streaming loads, and back again. -/
theorem convert_preserves_samples_nv12 :
    exists nv12 i420 yuy2 uyvy : View,
      Attempt.Answers (View.ofPlanes .nv12 3 3 [9, 8] [3, 4]) nv12 ∧
      Attempt.Answers (View.ofPlanes .i420 3 3 [9, 4, 4] [3, 2, 2]) i420 ∧
      (exists done,
        Action.Answers
            (convert ⟨false, false, true⟩ i420
              ⟨nv12, #[1, 2, 3, 4, 5, 6, 7, 8, 9, 10, 11, 12, 13, 14, 15, 16, 17]⟩)
            ⟨new ⟨true, true⟩, Memory.zeros 17⟩ () done ∧
          SameSamples ⟨i420, done.target⟩
            ⟨nv12, #[1, 2, 3, 4, 5, 6, 7, 8, 9, 10, 11, 12, 13, 14, 15, 16, 17]⟩) ∧
      Action.Reports (convert ⟨false, false, false⟩ uyvy ⟨yuy2, Memory.zeros 8⟩)
        ⟨new ⟨true, true⟩, Memory.zeros 8⟩ (.noConversion yuy2.format uyvy.format)
        ⟨new ⟨true, true⟩, Memory.zeros 8⟩ ∧
      exists last,
        Attempt.Answers
            (chain
              [⟨true, new ⟨true, true⟩, i420, Memory.zeros 17⟩,
                ⟨false, new ⟨false, false⟩, nv12, Memory.zeros 17⟩]
              ⟨nv12, #[1, 2, 3, 4, 5, 6, 7, 8, 9, 10, 11, 12, 13, 14, 15, 16, 17]⟩) last ∧
          SameSamples last
            ⟨nv12, #[1, 2, 3, 4, 5, 6, 7, 8, 9, 10, 11, 12, 13, 14, 15, 16, 17]⟩ := by
  have hnv12 : Attempt.Answers (View.ofPlanes .nv12 3 3 [9, 8] [3, 4])
      ⟨.nv12, 3, 3, #v[⟨⟨0, 9⟩, 3⟩, ⟨⟨9, 8⟩, 4⟩, Plane.none, Plane.none]⟩ := rfl
  have hi420 : Attempt.Answers (View.ofPlanes .i420 3 3 [9, 4, 4] [3, 2, 2])
      ⟨.i420, 3, 3, #v[⟨⟨0, 9⟩, 3⟩, ⟨⟨9, 4⟩, 2⟩, ⟨⟨13, 4⟩, 2⟩, Plane.none]⟩ := rfl
  have hcovered := View.covered_of_ofPlanes hnv12
  have hcovered' := View.covered_of_ofPlanes hi420
  have hwritable := View.writable_of_ofPlanes hnv12 (show _ ≤ 17 by decide)
  have hwritable' := View.writable_of_ofPlanes hi420 (show _ ≤ 17 by decide)
  have hforth : Convertible _ _ (Memory.zeros 17).size :=
    ⟨hcovered', hcovered, Memory.size_zeros 17 ▸ hwritable', rfl, rfl, by decide⟩
  have hback : Convertible _ _ (Memory.zeros 17).size :=
    ⟨hcovered, hcovered', Memory.size_zeros 17 ▸ hwritable, rfl, rfl, by decide⟩
  refine ⟨_, _, ⟨.yuy2, 2, 2, #v[⟨⟨0, 8⟩, 4⟩, Plane.none, Plane.none, Plane.none]⟩,
    ⟨.uyvy, 2, 2, #v[⟨⟨0, 8⟩, 4⟩, Plane.none, Plane.none, Plane.none]⟩, hnv12, hi420, ?_, ?_, ?_⟩
  · exact convert_preserves_samples.left true _ ⟨_, _⟩ ⟨_, _⟩ hforth
  · exact convert_preserves_samples.right.left false _ ⟨_, _⟩ ⟨_, _⟩ rfl rfl rfl (by decide)
  · exact convert_preserves_samples.right.right
      [⟨true, _, _, Memory.zeros 17⟩, ⟨false, _, _, Memory.zeros 17⟩] ⟨_, _⟩ hcovered
      ⟨hforth, hback, trivial⟩

end Converter
end RawVideo

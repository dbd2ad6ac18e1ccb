import RawVideo.Proofs.Conversion.Content

/-!
# Conversions that report an error

The conversion of a frame reports an error before it writes anything, and so does the
conversion of a single field.  Two fields are converted one after the other: where the
bottom one cannot be taken, the conversion reports so with the top one converted.
-/

namespace RawVideo
namespace Converter

open Conversion

variable {target source : View} {origin : Memory} {job done : Job} {error : Error}
variable {uncached : Bool} {field : Field} {flags : ConversionFlags}

/-!
## Parts of a conversion
-/

theorem frame_of_reports
    (h : Action.Reports (convertFrame uncached target source origin) job error done) :
    done = job ∧ isSupported source.format target.format = false := by
  unfold convertFrame at h
  cases hsupported : isSupported source.format target.format with
  | false =>
      rw [hsupported] at h
      cases h
      exact ⟨rfl, rfl⟩
  | true =>
      rw [hsupported, if_neg (by decide)] at h
      split at h
      next => exact (Action.not_reports_update _ _ _ _ h).elim
      next => exact (Action.not_reports_update _ _ _ _ h).elim

theorem frame_of_answers
    (h : Action.Answers (convertFrame uncached target source origin) job () done) :
    isSupported source.format target.format = true := by
  cases hsupported : isSupported source.format target.format with
  | true => rfl
  | false =>
      unfold convertFrame at h
      rw [hsupported] at h
      cases h

/-- A field of the source or of the target cannot be taken. -/
def Refuses (target source : View) (field : Field) (error : Error) : Prop :=
  (source.field field).run = .ok (.error error) ∨
    (exists part, Attempt.Answers (source.field field) part) ∧
      (target.field field).run = .ok (.error error)

theorem Refuses.reports (h : Refuses target source field error) (uncached : Bool)
    (origin : Memory) (job : Job) :
    Action.Reports (convertField uncached target source origin field) job error job := by
  unfold convertField
  rcases h with hsource | ⟨⟨part, hpart⟩, htarget⟩
  · exact (Action.reports_ofAttempt hsource job).bind _
  · have hreports := Action.reports_ofAttempt htarget job
    exact (Action.answers_ofAttempt hpart job).bind_reports (hreports.bind _)

theorem field_of_reports
    (h : Action.Reports (convertField uncached target source origin field) job error done) :
    done = job ∧
      (Refuses target source field error ∨ isSupported source.format target.format = false) := by
  unfold convertField at h
  rcases Action.bind_eq_ok h with ⟨_, hpart, heq⟩ | ⟨part, next, hpart, hrest⟩
  · cases heq
    rcases Action.ofAttempt_eq_ok hpart with ⟨hpart', rfl⟩
    exact ⟨rfl, Or.inl (Or.inl hpart')⟩
  · rcases Action.ofAttempt_eq_ok hpart with ⟨hpart', rfl⟩
    rcases Action.bind_eq_ok hrest with ⟨_, hinto, heq⟩ | ⟨into, next', hinto, hframe⟩
    · cases heq
      rcases Action.ofAttempt_eq_ok hinto with ⟨hinto', rfl⟩
      exact ⟨rfl, Or.inl (Or.inr ⟨⟨part, hpart'⟩, hinto'⟩)⟩
    · rcases Action.ofAttempt_eq_ok hinto with ⟨hinto', rfl⟩
      rcases frame_of_reports hframe with ⟨rfl, hno⟩
      rw [View.format_of_field hpart', View.format_of_field hinto'] at hno
      exact ⟨rfl, Or.inr hno⟩

theorem field_of_answers
    (h : Action.Answers (convertField uncached target source origin field) job () done) :
    isSupported source.format target.format = true := by
  unfold convertField at h
  rcases Action.answers_bind.mp h with ⟨part, next, hpart, hrest⟩
  rcases Action.answers_bind.mp hrest with ⟨into, next', hinto, hframe⟩
  have hsupported := frame_of_answers hframe
  rw [View.format_of_field (Action.ofAttempt_eq_ok hpart).left,
    View.format_of_field (Action.ofAttempt_eq_ok hinto).left] at hsupported
  exact hsupported

/-!
## Whole conversions
-/

theorem alike_of_convert {source : Picture} {result : Except Error Unit × Job}
    (h : (convert flags target source).run job = .ok result) :
    target.width = source.view.width ∧ target.height = source.view.height ∧
      target.format.chroma = source.view.format.chroma := by
  unfold convert at h
  split at h
  next => cases h
  next hsize =>
    rw [not_or, Decidable.not_not, Decidable.not_not] at hsize
    split at h
    next => cases h
    next hchroma => exact ⟨hsize.left, hsize.right, Decidable.not_not.mp hchroma⟩

theorem fields_of_not_both (h : ¬ (flags.top = true ∧ flags.bottom = true)) :
    flags.fields = [] ∨ exists field, flags.fields = [field] := by
  rcases flags with ⟨_ | _, _ | _, uncached⟩
  · exact Or.inl rfl
  · exact Or.inr ⟨.bottom, rfl⟩
  · exact Or.inr ⟨.top, rfl⟩
  · exact (h ⟨rfl, rfl⟩).elim

theorem fields_of_both (h : flags.top = true ∧ flags.bottom = true) :
    flags.fields = [.top, .bottom] := by
  unfold ConversionFlags.fields
  rw [h.left, h.right]
  rfl

theorem answers_forM_single {f : Field -> Action Error Job Unit} :
    Action.Answers ([field].forM f) job () done ↔ Action.Answers (f field) job () done := by
  show Action.Answers (f field >>= fun _ => pure ()) job () done ↔ _
  rw [Action.answers_bind]
  constructor
  · intro h
    rcases h with ⟨_, next, hfirst, hrest⟩
    cases hrest
    exact hfirst
  · intro h
    exact ⟨(), done, h, rfl⟩

theorem reports_forM_single {f : Field -> Action Error Job Unit}
    (h : Action.Reports ([field].forM f) job error done) :
    Action.Reports (f field) job error done := by
  have hbind : (f field >>= fun _ => (pure () : Action Error Job Unit)).run job =
      .ok (.error error, done) := h
  rcases Action.bind_eq_ok hbind with ⟨_, hfirst, heq⟩ | ⟨_, next, _, hrest⟩
  · cases heq
    exact hfirst
  · cases hrest

/--
A conversion that reports an error leaves its target as it was, except where it converts
both fields: when the bottom one is refused, the conversion reports that and leaves what
converting the top one alone leaves.
-/
theorem reported_conversions_keep_their_target (flags : ConversionFlags) (target : View)
    (source : Picture) (job : Job) :
    (¬ (flags.top = true ∧ flags.bottom = true) -> forall error done,
      Action.Reports (convert flags target source) job error done -> done = job) ∧
    (flags.top = true ∧ flags.bottom = true -> forall error done,
      Action.Reports (convert flags target source) job error done ->
        done = job ∨
          Action.Answers (convert ⟨true, false, flags.uncached⟩ target source) job () done ∧
            Refuses target source.view .bottom error) ∧
    (flags.top = true ∧ flags.bottom = true -> forall error done,
      Action.Answers (convert ⟨true, false, flags.uncached⟩ target source) job () done ->
        Refuses target source.view .bottom error ->
          Action.Reports (convert flags target source) job error done) := by
  refine ⟨?_, ?_, ?_⟩
  · intro hone error done h
    rcases alike_of_convert h with ⟨hwidth, hheight, hchroma⟩
    rcases fields_of_not_both hone with hnone | ⟨field, hsingle⟩
    · rw [convert_frame flags hwidth hheight hchroma hnone] at h
      exact (frame_of_reports h).left
    · rw [convert_fields flags hwidth hheight hchroma (by rw [hsingle]; nofun), hsingle] at h
      exact (field_of_reports (reports_forM_single h)).left
  · intro hboth error done h
    rcases alike_of_convert h with ⟨hwidth, hheight, hchroma⟩
    have hfields := fields_of_both hboth
    rw [convert_fields flags hwidth hheight hchroma (by rw [hfields]; nofun), hfields] at h
    rw [convert_fields ⟨true, false, flags.uncached⟩ hwidth hheight hchroma nofun]
    rcases Action.bind_eq_ok h with ⟨_, htop, _⟩ | ⟨_, next, htop, hbottom⟩
    · exact Or.inl (field_of_reports htop).left
    · rcases field_of_reports (reports_forM_single hbottom) with ⟨rfl, hrefuses | hno⟩
      · exact Or.inr ⟨answers_forM_single.mpr htop, hrefuses⟩
      · rw [field_of_answers htop] at hno
        cases hno
  · intro hboth error done htop hrefuses
    rcases alike_of_convert htop with ⟨hwidth, hheight, hchroma⟩
    have hfields := fields_of_both hboth
    rw [convert_fields ⟨true, false, flags.uncached⟩ hwidth hheight hchroma nofun] at htop
    rw [convert_fields flags hwidth hheight hchroma (by rw [hfields]; nofun), hfields]
    have hbottom : Action.Reports
        ([Field.bottom].forM (convertField flags.uncached target source.view source.memory)) done
          error done :=
      (hrefuses.reports flags.uncached source.memory done).bind _
    exact (answers_forM_single.mp htop).bind_reports hbottom

/-- Planes of two rows, without a spare one for chroma. -/
def tight : View :=
  ⟨.i420, 2, 2, #v[⟨⟨0, 4⟩, 2⟩, ⟨⟨4, 1⟩, 1⟩, ⟨⟨5, 1⟩, 1⟩, Plane.none]⟩

theorem reported_conversions_keep_their_target_i420 :
    Attempt.Answers (View.ofPlanes .i420 2 2 [4, 1, 1] [2, 1, 1]) tight ∧
      (exists error done,
        Action.Reports (convert ⟨false, true, false⟩ tight ⟨tight, #[1, 2, 3, 4, 5, 6]⟩)
          ⟨new ⟨true, true⟩, Memory.zeros 6⟩ error done ∧ done.target = Memory.zeros 6) ∧
      exists error done,
        Action.Answers (convert ⟨true, false, false⟩ tight ⟨tight, #[1, 2, 3, 4, 5, 6]⟩)
          ⟨new ⟨true, true⟩, Memory.zeros 6⟩ () done ∧
        Action.Reports (convert ⟨true, true, false⟩ tight ⟨tight, #[1, 2, 3, 4, 5, 6]⟩)
          ⟨new ⟨true, true⟩, Memory.zeros 6⟩ error done ∧
        Refuses tight tight .bottom error := by
  have hbottom : Action.Reports (convert ⟨false, true, false⟩ tight ⟨tight, #[1, 2, 3, 4, 5, 6]⟩)
      ⟨new ⟨true, true⟩, Memory.zeros 6⟩ (.fieldBeyondPlanes .bottom 2 2 .i420 (.shortPlane 1 0))
      ⟨new ⟨true, true⟩, Memory.zeros 6⟩ := rfl
  have htop : Action.Answers (convert ⟨true, false, false⟩ tight ⟨tight, #[1, 2, 3, 4, 5, 6]⟩)
      ⟨new ⟨true, true⟩, Memory.zeros 6⟩ () ⟨new ⟨true, true⟩, #[1, 2, 0, 0, 5, 6]⟩ := rfl
  have hboth := (reported_conversions_keep_their_target ⟨true, true, false⟩ tight
    ⟨tight, #[1, 2, 3, 4, 5, 6]⟩ ⟨new ⟨true, true⟩, Memory.zeros 6⟩).right
  have hreports := hboth.right ⟨rfl, rfl⟩ _ _ htop
    (Or.inl (show (tight.field .bottom).run = _ from rfl))
  refine ⟨rfl, ⟨_, _, hbottom, ?_⟩, _, _, htop, hreports, ?_⟩
  · have hkept := (reported_conversions_keep_their_target _ _ _ _).left (by decide) _ _ hbottom
    exact congrArg Job.target hkept
  · rcases hboth.left ⟨rfl, rfl⟩ _ _ hreports with hkept | ⟨_, hrefuses⟩
    · exact absurd (congrArg Job.target hkept) (by decide)
    · exact hrefuses

/-- With both fields a conversion that reports an error may have changed its target. -/
theorem reported_conversion_changes_its_target :
    Attempt.Answers (View.ofPlanes .i420 2 2 [4, 1, 1] [2, 1, 1]) tight ∧
      exists done,
        Action.Reports (convert ⟨true, true, false⟩ tight ⟨tight, #[1, 2, 3, 4, 5, 6]⟩)
          ⟨new ⟨true, true⟩, Memory.zeros 6⟩
          (.fieldBeyondPlanes .bottom 2 2 .i420 (.shortPlane 1 0)) done ∧
        done.target = #[1, 2, 0, 0, 5, 6] ∧ done.target ≠ Memory.zeros 6 :=
  ⟨rfl, ⟨_, #[1, 2, 0, 0, 5, 6]⟩, rfl, rfl, by decide⟩

end Converter
end RawVideo

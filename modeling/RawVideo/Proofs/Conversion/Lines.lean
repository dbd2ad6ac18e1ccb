import RawVideo.Proofs.Conversion.Fields

/-!
# Conversions of fields, line by line

The parity of a line tells the field that it lies on, in luma and in chroma alike.  A
conversion of fields that answers has copied the lines of the chosen parity, two for each
line that a component has in a frame of half the height.  On every other line the samples
keep their bytes: on the lines between those of a field, and on a last line that is in
neither field.
-/

namespace RawVideo

namespace ConversionFlags

variable {flags : ConversionFlags} {y : Nat}

/-- A line lies on a field that the flags name. -/
def Selects (flags : ConversionFlags) (y : Nat) : Prop :=
  (flags.top = true ∧ y % 2 = 0) ∨ (flags.bottom = true ∧ y % 2 = 1)

instance (flags : ConversionFlags) (y : Nat) : Decidable (flags.Selects y) :=
  inferInstanceAs (Decidable (_ ∨ _))

theorem selects_iff :
    flags.Selects y ↔ exists field, field ∈ flags.fields ∧ y % 2 = field.line 0 := by
  constructor
  · intro h
    rcases h with ⟨htop, heven⟩ | ⟨hbottom, hodd⟩
    · exact ⟨.top, top_mem_fields.mpr htop, heven⟩
    · exact ⟨.bottom, bottom_mem_fields.mpr hbottom, hodd⟩
  · intro h
    rcases h with ⟨field, hfield, hline⟩
    cases field with
    | top => exact Or.inl ⟨top_mem_fields.mp hfield, hline⟩
    | bottom => exact Or.inr ⟨bottom_mem_fields.mp hfield, hline⟩

end ConversionFlags

namespace Conversion

/-- A line of a component that the conversion of the chosen fields copies. -/
def Converts (flags : ConversionFlags) (view : View) (c y : Nat) : Prop :=
  flags.Selects y ∧ y / 2 < view.format.lines c (view.height / 2)

instance (flags : ConversionFlags) (view : View) (c y : Nat) :
    Decidable (Converts flags view c y) :=
  inferInstanceAs (Decidable (_ ∧ _))

theorem converts_iff {flags : ConversionFlags} {view : View} {c y : Nat} :
    Converts flags view c y ↔
      exists field, field ∈ flags.fields ∧ HasLine view field c y := by
  unfold Converts
  rw [ConversionFlags.selects_iff]
  constructor
  · intro h
    rcases h with ⟨⟨field, hfield, hparity⟩, hlt⟩
    exact ⟨field, hfield, hasLine_iff.mpr ⟨hparity, hlt⟩⟩
  · intro h
    rcases h with ⟨field, hfield, hline⟩
    rcases hasLine_iff.mp hline with ⟨hparity, hlt⟩
    exact ⟨⟨field, hfield, hparity⟩, hlt⟩

end Conversion

namespace Converter

open Conversion

variable {target source : View} {origin : Memory} {job done : Job} {uncached : Bool}

/-- A run over fields that answers could take each of them, of the source and of the target. -/
theorem exists_fields_of_forM {fields : List Field}
    (h : Convertible target source job.target.size)
    (hrun : Action.Answers (fields.forM (convertField uncached target source origin)) job ()
      done) :
    forall field, field ∈ fields ->
      (exists part, Attempt.Answers (source.field field) part) ∧
        exists into, Attempt.Answers (target.field field) into := by
  induction fields generalizing job with
  | nil => exact fun field hfield => (List.not_mem_nil hfield).elim
  | cons field rest ih =>
      rcases forM_convertField_cons h hrun with
        ⟨part, into, next, hpart, hinto, _, hnext, hrest⟩
      rw [List.forall_mem_cons]
      exact ⟨⟨⟨part, hpart⟩, into, hinto⟩, ih hnext hrest⟩

/--
A conversion of fields answers where both pictures have these fields.  It then copies the
lines of the chosen parity as far as a frame of half the height reaches, and every other
visible sample of the target keeps its bytes and its value.
-/
theorem fields_convert_line_by_line (flags : ConversionFlags) (target : View) (source : Picture)
    (job : Job) (h : Convertible target source.view job.target.size)
    (hflags : flags.fields ≠ []) :
    (forall done, Action.Answers (convert flags target source) job () done ->
      forall c x y, target.Visible c x y ->
        (Converts flags target c y ->
          Picture.AgreesAt ⟨target, done.target⟩ source c x y) ∧
        (¬ Converts flags target c y ->
          Picture.AgreesAt ⟨target, done.target⟩ ⟨target, job.target⟩ c x y)) ∧
    ((exists done, Action.Answers (convert flags target source) job () done) ↔
      forall field, field ∈ flags.fields ->
        (exists part, Attempt.Answers (source.view.field field) part) ∧
          exists into, Attempt.Answers (target.field field) into) := by
  have halike := alike_of_supported h.supported
  rw [convert_fields flags h.width h.height halike.chroma hflags]
  refine ⟨fun done hdone c x y hvisible => ⟨fun hline => ?_, fun hnone => ?_⟩, ?_⟩
  · rcases (h.targetCovered.visible_iff.mp hvisible).left with ⟨comp, hcomp⟩
    exact Picture.agreesAt_of_alike halike hcomp
      (forM_convertField_copies h hdone hvisible (converts_iff.mp hline))
  · apply Picture.agreesAt_of_stored
    refine forM_convertField_stored h hdone hvisible fun field hfield hline => hnone ?_
    exact converts_iff.mpr ⟨field, hfield, hline⟩
  · constructor
    · intro hruns
      rcases hruns with ⟨done, hdone⟩
      exact exists_fields_of_forM h hdone
    · exact forM_convertField_answers h

/--
The bottom field of five rows on two planes, into three: the odd rows of luma and of
chroma are those of the source, and the rows around them stay.
-/
theorem fields_convert_line_by_line_nv12 :
    exists nv12 i420 : View,
      Attempt.Answers (View.ofPlanes .nv12 3 5 [15, 12] [3, 4]) nv12 ∧
      Attempt.Answers (View.ofPlanes .i420 3 5 [15, 6, 6] [3, 2, 2]) i420 ∧
      exists done,
        Action.Answers (convert ⟨false, true, true⟩ i420 ⟨nv12, Array.replicate 27 1⟩)
          ⟨new ⟨true, true⟩, Memory.zeros 27⟩ () done ∧
        Picture.AgreesAt ⟨i420, done.target⟩ ⟨nv12, Array.replicate 27 1⟩ 0 2 3 ∧
        Picture.AgreesAt ⟨i420, done.target⟩ ⟨nv12, Array.replicate 27 1⟩ 2 1 1 ∧
        Picture.AgreesAt ⟨i420, done.target⟩ ⟨i420, Memory.zeros 27⟩ 0 2 2 ∧
        Picture.AgreesAt ⟨i420, done.target⟩ ⟨i420, Memory.zeros 27⟩ 2 1 2 := by
  have hnv12 : Attempt.Answers (View.ofPlanes .nv12 3 5 [15, 12] [3, 4])
      ⟨.nv12, 3, 5, #v[⟨⟨0, 15⟩, 3⟩, ⟨⟨15, 12⟩, 4⟩, Plane.none, Plane.none]⟩ := rfl
  have hi420 : Attempt.Answers (View.ofPlanes .i420 3 5 [15, 6, 6] [3, 2, 2])
      ⟨.i420, 3, 5, #v[⟨⟨0, 15⟩, 3⟩, ⟨⟨15, 6⟩, 2⟩, ⟨⟨21, 6⟩, 2⟩, Plane.none]⟩ := rfl
  have hcovered := View.covered_of_ofPlanes hi420
  have hwritable := View.writable_of_ofPlanes hi420 (show _ ≤ 27 by decide)
  have hconvertible : Convertible _ _ (Memory.zeros 27).size :=
    ⟨hcovered, View.covered_of_ofPlanes hnv12, Memory.size_zeros 27 ▸ hwritable, rfl, rfl,
      by decide⟩
  rcases fields_convert_line_by_line ⟨false, true, true⟩ _ ⟨_, Array.replicate 27 1⟩
    ⟨new ⟨true, true⟩, Memory.zeros 27⟩ hconvertible (by decide) with ⟨hlines, hanswers⟩
  have hfields : exists done,
      Action.Answers (convert ⟨false, true, true⟩ _ ⟨_, Array.replicate 27 1⟩)
        ⟨new ⟨true, true⟩, Memory.zeros 27⟩ () done :=
    hanswers.mpr fun field _ => by cases field <;> exact ⟨⟨_, rfl⟩, _, rfl⟩
  rcases hfields with ⟨done, hdone⟩
  refine ⟨_, _, hnv12, hi420, done, hdone, ?_, ?_, ?_, ?_⟩
  · exact (hlines done hdone 0 2 3 (hcovered.visible rfl (by decide) (by decide))).left (by decide)
  · exact (hlines done hdone 2 1 1 (hcovered.visible rfl (by decide) (by decide))).left (by decide)
  · exact (hlines done hdone 0 2 2 (hcovered.visible rfl (by decide) (by decide))).right (by decide)
  · exact (hlines done hdone 2 1 2 (hcovered.visible rfl (by decide) (by decide))).right (by decide)

end Converter
end RawVideo

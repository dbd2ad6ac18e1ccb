import RawVideo.Proofs.Stream.Grammar

/-!
# Canonical headers

A stream does not say how its frames were laid out, only what they are made of, and a reader
takes the one canonical format with such components.  So the line of a header reads as that
header with its canonical format, and a header that was read is written as a line that reads
as the same header again.
-/

namespace RawVideo

/-- Luma alone, one plane for each of Y, U, V, or packed with alpha. -/
def Format.Canonical (format : Format) : Prop :=
  format.components ∈ [Descriptor.luma, Descriptor.planar 1 8, Descriptor.planar 2 10,
    Descriptor.planar 2 12, Descriptor.planar 2 16, Descriptor.packedAyuv]

instance (format : Format) : Decidable format.Canonical :=
  inferInstanceAs (Decidable (_ ∈ _))

/-!
## Colorspaces
-/

namespace Colorspace

variable {format canonical : Format} {text : List Char}

theorem canonical_of_canonical? (h : canonical? format = some canonical) :
    canonical.Canonical := by
  have hall : forall format, format ∈ Format.all ->
      forall canonical, canonical ∈ canonical? format -> canonical.Canonical := by
    decide +kernel
  exact hall format format.mem_all canonical h

theorem canonical?_of_canonical (h : format.Canonical) : canonical? format = some format := by
  have hall : forall format, format ∈ Format.all -> format.Canonical ->
      canonical? format = some format := by
    decide +kernel
  exact hall format format.mem_all h

/-- No two canonical formats are made of the same components. -/
theorem eq_of_alike (h : format.Canonical) (h' : canonical.Canonical)
    (halike : format.Alike canonical) : format = canonical := by
  have hall : forall format, format ∈ Format.all -> format.Canonical ->
      forall canonical, canonical ∈ Format.all -> canonical.Canonical ->
        format.chroma = canonical.chroma ->
          format.components.length = canonical.components.length ->
            format.depth = canonical.depth -> format = canonical := by
    decide +kernel
  exact hall format format.mem_all h canonical canonical.mem_all h' halike.chroma
    halike.components halike.depth

theorem isYuv_of_canonical (h : format.Canonical) : format.isYuv = true := by
  have hall : forall format, format ∈ Format.all -> format.Canonical ->
      format.isYuv = true := by
    decide +kernel
  exact hall format format.mem_all h

theorem canonical_of_planar? {depth : Nat} (h : planar? text depth = some format) :
    format.Canonical := by
  unfold planar? at h
  split at h <;> cases h <;> decide

theorem canonical_of_format? (h : format? text = some format) : format.Canonical := by
  unfold format? at h
  split at h
  next =>
    cases h
    decide
  next =>
    cases h
    decide
  next =>
    split at h
    next => exact canonical_of_planar? h
    next => cases h

end Colorspace

/-!
## Headers that were read
-/

namespace Header

variable {α : Type} {header : Header} {line : List Char}

theorem Counts.holds {Spells : List Char -> α -> Prop} {default : Option α}
    {texts : List (List Char)} {value : α} {P : α -> Prop}
    (h : Counts Spells default texts value) (hspelled : forall text a, Spells text a -> P a)
    (hdefault : forall a, default = some a -> P a) : P value := by
  cases hlast : texts.getLast? with
  | none => exact hdefault value (h.default (List.getLast?_eq_none_iff.mp hlast))
  | some text => exact hspelled text value (h.last text hlast)

theorem words_of_spellsRatio {text : List Char} {r : Ratio} (h : SpellsRatio text r) :
    r.Words := by
  rcases h with ⟨_, _, _, _, ⟨_, hnum⟩, _, hden⟩
  exact ⟨hnum, hden⟩

theorem words_of_unknown {r : Ratio} (h : some ⟨0, 0⟩ = some r) : r.Words := by
  cases h
  exact ⟨by decide, by decide⟩

theorem words_of_parse (h : parse line = .ok header) : header.Words := by
  rcases parse_eq_ok.mp h with ⟨tags, _, htold⟩
  rcases sides_lt_of_parse h with ⟨hwidth, hheight⟩
  exact ⟨hwidth, hheight,
    htold.rate.holds (fun _ _ => words_of_spellsRatio) fun _ => words_of_unknown,
    htold.aspect.holds (fun _ _ => words_of_spellsRatio) fun _ => words_of_unknown⟩

theorem sides_pos_of_parse (h : parse line = .ok header) :
    0 < header.width ∧ 0 < header.height := by
  rcases parse_eq_ok.mp h with ⟨tags, _, htold⟩
  rcases htold.width.spelled with ⟨_, hwidth, _⟩
  rcases htold.height.spelled with ⟨_, hheight, _⟩
  exact ⟨hwidth, hheight⟩

theorem canonical_of_parse (h : parse line = .ok header) : header.format.Canonical := by
  rcases parse_eq_ok.mp h with ⟨tags, _, htold⟩
  apply htold.format.holds
  · intro text format hformat
    exact Colorspace.canonical_of_format? hformat
  · intro format hformat
    cases hformat
    decide

/-!
## Lines of headers
-/

theorem exists_line (hwords : header.Words) (hwidth : 0 < header.width)
    (hheight : 0 < header.height) (hyuv : header.format.isYuv = true) :
    exists line canonical, header.render = .ok line ∧
      Colorspace.canonical? header.format = some canonical ∧
        parse line.toList = .ok { header with format := canonical } := by
  rcases exists_render hwidth hheight hyuv with ⟨line, hline⟩
  rcases parse_render hline hwords with ⟨canonical, hcanonical, hparse⟩
  exact ⟨line, canonical, hline, hcanonical, hparse⟩

/--
Header lines round-trip.  A header with a size and a YUV format is written as one line, within
the limit of a reader, and the line reads as the header with the only canonical format that is
compatible with its own.  Whatever text reads as a header, that header is written as a line
that reads as it again.
-/
theorem header_lines_round_trip :
    (forall header : Header, header.Words -> 0 < header.width -> 0 < header.height ->
      header.format.isYuv = true -> exists line canonical,
        header.render = .ok line ∧ '\n' ∉ line.toList ∧
        (Utf8.encode line.toList).length < Source.lineLimit ∧
        parse line.toList = .ok { header with format := canonical } ∧
        canonical.Canonical ∧ isCompatible canonical header.format = true ∧
        forall other : Format, other.Canonical ->
          isCompatible other header.format = true -> other = canonical) ∧
    forall text header, parse text = .ok header -> exists line,
      header.render = .ok line ∧ parse line.toList = .ok header := by
  constructor
  · intro header hwords hwidth hheight hyuv
    rcases exists_line hwords hwidth hheight hyuv with ⟨line, canonical, hline, hfound, hparse⟩
    rcases inline_render hline hwords with ⟨hinline, hlength⟩
    rcases render_eq_ok hline with ⟨_, _, token, htoken, _⟩
    rcases Colorspace.canonical?_spec htoken with ⟨found, hfound', halike⟩
    rw [hfound] at hfound'
    cases hfound'
    have hcanonical := Colorspace.canonical_of_canonical? hfound
    refine ⟨line, canonical, hline, fun hmem => (hinline _ hmem).right rfl, ?_, hparse,
      hcanonical, isCompatible_iff.mpr halike, ?_⟩
    · rw [StreamFrame.encode_ascii hinline, StreamFrame.length_ascii]
      exact Nat.lt_trans hlength (by decide)
    · intro other hother hcompatible
      have halike' := (isCompatible_iff.mp hcompatible).trans halike.symm
      exact Colorspace.eq_of_alike hother hcanonical halike'
  · intro text header hread
    have hcanonical := canonical_of_parse hread
    rcases sides_pos_of_parse hread with ⟨hwidth, hheight⟩
    rcases exists_line (words_of_parse hread) hwidth hheight
      (Colorspace.isYuv_of_canonical hcanonical) with ⟨line, found, hline, hfound, hparse⟩
    rw [Colorspace.canonical?_of_canonical hcanonical] at hfound
    cases hfound
    exact ⟨line, hline, hparse⟩

/-- A packed format with zeros in its ratios, and tags with a plus sign, a zero in front, a
letter twice and a letter of no meaning. -/
theorem header_lines_round_trip_uyvy :
    exists (line back : String) (canonical : Format) (header : Header),
      render ⟨.uyvy, 3, 5, ⟨0, 4294967295⟩, ⟨0, 0⟩, .mixed⟩ = .ok line ∧
      parse line.toList = .ok ⟨canonical, 3, 5, ⟨0, 4294967295⟩, ⟨0, 0⟩, .mixed⟩ ∧
      canonical.Canonical ∧
      (forall other : Format, other.Canonical -> isCompatible other .uyvy = true ->
        other = canonical) ∧
      parse "YUV4MPEG2 H+05 W7 Xé I? W3 C420p010".toList = .ok header ∧
      header.render = .ok back ∧ parse back.toList = .ok header := by
  rcases header_lines_round_trip with ⟨hwritten, hread⟩
  have hwords : Words ⟨.uyvy, 3, 5, ⟨0, 4294967295⟩, ⟨0, 0⟩, .mixed⟩ :=
    ⟨by decide, by decide, ⟨by decide, by decide⟩, ⟨by decide, by decide⟩⟩
  have hparse : parse "YUV4MPEG2 H+05 W7 Xé I? W3 C420p010".toList =
      .ok ⟨.i420p10, 3, 5, Ratio.unknown, Ratio.unknown, .progressive⟩ := rfl
  rcases hwritten _ hwords (by decide) (by decide) (by decide) with
    ⟨line, canonical, hline, _, _, hagain, hcanonical, _, honly⟩
  rcases hread _ _ hparse with ⟨back, hback, hrepeated⟩
  exact ⟨line, back, canonical, _, hline, hagain, hcanonical, honly, hparse, hback, hrepeated⟩

end Header
end RawVideo

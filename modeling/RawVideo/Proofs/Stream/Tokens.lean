import RawVideo.Proofs.Pixel.Registry
import RawVideo.Proofs.Text.Numeral
import RawVideo.Stream.Colorspace

/-!
# The language of colorspace tokens

A depth is split off at the first `p` of a token, and sitings are spelled with that letter
too, as is the layout with alpha.  None of these words is a family, a `p` and a numeral, so
every token is read in one way, and nothing is read but the words, the families and the
families with a depth.
-/

namespace RawVideo
namespace Colorspace

variable {format : Format} {family : String} {depth : Nat} {token text numeral : List Char}

/-!
## Names of formats
-/

/-- The chroma families with one plane for each of Y, U, V. -/
def families : List (String × Chroma) :=
  [("420", .yuv420), ("422", .yuv422), ("444", .yuv444)]

/-- The chroma sitings that a token of 8-bit 4:2:0 may end in. -/
def sitings : List String :=
  ["jpeg", "paldv", "mpeg2"]

/-- A format of a family has one plane for each of Y, U, V, with samples of a depth. -/
structure Planar (family : String) (depth : Nat) (format : Format) : Prop where
  chroma : (family, format.chroma) ∈ families
  allowed : depth ∈ [8, 10, 12, 16]
  components : format.components = Descriptor.planar (if depth = 8 then 1 else 2) depth

instance (family : String) (depth : Nat) (format : Format) :
    Decidable (Planar family depth format) :=
  decidable_of_iff
    ((family, format.chroma) ∈ families ∧ depth ∈ [8, 10, 12, 16] ∧
      format.components = Descriptor.planar (if depth = 8 then 1 else 2) depth)
    ⟨fun ⟨chroma, allowed, components⟩ => ⟨chroma, allowed, components⟩,
      fun ⟨chroma, allowed, components⟩ => ⟨chroma, allowed, components⟩⟩

/-- The tokens of a format. -/
inductive Names : List Char -> Format -> Prop where
  | luma : Names "mono".toList .y800
  | alpha : Names "444alpha".toList .ayuv
  | sited {site : String} (h : site ∈ sitings) :
      Names ("420".toList ++ site.toList) .i420
  | shallow {family : String} {format : Format} (h : Planar family 8 format) :
      Names family.toList format
  | deep {family : String} {numeral : List Char} {depth : Nat} {format : Format}
      (hnumeral : Decimal.Spells numeral depth) (h : Planar family depth format) :
      Names (family.toList ++ 'p' :: numeral) format

/-!
## Families
-/

/-- What holds for every family, depth and format holds for every planar format. -/
theorem Planar.of_all {P : String -> Nat -> Format -> Prop}
    (h : forall entry, entry ∈ families -> forall depth, depth ∈ [8, 10, 12, 16] ->
      forall format, format ∈ Format.all -> Planar entry.1 depth format ->
        P entry.1 depth format)
    (hplanar : Planar family depth format) : P family depth format :=
  h (family, format.chroma) hplanar.chroma depth hplanar.allowed format format.mem_all hplanar

theorem Planar.depth_lt (h : Planar family depth format) : depth < 256 :=
  Planar.of_all (P := fun _ depth _ => depth < 256) (by decide +kernel) h

theorem Planar.not_mem (h : Planar family depth format) : 'p' ∉ family.toList :=
  Planar.of_all (P := fun family _ _ => 'p' ∉ family.toList) (by decide +kernel) h

theorem planar?_eq_some :
    planar? text depth = some format ↔ Planar (String.ofList text) depth format := by
  constructor
  · intro h
    unfold planar? at h
    split at h
    -- one goal for each line of the table, and the last for no line
    all_goals cases h
    all_goals
      next htext =>
        rw [htext]
        decide
  · intro h
    have hplanar : planar? (String.ofList text).toList depth = some format :=
      Planar.of_all (P := fun family depth format => planar? family.toList depth = some format)
        (by decide +kernel) h
    rw [String.toList_ofList] at hplanar
    exact hplanar

/-!
## Words
-/

/-- The tokens that are no family with or without a depth. -/
def words : List String :=
  "mono" :: "444alpha" :: sited

/-- No word is a family, a `p` and a numeral. -/
theorem not_mem_words (hnumeral : Decimal.Spells numeral depth)
    (h : Planar family depth format) :
    String.ofList (family.toList ++ 'p' :: numeral) ∉ words := by
  -- what follows the `p` where a word begins like a family with a depth
  have hrest : forall word, word ∈ words -> forall entry, entry ∈ families ->
      (entry.1.toList ++ ['p']).isPrefixOf word.toList = true ->
        Decimal.parse? 256 (word.toList.drop (entry.1.toList ++ ['p']).length) = none := by
    decide +kernel
  intro hword
  have htoken : (String.ofList (family.toList ++ 'p' :: numeral)).toList =
      (family.toList ++ ['p']) ++ numeral := by
    rw [String.toList_ofList, List.append_assoc, List.singleton_append]
  have hprefix : (family.toList ++ ['p']).isPrefixOf
      (String.ofList (family.toList ++ 'p' :: numeral)).toList = true :=
    List.isPrefixOf_iff_prefix.mpr ⟨numeral, htoken.symm⟩
  have hnone := hrest _ hword (family, format.chroma) h.chroma hprefix
  have hsome := Decimal.parse?_eq_some.mpr ⟨hnumeral, h.depth_lt⟩
  rw [htoken, List.drop_left, hsome] at hnone
  cases hnone

theorem mem_sited_iff :
    String.ofList token ∈ sited ↔
      exists site, site ∈ sitings ∧ token = "420".toList ++ site.toList := by
  constructor
  · intro h
    have hall : forall word, word ∈ sited -> exists site, site ∈ sitings ∧
        word.toList = "420".toList ++ site.toList := by
      decide +kernel
    rcases hall (String.ofList token) h with ⟨site, hsite, htoken⟩
    rw [String.toList_ofList] at htoken
    exact ⟨site, hsite, htoken⟩
  · intro h
    have hall : forall site, site ∈ sitings ->
        String.ofList ("420".toList ++ site.toList) ∈ sited := by
      decide +kernel
    rcases h with ⟨site, hsite, rfl⟩
    exact hall site hsite

theorem format?_of_sited (h : String.ofList token ∈ sited) : format? token = some .i420 := by
  have hunsited : unsited token = "420".toList := if_pos (List.contains_iff_mem.mpr h)
  unfold format?
  rw [hunsited]
  rfl

theorem unsited_of_not_mem (h : String.ofList token ∉ sited) : unsited token = token :=
  if_neg (mt List.contains_iff_mem.mp h)

/-!
## Depths
-/

theorem splitDepth_of_not_mem (h : 'p' ∉ text) : splitDepth text = (text, some 8) := by
  unfold splitDepth
  rw [span_of_not_mem h]

theorem splitDepth_append (h : 'p' ∉ text) :
    splitDepth (text ++ 'p' :: numeral) = (text, Decimal.parse? 256 numeral) := by
  unfold splitDepth
  rw [span_append_cons h]

/-!
## Reading
-/

theorem names_of_splitDepth (hdepth : splitDepth token = (text, some depth))
    (h : planar? text depth = some format) : Names token format := by
  have hplanar := planar?_eq_some.mp h
  by_cases hp : 'p' ∈ token
  · rcases List.eq_append_cons_of_mem hp with ⟨before, numeral, rfl, hbefore⟩
    rw [splitDepth_append hbefore] at hdepth
    rcases Prod.mk.inj hdepth with ⟨rfl, hnumeral⟩
    have hnames := Names.deep (Decimal.parse?_eq_some.mp hnumeral).left hplanar
    rw [String.toList_ofList] at hnames
    exact hnames
  · rw [splitDepth_of_not_mem hp] at hdepth
    rcases Prod.mk.inj hdepth with ⟨rfl, height⟩
    cases height
    have hnames := Names.shallow hplanar
    rw [String.toList_ofList] at hnames
    exact hnames

theorem names_of_format? (h : format? token = some format) : Names token format := by
  by_cases hsited : String.ofList token ∈ sited
  · rw [format?_of_sited hsited] at h
    cases h
    rcases mem_sited_iff.mp hsited with ⟨site, hsite, rfl⟩
    exact Names.sited hsite
  · unfold format? at h
    rw [unsited_of_not_mem hsited] at h
    split at h
    next hword =>
      cases h
      rw [← String.toList_ofList (l := token), hword]
      exact Names.luma
    next hword =>
      cases h
      rw [← String.toList_ofList (l := token), hword]
      exact Names.alpha
    next =>
      split at h
      next hdepth => exact names_of_splitDepth hdepth h
      next => cases h

theorem format?_deep (hnumeral : Decimal.Spells numeral depth)
    (h : Planar family depth format) :
    format? (family.toList ++ 'p' :: numeral) = some format := by
  have hwords := not_mem_words hnumeral h
  have hsited : String.ofList (family.toList ++ 'p' :: numeral) ∉ sited := by
    intro hmem
    exact hwords (List.mem_cons_of_mem _ (List.mem_cons_of_mem _ hmem))
  unfold format?
  rw [unsited_of_not_mem hsited]
  split
  next hword =>
    rw [hword] at hwords
    exact absurd (by decide) hwords
  next hword =>
    rw [hword] at hwords
    exact absurd (by decide) hwords
  next =>
    have hplanar : planar? family.toList depth = some format := by
      rw [planar?_eq_some, String.ofList_toList]
      exact h
    rw [splitDepth_append h.not_mem, Decimal.parse?_eq_some.mpr ⟨hnumeral, h.depth_lt⟩]
    exact hplanar

theorem format?_of_names (h : Names token format) : format? token = some format := by
  cases h with
  | luma => decide
  | alpha => decide
  | sited hsite => exact format?_of_sited (mem_sited_iff.mpr ⟨_, hsite, rfl⟩)
  | shallow h =>
      have hall : forall {family depth format}, Planar family depth format -> depth = 8 ->
          format? family.toList = some format :=
        Planar.of_all (P := fun family depth format =>
          depth = 8 -> format? family.toList = some format) (by decide +kernel)
      exact hall h rfl
  | deep hnumeral h => exact format?_deep hnumeral h

/--
A token is read into a format exactly where it is one of its names: `mono` for luma alone,
`444alpha` for packed 4:4:4 with alpha, `420` and a siting for 8-bit 4:2:0, a family for its
8-bit planar format, or a family, a `p` and a numeral for its planar format of that depth.
-/
theorem colorspace_tokens_exact (token : List Char) (format : Format) :
    format? token = some format ↔ Names token format :=
  ⟨names_of_format?, format?_of_names⟩

/-- A siting behind a depth or another family and a depth behind another word are refused. -/
example : forall token, token ∈ ["420p10jpeg", "422jpeg", "monop8", "444alphap10"] ->
    format? token.toList = none := by
  decide

end Colorspace
end RawVideo

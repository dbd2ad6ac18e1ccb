import RawVideo.Proofs.Pixel.Size
import RawVideo.Proofs.Text.Ascii
import RawVideo.Proofs.Text.Numeral
import RawVideo.Stream.Header

/-!
# Headers read back

The line of a header consists of words of ASCII characters, and reading the words one
after the other gives the header back.  Only the format may come back as another one:
the one that stands for all formats with the same colorspace token.
-/

namespace RawVideo

/-!
## Colorspaces
-/

namespace Colorspace

variable {format : Format} {token : String}

/-- The format that frames are read into from a stream that was written for a format. -/
def canonical? (format : Format) : Option Format :=
  match token? format with
  | some token => format? (token.toList.takeWhile (· != ' '))
  | none => none

theorem token?_isSome_iff (format : Format) :
    (token? format).isSome = true ↔ format.isYuv = true := by
  have hall : forall format, format ∈ Format.all ->
      ((token? format).isSome = true ↔ format.isYuv = true) := by
    decide +kernel
  exact hall format format.mem_all

theorem exists_token (h : format.isYuv = true) : exists token, token? format = some token :=
  Option.isSome_iff_exists.mp ((token?_isSome_iff format).mpr h)

theorem isYuv_of_token (h : token? format = some token) : format.isYuv = true :=
  (token?_isSome_iff format).mp (Option.isSome_of_eq_some h)

theorem canonical?_spec (h : token? format = some token) :
    exists canonical, canonical? format = some canonical ∧ canonical.Alike format := by
  have hall : forall format, format ∈ Format.all -> forall token, token ∈ token? format ->
      exists canonical, canonical ∈ canonical? format ∧ canonical.chroma = format.chroma ∧
        canonical.components.length = format.components.length ∧
          canonical.depth = format.depth := by
    decide +kernel
  rcases hall format format.mem_all token h with ⟨canonical, hmem, hchroma, hlength, hdepth⟩
  exact ⟨canonical, hmem, hchroma, hlength, hdepth⟩

theorem words_token (h : token? format = some token) :
    exists comments,
      Header.words ('C' :: token.toList) =
        ('C' :: token.toList.takeWhile (· != ' ')) :: comments ∧
      forall word, word ∈ comments -> word.head? = some 'X' := by
  have hall : forall format, format ∈ Format.all -> forall token, token ∈ token? format ->
      (Header.words ('C' :: token.toList)).head? =
          some ('C' :: token.toList.takeWhile (· != ' ')) ∧
        forall word, word ∈ (Header.words ('C' :: token.toList)).tail ->
          word.head? = some 'X' := by
    decide +kernel
  rcases hall format format.mem_all token h with ⟨hhead, htail⟩
  rcases List.head?_eq_some_iff.mp hhead with ⟨comments, hwords⟩
  rw [hwords] at htail
  exact ⟨comments, hwords, htail⟩

theorem inline_token (h : token? format = some token) :
    Inline token.toList ∧ token.toList.length ≤ 32 := by
  have hall : forall format, format ∈ Format.all -> forall token, token ∈ token? format ->
      Inline token.toList ∧ token.toList.length ≤ 32 := by
    decide +kernel
  exact hall format format.mem_all token h

end Colorspace

namespace Header

variable {header : Header} {line : String} {draft : Draft}

/-!
## Words
-/

theorem words_cons {word : List Char} (hword : word ≠ []) (hspace : ' ' ∉ word)
    (rest : List Char) : words (word ++ ' ' :: rest) = word :: words rest := by
  have hkept : (!word.isEmpty) = true := by
    cases word with
    | nil => exact (hword rfl).elim
    | cons c cs => rfl
  unfold words
  rw [List.splitOn_append_cons_self_of_not_mem hspace]
  exact List.filter_cons_of_pos hkept

/-- All numbers of a header fit 32 bits. -/
structure Words (header : Header) : Prop where
  width : header.width < UInt32.size
  height : header.height < UInt32.size
  rate : header.rate.Words
  aspect : header.aspect.Words

theorem Words.resolve (h : header.Words) : header.resolve.Words :=
  ⟨h.width, h.height, Ratio.words_orElse h.rate ⟨by decide, by decide⟩,
    Ratio.words_orElse h.aspect ⟨by decide, by decide⟩⟩

/-- The words of a header behind the opening. -/
def tagsOf (header : Header) (token : String) : List Char :=
  'W' :: Decimal.render header.width ++ ' ' :: ('H' :: Decimal.render header.height ++
    ' ' :: ('F' :: header.rate.render ++ ' ' :: ('A' :: header.aspect.render ++
      ' ' :: (['I', header.interlace.letter] ++ ' ' :: ('C' :: token.toList)))))

theorem render_eq_ok (h : header.render = .ok line) :
    0 < header.width ∧ 0 < header.height ∧ exists token,
      Colorspace.token? header.format = some token ∧
        line.toList = opening.toList ++ ' ' :: header.tagsOf token := by
  unfold render at h
  split at h
  next => cases h
  next hsize =>
    rw [not_or] at hsize
    split at h
    next => cases h
    next token htoken =>
      cases h
      refine ⟨Nat.pos_of_ne_zero hsize.left, Nat.pos_of_ne_zero hsize.right, token, htoken, ?_⟩
      rw [String.toList_ofList, show " W".toList = [' ', 'W'] from rfl,
        show " H".toList = [' ', 'H'] from rfl, show " F".toList = [' ', 'F'] from rfl,
        show " A".toList = [' ', 'A'] from rfl, show " I".toList = [' ', 'I'] from rfl,
        show " C".toList = [' ', 'C'] from rfl]
      unfold tagsOf
      simp only [List.append_assoc, List.cons_append, List.nil_append]

theorem exists_render (hwidth : 0 < header.width) (hheight : 0 < header.height)
    (hyuv : header.format.isYuv = true) : exists line, header.render = .ok line := by
  rcases Colorspace.exists_token hyuv with ⟨token, htoken⟩
  have hsize : ¬ (header.width = 0 ∨ header.height = 0) :=
    not_or.mpr ⟨Nat.ne_of_gt hwidth, Nat.ne_of_gt hheight⟩
  unfold render
  rw [if_neg hsize, htoken]
  exact ⟨_, rfl⟩

/-!
## Characters
-/

theorem inline_numeral (n : Nat) : Inline (Decimal.render n) := by
  intro c hc
  have hdigit := Char.isDigit_iff_toNat.mp (Decimal.isDigit_of_mem_render hc)
  constructor
  · exact Nat.lt_of_le_of_lt hdigit.right (by decide)
  · intro heq
    subst heq
    exact absurd hdigit.left (by decide)

theorem inline_ratio (r : Ratio) : Inline r.render :=
  inline_append.mpr ⟨inline_numeral r.num,
    inline_cons.mpr ⟨by decide, inline_numeral r.den⟩⟩

theorem space_not_mem_numeral (n : Nat) : ' ' ∉ Decimal.render n := by
  intro hmem
  have hdigit := Decimal.isDigit_of_mem_render hmem
  cases hdigit

theorem space_not_mem_ratio (r : Ratio) : ' ' ∉ r.render := by
  intro hmem
  rcases List.mem_append.mp hmem with hnum | hden
  · exact space_not_mem_numeral r.num hnum
  · rcases List.mem_cons.mp hden with hcolon | hden
    · cases hcolon
    · exact space_not_mem_numeral r.den hden

theorem space_not_mem_cons {c : Char} {word : List Char} (hc : c ≠ ' ') (h : ' ' ∉ word) :
    ' ' ∉ c :: word := by
  intro hmem
  rcases List.mem_cons.mp hmem with heq | hrest
  · exact hc heq.symm
  · exact h hrest

theorem inline_letter (interlace : Interlace) :
    interlace.letter.toNat < 0x80 ∧ interlace.letter ≠ '\n' := by
  cases interlace <;> decide

theorem inline_render (h : header.render = .ok line) (hwords : header.Words) :
    Inline line.toList ∧ line.toList.length < 200 := by
  rcases render_eq_ok h with ⟨_, _, token, htoken, hline⟩
  rcases Colorspace.inline_token htoken with ⟨hinline, hlength⟩
  have hopening : Inline opening.toList := by decide
  have hempty : Inline [] := fun _ hc => (List.not_mem_nil hc).elim
  have hletter := inline_letter header.interlace
  constructor
  · rw [hline]
    unfold tagsOf
    simp only [inline_append, inline_cons, hopening, inline_numeral, inline_ratio, ne_eq, hletter,
      hempty, hinline]
    decide
  · have hwidth := Decimal.length_render_le hwords.width
    have hheight := Decimal.length_render_le hwords.height
    have hrate := Ratio.length_render_le hwords.rate
    have haspect := Ratio.length_render_le hwords.aspect
    have hlengths : opening.toList.length = 9 := rfl
    rw [hline]
    unfold tagsOf
    simp only [List.length_append, List.length_cons, List.length_nil, hlengths]
    omega

/-!
## Tags
-/

theorem dimension?_render {n : Nat} (hpos : 0 < n) (h : n < UInt32.size) :
    dimension? (Decimal.render n) = some n := by
  unfold dimension?
  rw [Decimal.parse?_render h]
  cases n with
  | zero => cases hpos
  | succ n => rfl

theorem ratio?_render {r : Ratio} (h : r.Words) : ratio? r.render = some r := by
  unfold ratio?
  rw [Ratio.parse_render h]

theorem interlace?_letter (interlace : Interlace) :
    interlace? [interlace.letter] = some interlace := by
  cases interlace <;> rfl

theorem read_comments {comments : List (List Char)}
    (h : forall word, word ∈ comments -> word.head? = some 'X') :
    comments.foldlM Draft.read draft = .ok draft := by
  induction comments with
  | nil => rfl
  | cons word rest ih =>
      rw [List.forall_mem_cons] at h
      rcases List.head?_eq_some_iff.mp h.left with ⟨text, rfl⟩
      exact ih h.right

theorem read_colorspace {text : List Char} {format : Format}
    (h : Colorspace.format? text = some format) :
    Draft.read draft ('C' :: text) = .ok { draft with format } := by
  simp only [Draft.read, h]

theorem read_token {token : String} (draft : Draft)
    (h : Colorspace.token? header.format = some token) :
    exists canonical, Colorspace.canonical? header.format = some canonical ∧
      (words ('C' :: token.toList)).foldlM Draft.read draft =
        .ok { draft with format := canonical } := by
  rcases Colorspace.canonical?_spec h with ⟨canonical, hcanonical, _⟩
  rcases Colorspace.words_token h with ⟨comments, hwords, hcomments⟩
  have hformat : Colorspace.format? (token.toList.takeWhile (· != ' ')) = some canonical := by
    unfold Colorspace.canonical? at hcanonical
    rw [h] at hcanonical
    exact hcanonical
  refine ⟨canonical, hcanonical, ?_⟩
  rw [hwords, List.foldlM_cons, read_colorspace hformat]
  exact read_comments hcomments

/-- Reading the line of a header gives the header back, with its canonical format. -/
theorem parse_render (h : header.render = .ok line) (hwords : header.Words) :
    exists canonical, Colorspace.canonical? header.format = some canonical ∧
      parse line.toList = .ok { header with format := canonical } := by
  rcases render_eq_ok h with ⟨hwidth, hheight, token, htoken, hline⟩
  have hnumeral := fun c (hc : c ≠ ' ') n => space_not_mem_cons hc (space_not_mem_numeral n)
  have hratio := fun c (hc : c ≠ ' ') r => space_not_mem_cons hc (space_not_mem_ratio r)
  have hletter : ' ' ∉ ['I', header.interlace.letter] := by
    cases header.interlace <;> decide
  have hsplit : words line.toList =
      opening.toList :: ('W' :: Decimal.render header.width) ::
        ('H' :: Decimal.render header.height) :: ('F' :: header.rate.render) ::
          ('A' :: header.aspect.render) :: ['I', header.interlace.letter] ::
            words ('C' :: token.toList) := by
    rw [hline]
    unfold tagsOf
    rw [words_cons (by decide) (by decide),
      words_cons (List.cons_ne_nil _ _) (hnumeral 'W' (by decide) _),
      words_cons (List.cons_ne_nil _ _) (hnumeral 'H' (by decide) _),
      words_cons (List.cons_ne_nil _ _) (hratio 'F' (by decide) _),
      words_cons (List.cons_ne_nil _ _) (hratio 'A' (by decide) _),
      words_cons (List.cons_ne_nil _ _) hletter]
  -- Only the last tag is more than one word: a token may carry comments.
  rcases read_token ⟨some header.width, some header.height, .i420, header.rate, header.aspect,
    header.interlace⟩ htoken with ⟨canonical, hcanonical, hread⟩
  refine ⟨canonical, hcanonical, ?_⟩
  unfold parse
  rw [hsplit]
  dsimp only [Draft.initial]
  rw [if_pos rfl]
  simp only [List.foldlM_cons, Draft.read, dimension?_render hwidth hwords.width,
    dimension?_render hheight hwords.height, ratio?_render hwords.rate,
    ratio?_render hwords.aspect, interlace?_letter, Draft.set]
  show (words ('C' :: token.toList)).foldlM Draft.read _ >>= Draft.finish = _
  rw [hread]
  rfl

/-!
## Compatibility
-/

theorem isCompatible_iff {stream image : Format} :
    isCompatible stream image = true ↔ stream.Alike image := by
  unfold isCompatible
  rw [Bool.and_eq_true, Bool.and_eq_true, beq_iff_eq, beq_iff_eq, beq_iff_eq]
  constructor
  · intro h'
    rcases h' with ⟨⟨hchroma, hcomponents⟩, hdepth⟩
    exact ⟨hchroma, hcomponents, hdepth⟩
  · intro h
    exact ⟨⟨h.chroma, h.components⟩, h.depth⟩

theorem check_eq_ok {view : View} :
    header.check view = .ok () ↔
      view.width = header.width ∧ view.height = header.height ∧
        header.format.Alike view.format := by
  unfold check
  split
  next hsize =>
    constructor
    · intro h
      cases h
    · intro h'
      rcases h' with ⟨hwidth, hheight, _⟩
      exact (hsize.elim (fun h => h hwidth) fun h => h hheight).elim
  next hsize =>
    rw [not_or, Decidable.not_not, Decidable.not_not] at hsize
    split
    next hno =>
      constructor
      · intro h
        cases h
      · intro h'
        rcases h' with ⟨_, _, halike⟩
        rw [isCompatible_iff.mpr halike] at hno
        cases hno
    next hyes =>
      rw [Bool.not_eq_true', Bool.not_eq_false] at hyes
      exact ⟨fun _ => ⟨hsize.left, hsize.right, isCompatible_iff.mp hyes⟩, fun _ => rfl⟩

end Header
end RawVideo

import RawVideo.Proofs.Stream.Opening

/-!
# The grammar of header lines

A reader accepts exactly the streams that open with a well-formed header line.  What the
line says depends on the texts behind each letter alone: every one of them has to be well
formed, and the last one counts.
-/

namespace RawVideo
namespace Header

variable {α : Type} {draft : Draft} {header : Header} {letter : Char} {text tag : List Char}
variable {tags : List (List Char)}

/-!
## Values of tags
-/

/-- A width or a height. -/
def SpellsSide (text : List Char) (n : Nat) : Prop :=
  0 < n ∧ Decimal.Spells text n ∧ n < UInt32.size

/-- Two numerals of 32 bits, split at the first colon. -/
def SpellsRatio (text : List Char) (r : Ratio) : Prop :=
  exists before after, text = before ++ ':' :: after ∧ ':' ∉ before ∧
    (Decimal.Spells before r.num ∧ r.num < UInt32.size) ∧
      Decimal.Spells after r.den ∧ r.den < UInt32.size

inductive SpellsInterlace : List Char -> Interlace -> Prop where
  | progressive : SpellsInterlace ['p'] .progressive
  | unknown : SpellsInterlace ['?'] .progressive
  | topFirst : SpellsInterlace ['t'] .topFirst
  | bottomFirst : SpellsInterlace ['b'] .bottomFirst
  | mixed : SpellsInterlace ['m'] .mixed

def SpellsFormat (text : List Char) (format : Format) : Prop :=
  Colorspace.format? text = some format

theorem dimension?_eq_some {n : Nat} : dimension? text = some n ↔ SpellsSide text n := by
  unfold SpellsSide dimension?
  rw [← Decimal.parse?_eq_some]
  cases Decimal.parse? UInt32.size text with
  | none =>
      constructor
      · intro h
        cases h
      · intro h
        cases h.right
  | some m =>
      cases m with
      | zero =>
          constructor
          · intro h
            cases h
          · intro h
            rcases h with ⟨hpos, hzero⟩
            cases hzero
            cases hpos
      | succ m =>
          constructor
          · intro h
            cases h
            exact ⟨Nat.succ_pos m, rfl⟩
          · intro h
            exact h.right

theorem ratio?_eq_some {r : Ratio} : ratio? text = some r ↔ SpellsRatio text r := by
  unfold SpellsRatio ratio?
  rw [← Ratio.parse_eq_ok]
  cases Ratio.parse text with
  | error error =>
      constructor
      · intro h
        cases h
      · intro h
        cases h
  | ok found =>
      constructor
      · intro h
        cases h
        rfl
      · intro h
        cases h
        rfl

theorem interlace?_eq_some {interlace : Interlace} :
    interlace? text = some interlace ↔ SpellsInterlace text interlace := by
  constructor
  · intro h
    unfold interlace? at h
    split at h
    next c =>
      unfold Interlace.ofLetter? at h
      split at h
      next =>
        cases h
        exact SpellsInterlace.progressive
      next =>
        cases h
        exact SpellsInterlace.unknown
      next =>
        cases h
        exact SpellsInterlace.topFirst
      next =>
        cases h
        exact SpellsInterlace.bottomFirst
      next =>
        cases h
        exact SpellsInterlace.mixed
      next => cases h
    next => cases h
  · intro h
    cases h with
    | progressive => rfl
    | unknown => rfl
    | topFirst => rfl
    | bottomFirst => rfl
    | mixed => rfl

/-!
## Texts behind a letter
-/

/-- The text of a tag, if it starts with this letter. -/
def textOf (letter : Char) : List Char -> Option (List Char)
  | [] => none
  | c :: text => if c = letter then some text else none

/-- The texts of the tags with a letter, in order. -/
def texts (letter : Char) (tags : List (List Char)) : List (List Char) :=
  tags.filterMap (textOf letter)

theorem texts_nil (letter : Char) : texts letter [] = [] := rfl

theorem texts_cons_self (letter : Char) (text : List Char) (tags : List (List Char)) :
    texts letter ((letter :: text) :: tags) = text :: texts letter tags :=
  List.filterMap_cons_some (if_pos rfl)

theorem texts_cons_of_ne {c : Char} (h : c ≠ letter) (text : List Char)
    (tags : List (List Char)) : texts letter ((c :: text) :: tags) = texts letter tags :=
  List.filterMap_cons_none (if_neg h)

theorem texts_cons_of_head_ne (h : tag.head? ≠ some letter) (tags : List (List Char)) :
    texts letter (tag :: tags) = texts letter tags := by
  cases tag with
  | nil => rfl
  | cons c text =>
      apply texts_cons_of_ne
      intro heq
      subst heq
      exact h rfl

/--
Every one of some texts has a value, and the last one counts.  Without texts the default
does, if there is one.
-/
structure Counts (Spells : List Char -> α -> Prop) (default : Option α)
    (texts : List (List Char)) (value : α) : Prop where
  every : forall text, text ∈ texts -> exists a, Spells text a
  last : forall text, texts.getLast? = some text -> Spells text value
  default : texts = [] -> default = some value

section Counts

variable {Spells : List Char -> α -> Prop} {default : Option α} {value : α}
variable {others : List (List Char)}

theorem counts_nil : Counts Spells default [] value ↔ default = some value := by
  constructor
  · intro h
    exact h.default rfl
  · intro h
    exact ⟨fun _ hmem => (List.not_mem_nil hmem).elim, (fun _ hlast => nomatch hlast),
      fun _ => h⟩

theorem counts_cons :
    Counts Spells default (text :: others) value ↔
      exists a, Spells text a ∧ Counts Spells (some a) others value := by
  cases others with
  | nil =>
      constructor
      · intro h
        exact ⟨value, h.last text rfl, counts_nil.mpr rfl⟩
      · intro h'
        rcases h' with ⟨a, htext, hrest⟩
        cases counts_nil.mp hrest
        refine ⟨?_, ?_, ?_⟩
        · intro other hother
          rw [List.mem_singleton.mp hother]
          exact ⟨value, htext⟩
        · intro other hother
          cases hother
          exact htext
        · intro hnil
          cases hnil
  | cons next others =>
      constructor
      · intro h
        rcases h.every text List.mem_cons_self with ⟨a, htext⟩
        refine ⟨a, htext, ?_, ?_, ?_⟩
        · intro other hother
          exact h.every other (List.mem_cons_of_mem text hother)
        · intro other hother
          exact h.last other hother
        · intro hnil
          cases hnil
      · intro h'
        rcases h' with ⟨a, htext, hrest⟩
        refine ⟨?_, ?_, ?_⟩
        · rw [List.forall_mem_cons]
          exact ⟨⟨a, htext⟩, hrest.every⟩
        · intro other hother
          exact hrest.last other hother
        · intro hnil
          cases hnil

theorem Counts.spelled (h : Counts Spells none others value) : exists text, Spells text value := by
  cases hlast : others.getLast? with
  | none => cases h.default (List.getLast?_eq_none_iff.mp hlast)
  | some text => exact ⟨text, h.last text hlast⟩

end Counts

/-!
## Tags
-/

/-- A draft and the tags that follow it say what a header says. -/
structure Told (draft : Draft) (tags : List (List Char)) (header : Header) : Prop where
  width : Counts SpellsSide draft.width (texts 'W' tags) header.width
  height : Counts SpellsSide draft.height (texts 'H' tags) header.height
  rate : Counts SpellsRatio (some draft.rate) (texts 'F' tags) header.rate
  aspect : Counts SpellsRatio (some draft.aspect) (texts 'A' tags) header.aspect
  interlace :
    Counts SpellsInterlace (some draft.interlace) (texts 'I' tags) header.interlace
  format : Counts SpellsFormat (some draft.format) (texts 'C' tags) header.format

theorem set_eq_ok {c : Char} {value? : Option α} {update : α -> Draft} {next : Draft} :
    Draft.set c text value? update = .ok next ↔ exists a, value? = some a ∧ update a = next := by
  cases value? with
  | none =>
      constructor
      · intro h
        cases h
      · intro h'
        rcases h' with ⟨a, ha, _⟩
        cases ha
  | some a =>
      constructor
      · intro h
        cases h
        exact ⟨a, rfl, rfl⟩
      · intro h'
        rcases h' with ⟨b, hb, rfl⟩
        cases hb
        rfl

theorem told_iff : Told draft tags header ↔
    Counts SpellsSide draft.width (texts 'W' tags) header.width ∧
    Counts SpellsSide draft.height (texts 'H' tags) header.height ∧
    Counts SpellsRatio (some draft.rate) (texts 'F' tags) header.rate ∧
    Counts SpellsRatio (some draft.aspect) (texts 'A' tags) header.aspect ∧
    Counts SpellsInterlace (some draft.interlace) (texts 'I' tags) header.interlace ∧
    Counts SpellsFormat (some draft.format) (texts 'C' tags) header.format :=
  ⟨fun ⟨a, b, c, d, e, f⟩ => ⟨a, b, c, d, e, f⟩, fun ⟨a, b, c, d, e, f⟩ => ⟨a, b, c, d, e, f⟩⟩

/-- The letters of the tags that a header line is read for. -/
def letters : List Char :=
  ['W', 'H', 'F', 'A', 'I', 'C']

/-- The header that tags tell on their own. -/
def Tells (tags : List (List Char)) (header : Header) : Prop :=
  Told ⟨none, none, .i420, ⟨0, 0⟩, ⟨0, 0⟩, .progressive⟩ tags header

/-- Tags with the same texts behind each letter say the same. -/
theorem told_congr {others : List (List Char)}
    (h : forall letter, letter ∈ letters -> texts letter tags = texts letter others) :
    Told draft tags header ↔ Told draft others header := by
  unfold letters at h
  simp only [List.forall_mem_cons] at h
  rcases h with ⟨hwidth, hheight, hrate, haspect, hinterlace, hformat, _⟩
  rw [told_iff, told_iff, hwidth, hheight, hrate, haspect, hinterlace, hformat]

theorem told_nil : Told draft [] header ↔ draft.finish = .ok header := by
  rw [told_iff]
  simp only [texts_nil, counts_nil]
  rcases draft with ⟨width, height, format, rate, aspect, interlace⟩
  rcases header with ⟨format', width', height', rate', aspect', interlace'⟩
  unfold Draft.finish
  cases width with
  | none => simp
  | some w =>
      cases height with
      | none => simp
      | some h => grind

theorem told_cons : Told draft (tag :: tags) header ↔
    exists next, draft.read tag = .ok next ∧ Told next tags header := by
  unfold Draft.read
  split
  next =>
    simp only [Except.ok.injEq, exists_eq_left']
    exact told_congr fun _ _ => rfl
  iterate 5
    next text =>
      -- Only the texts behind this letter grow, and only its value is replaced.
      simp (disch := decide) only [told_iff, set_eq_ok, dimension?_eq_some, ratio?_eq_some,
        interlace?_eq_some, texts_cons_self, texts_cons_of_ne, counts_cons,
        exists_exists_and_eq_and]
      grind
  next text =>
    simp (disch := decide) only [told_iff, texts_cons_self, texts_cons_of_ne, counts_cons]
    unfold SpellsFormat
    cases Colorspace.format? text <;> simp
  next c text hwidth hheight hrate haspect hinterlace hformat =>
    simp only [Except.ok.injEq, exists_eq_left']
    apply told_congr
    intro letter hletter
    apply texts_cons_of_ne
    rintro rfl
    simp only [letters, List.mem_cons, List.not_mem_nil, or_false] at hletter
    rcases hletter with h | h | h | h | h | h
    exacts [hwidth h, hheight h, hrate h, haspect h, hinterlace h, hformat h]

theorem foldlM_finish_eq_ok :
    (tags.foldlM Draft.read draft >>= Draft.finish) = .ok header ↔ Told draft tags header := by
  induction tags generalizing draft with
  | nil => exact told_nil.symm
  | cons tag tags ih =>
      rw [List.foldlM_cons, bind_assoc, Checked.bind_eq_ok, told_cons]
      simp only [ih]

theorem parse_eq_ok {line : List Char} :
    parse line = .ok header ↔
      exists tags, words line = opening.toList :: tags ∧ Tells tags header := by
  unfold parse
  cases words line with
  | nil =>
      constructor
      · intro h
        cases h
      · intro h'
        rcases h' with ⟨tags, hwords, _⟩
        cases hwords
  | cons first rest =>
      dsimp only
      split
      next hfirst =>
        rw [hfirst, foldlM_finish_eq_ok]
        constructor
        · intro h
          exact ⟨rest, rfl, h⟩
        · intro h'
          rcases h' with ⟨tags, hwords, h⟩
          cases hwords
          exact h
      next hfirst =>
        constructor
        · intro h
          cases h
        · intro h'
          rcases h' with ⟨tags, hwords, _⟩
          cases hwords
          exact (hfirst rfl).elim

theorem sides_lt_of_parse {line : List Char} (h : parse line = .ok header) :
    header.width < UInt32.size ∧ header.height < UInt32.size := by
  rcases parse_eq_ok.mp h with ⟨tags, _, htold⟩
  rcases htold.width.spelled with ⟨_, _, _, hwidth⟩
  rcases htold.height.spelled with ⟨_, _, _, hheight⟩
  exact ⟨hwidth, hheight⟩

/-!
## Orders of tags
-/

/-- Tags in another order, but for those with one letter, which stay in order. -/
inductive Reordered : List (List Char) -> List (List Char) -> Prop where
  | same {tags : List (List Char)} : Reordered tags tags
  | swap {first second : List Char} (before after : List (List Char)) :
      first.head? ≠ second.head? ->
      Reordered (before ++ first :: second :: after) (before ++ second :: first :: after)
  | trans {tags others third : List (List Char)} :
      Reordered tags others -> Reordered others third -> Reordered tags third

theorem texts_append (letter : Char) (tags others : List (List Char)) :
    texts letter (tags ++ others) = texts letter tags ++ texts letter others :=
  List.filterMap_append

theorem texts_swap {first second : List Char} (h : first.head? ≠ second.head?) (letter : Char)
    (tags : List (List Char)) :
    texts letter (first :: second :: tags) = texts letter (second :: first :: tags) := by
  by_cases hfirst : first.head? = some letter
  · have hsecond : second.head? ≠ some letter := fun heq => h (hfirst.trans heq.symm)
    rcases List.head?_eq_some_iff.mp hfirst with ⟨text, rfl⟩
    rw [texts_cons_self, texts_cons_of_head_ne hsecond, texts_cons_of_head_ne hsecond,
      texts_cons_self]
  · rw [texts_cons_of_head_ne hfirst]
    by_cases hsecond : second.head? = some letter
    · rcases List.head?_eq_some_iff.mp hsecond with ⟨text, rfl⟩
      rw [texts_cons_self, texts_cons_self, texts_cons_of_head_ne hfirst]
    · rw [texts_cons_of_head_ne hsecond, texts_cons_of_head_ne hsecond,
        texts_cons_of_head_ne hfirst]

theorem Reordered.texts_eq {others : List (List Char)} (h : Reordered tags others)
    (letter : Char) : texts letter tags = texts letter others := by
  induction h with
  | same => rfl
  | swap _ _ hletters => rw [texts_append, texts_append, texts_swap hletters]
  | trans _ _ hfirst hsecond => exact hfirst.trans hsecond

theorem Reordered.tells_iff {others : List (List Char)} (h : Reordered tags others) :
    Tells tags header ↔ Tells others header :=
  told_congr fun letter _ => h.texts_eq letter

/-!
## Well-formed tags
-/

theorem mem_texts : text ∈ texts letter tags ↔ letter :: text ∈ tags := by
  unfold texts
  rw [List.mem_filterMap]
  constructor
  · intro h'
    rcases h' with ⟨tag, htag, htext⟩
    cases tag with
    | nil => cases htext
    | cons c rest =>
        unfold textOf at htext
        rw [Option.ite_none_right_eq_some] at htext
        rcases htext with ⟨rfl, hrest⟩
        cases hrest
        exact htag
  · intro h
    exact ⟨letter :: text, h, if_pos rfl⟩

/-- Every tag that a header line is read for has a value, and there are a width and a height. -/
structure WellFormed (tags : List (List Char)) : Prop where
  width : forall text, 'W' :: text ∈ tags -> exists n, SpellsSide text n
  height : forall text, 'H' :: text ∈ tags -> exists n, SpellsSide text n
  rate : forall text, 'F' :: text ∈ tags -> exists r, SpellsRatio text r
  aspect : forall text, 'A' :: text ∈ tags -> exists r, SpellsRatio text r
  interlace : forall text, 'I' :: text ∈ tags -> exists interlace, SpellsInterlace text interlace
  format : forall text, 'C' :: text ∈ tags -> exists format, SpellsFormat text format
  anyWidth : exists text, 'W' :: text ∈ tags
  anyHeight : exists text, 'H' :: text ∈ tags

theorem exists_counts {Spells : List Char -> α -> Prop} {default : Option α}
    {texts : List (List Char)} :
    (exists value, Counts Spells default texts value) ↔
      (forall text, text ∈ texts -> exists a, Spells text a) ∧
        (texts = [] -> exists a, default = some a) := by
  constructor
  · intro h'
    rcases h' with ⟨value, h⟩
    exact ⟨h.every, fun hnil => ⟨value, h.default hnil⟩⟩
  · intro h'
    rcases h' with ⟨hevery, hdefault⟩
    cases hlast : texts.getLast? with
    | none =>
        have hnil := List.getLast?_eq_none_iff.mp hlast
        rcases hdefault hnil with ⟨a, ha⟩
        exact ⟨a, hevery, (fun _ hsome => nomatch hlast.symm.trans hsome), fun _ => ha⟩
    | some text =>
        rcases hevery text (List.mem_of_getLast? hlast) with ⟨a, ha⟩
        refine ⟨a, hevery, ?_, ?_⟩
        · intro other hother
          rw [hlast] at hother
          cases hother
          exact ha
        · intro hnil
          rw [hnil] at hlast
          cases hlast

theorem wellFormed_iff : WellFormed tags ↔ exists header, Tells tags header := by
  have hany : forall letter, (exists text, letter :: text ∈ tags) ↔ texts letter tags ≠ [] := by
    intro letter
    simp only [← mem_texts]
    exact ⟨fun ⟨_, hmem⟩ => List.ne_nil_of_mem hmem, List.exists_mem_of_ne_nil _⟩
  constructor
  · intro h
    have hwidth : exists n, Counts SpellsSide none (texts 'W' tags) n :=
      exists_counts.mpr ⟨fun text hmem => h.width text (mem_texts.mp hmem),
        fun hnil => absurd hnil ((hany 'W').mp h.anyWidth)⟩
    have hheight : exists n, Counts SpellsSide none (texts 'H' tags) n :=
      exists_counts.mpr ⟨fun text hmem => h.height text (mem_texts.mp hmem),
        fun hnil => absurd hnil ((hany 'H').mp h.anyHeight)⟩
    have hrate := exists_counts.mpr ⟨fun text hmem => h.rate text (mem_texts.mp hmem),
      fun _ => ⟨Ratio.unknown, rfl⟩⟩
    have haspect := exists_counts.mpr ⟨fun text hmem => h.aspect text (mem_texts.mp hmem),
      fun _ => ⟨Ratio.unknown, rfl⟩⟩
    have hinterlace := exists_counts.mpr
      ⟨fun text hmem => h.interlace text (mem_texts.mp hmem), fun _ => ⟨.progressive, rfl⟩⟩
    have hformat := exists_counts.mpr ⟨fun text hmem => h.format text (mem_texts.mp hmem),
      fun _ => ⟨.i420, rfl⟩⟩
    rcases hwidth with ⟨width, hwidth⟩
    rcases hheight with ⟨height, hheight⟩
    rcases hrate with ⟨rate, hrate⟩
    rcases haspect with ⟨aspect, haspect⟩
    rcases hinterlace with ⟨interlace, hinterlace⟩
    rcases hformat with ⟨format, hformat⟩
    exact ⟨⟨format, width, height, rate, aspect, interlace⟩,
      hwidth, hheight, hrate, haspect, hinterlace, hformat⟩
  · intro h'
    rcases h' with ⟨header, h⟩
    exact ⟨fun text hmem => h.width.every text (mem_texts.mpr hmem),
      fun text hmem => h.height.every text (mem_texts.mpr hmem),
      fun text hmem => h.rate.every text (mem_texts.mpr hmem),
      fun text hmem => h.aspect.every text (mem_texts.mpr hmem),
      fun text hmem => h.interlace.every text (mem_texts.mpr hmem),
      fun text hmem => h.format.every text (mem_texts.mpr hmem),
      (hany 'W').mpr (fun hnil => nomatch h.width.default hnil),
      (hany 'H').mpr (fun hnil => nomatch h.height.default hnil)⟩

end Header

namespace Reader

open StreamFrame

variable {header : Header} {stream : List UInt8} {reader : Reader}

/-- A stream opens with a header line of these tags. -/
def Announces (stream : List UInt8) (tags : List (List Char)) (rest : List UInt8) : Prop :=
  exists text, Opens stream text rest ∧ Header.words text = "YUV4MPEG2".toList :: tags

theorem answers_start_told : Attempt.Answers (start stream) reader ↔
    reader.frames = 0 ∧ exists tags, Announces stream tags reader.rest ∧
      Header.Tells tags reader.header ∧ Limited reader.header := by
  rw [answers_start_iff]
  constructor
  · intro h'
    rcases h' with ⟨hframes, text, hopens, hparse, hcheck⟩
    rcases Header.parse_eq_ok.mp hparse with ⟨tags, hwords, htold⟩
    exact ⟨hframes, tags, ⟨text, hopens, hwords⟩, htold, checkSize_eq_ok.mp hcheck⟩
  · intro h'
    rcases h' with ⟨hframes, tags, hannounces, htold, hlimited⟩
    rcases hannounces with ⟨text, hopens, hwords⟩
    exact ⟨hframes, text, hopens, Header.parse_eq_ok.mpr ⟨tags, hwords, htold⟩,
      checkSize_eq_ok.mpr hlimited⟩

theorem Opens.unique {text text' : List Char} {rest rest' : List UInt8}
    (h : Opens stream text rest) (h' : Opens stream text' rest') : text = text' ∧ rest = rest' := by
  have hrun := h.answers_readLine.symm.trans h'.answers_readLine
  injection hrun with hpair
  injection hpair with hline hrest
  injection hline with hline
  injection hline with hline
  have htext := Utf8.decode?_eq_some.mpr hline
  rw [Utf8.decode?_eq_some.mpr rfl] at htext
  injection htext with htext
  exact ⟨htext.symm, hrest⟩

theorem Announces.unique {tags tags' : List (List Char)} {rest rest' : List UInt8}
    (h : Announces stream tags rest) (h' : Announces stream tags' rest') :
    tags = tags' ∧ rest = rest' := by
  rcases h with ⟨text, hopens, hwords⟩
  rcases h' with ⟨text', hopens', hwords'⟩
  rcases hopens.unique hopens' with ⟨rfl, hrest⟩
  rw [hwords] at hwords'
  injection hwords' with _ htags
  exact ⟨htags, hrest⟩

/-- Behind a known line, a reader starts exactly with the headers that its tags tell. -/
theorem Announces.answers_start_iff {tags : List (List Char)} {rest : List UInt8}
    (h : Announces stream tags rest) :
    Attempt.Answers (start stream) ⟨header, 0, rest⟩ ↔
      Header.Tells tags header ∧ Limited header := by
  rw [answers_start_told]
  constructor
  · intro h'
    rcases h' with ⟨_, tags', hannounces, hheader⟩
    rcases h.unique hannounces with ⟨rfl, _⟩
    exact hheader
  · intro hheader
    exact ⟨rfl, tags, h, hheader⟩

/--
A reader accepts exactly the streams that open with a short line of well-formed tags whose
frames are not too large.  The tags tell the header, and those of different letters may
change places.
-/
theorem headers_follow_their_grammar :
    (forall stream, (exists reader, Attempt.Answers (start stream) reader) ↔
      exists tags rest, Announces stream tags rest ∧ Header.WellFormed tags ∧
        exists header, Header.Tells tags header ∧ Limited header) ∧
    (forall stream reader, Attempt.Answers (start stream) reader ↔
      reader.frames = 0 ∧ exists tags, Announces stream tags reader.rest ∧
        Header.Tells tags reader.header ∧ Limited reader.header) ∧
    forall stream other tags tags' rest rest' header, Announces stream tags rest ->
      Announces other tags' rest' -> Header.Reordered tags tags' ->
        (Attempt.Answers (start stream) ⟨header, 0, rest⟩ ↔
          Attempt.Answers (start other) ⟨header, 0, rest'⟩) := by
  refine ⟨?_, fun _ _ => answers_start_told, ?_⟩
  · intro stream
    constructor
    · intro h'
      rcases h' with ⟨reader, h⟩
      rcases answers_start_told.mp h with ⟨_, tags, hannounces, htold, hlimited⟩
      exact ⟨tags, reader.rest, hannounces, Header.wellFormed_iff.mpr ⟨_, htold⟩,
        reader.header, htold, hlimited⟩
    · intro h'
      rcases h' with ⟨tags, rest, hannounces, _, header, hheader⟩
      exact ⟨⟨header, 0, rest⟩, hannounces.answers_start_iff.mpr hheader⟩
  · intro stream other tags tags' rest rest' header hannounces hannounces' hreordered
    rw [hannounces.answers_start_iff, hannounces'.answers_start_iff, hreordered.tells_iff]

/-- Tags in either order, with a plus sign, a letter twice and a letter of no meaning. -/
theorem headers_follow_their_grammar_reordered :
    exists (stream other : List UInt8) (tags tags' : List (List Char)) (header : Header),
      Announces stream tags [1, 2] ∧ Announces other tags' [3] ∧
        Header.Reordered tags tags' ∧ Header.WellFormed tags ∧
          Attempt.Answers (start stream) ⟨header, 0, [1, 2]⟩ ∧
            Attempt.Answers (start other) ⟨header, 0, [3]⟩ := by
  rcases headers_follow_their_grammar with ⟨haccepts, htells, hreorders⟩
  have hopens : forall text rest, newline ∉ Utf8.encode text ->
      (Utf8.encode text).length < 1024 ->
        Opens (Utf8.encode text ++ newline :: rest) text rest :=
    fun _ _ hfirst hshort => ⟨rfl, hfirst, hshort⟩
  have hannounces : Announces _ ["W4".toList, "H+2".toList, "W8".toList, "Xé".toList] [1, 2] :=
    ⟨"YUV4MPEG2 W4  H+2 W8 Xé".toList, hopens _ _ (by decide) (by decide), rfl⟩
  have hannounces' : Announces _ ["H+2".toList, "W4".toList, "Xé".toList, "W8".toList] [3] :=
    ⟨"YUV4MPEG2 H+2 W4 Xé W8".toList, hopens _ _ (by decide) (by decide), rfl⟩
  have hreordered : Header.Reordered ["W4".toList, "H+2".toList, "W8".toList, "Xé".toList]
      ["H+2".toList, "W4".toList, "Xé".toList, "W8".toList] :=
    Header.Reordered.trans (Header.Reordered.swap [] _ (by decide))
      (Header.Reordered.swap ["H+2".toList, "W4".toList] [] (by decide))
  have htold : Header.Tells ["W4".toList, "H+2".toList, "W8".toList, "Xé".toList]
      ⟨.i420, 8, 2, Ratio.unknown, Ratio.unknown, .progressive⟩ :=
    Header.foldlM_finish_eq_ok.mp rfl
  have hlayout : Layout.compute .i420 8 2 =
      .ok ⟨.i420, 8, 2, #v[16, 8, 8, 0], #v[16, 8, 8, 0], #v[0, 256, 320, 0], 384⟩ := by
    decide +kernel
  have hstart := (htells _ ⟨_, 0, _⟩).mpr
    ⟨rfl, _, hannounces, htold, _, hlayout, by decide⟩
  rcases (haccepts _).mp ⟨_, hstart⟩ with ⟨tags, rest, hfound, hwellFormed, _⟩
  rcases hannounces.unique hfound with ⟨rfl, rfl⟩
  exact ⟨_, _, _, _, _, hannounces, hannounces', hreordered, hwellFormed, hstart,
    (hreorders _ _ _ _ _ _ _ hannounces hannounces' hreordered).mp hstart⟩

end Reader
end RawVideo

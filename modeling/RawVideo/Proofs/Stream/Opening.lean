import RawVideo.Proofs.Stream.Read

/-!
# Openings of streams

A reader starts behind the first line of a stream.  It accepts that line exactly when it is
short and encodes a text that parses as a header whose frames are not too large.  The line
that a header is written as is one of these.
-/

namespace RawVideo
namespace Reader

open StreamFrame

variable {header : Header} {stream : List UInt8} {reader : Reader}

/-- A stream opens with the line of a text, and `rest` follows its newline. -/
structure Opens (stream : List UInt8) (text : List Char) (rest : List UInt8) : Prop where
  split : stream = Utf8.encode text ++ newline :: rest
  first : newline ∉ Utf8.encode text
  short : (Utf8.encode text).length < 1024

/-- The frames of a header have a layout, which is not too large. -/
def Limited (header : Header) : Prop :=
  exists layout, Layout.compute header.format header.width header.height = .ok layout ∧
    layout.size ≤ 256 * 1024 * 1024

theorem checkSize_eq_ok : checkSize header = .ok () ↔ Limited header := by
  unfold checkSize Limited
  rw [Checked.bind_eq_ok]
  constructor
  · intro h'
    rcases h' with ⟨layout, hlayout, h⟩
    split at h
    next => cases h
    next hsize => exact ⟨layout, hlayout, Nat.not_lt.mp hsize⟩
  · intro h'
    rcases h' with ⟨layout, hlayout, hsize⟩
    refine ⟨layout, hlayout, ?_⟩
    have hnot : ¬ frameLimit < layout.size := Nat.not_lt.mpr hsize
    rw [if_neg hnot]
    rfl

theorem headerOf_eq_ok {line? : Option (List UInt8)} : headerOf line? = .ok header ↔
    exists text, line? = some (Utf8.encode text) ∧ Header.parse text = .ok header ∧
      checkSize header = .ok () := by
  cases line? with
  | none =>
      constructor
      · intro h
        cases h
      · intro h'
        rcases h' with ⟨text, hline, _⟩
        cases hline
  | some line =>
      unfold headerOf
      dsimp only
      constructor
      · intro h
        split at h
        next => cases h
        next text htext =>
          rcases Checked.bind_eq_ok.mp h with ⟨found, hparse, h⟩
          rcases Checked.bind_eq_ok.mp h with ⟨_, hcheck, h⟩
          cases h
          exact ⟨text, congrArg some (Utf8.decode?_eq_some.mp htext).symm, hparse, hcheck⟩
      · intro h'
        rcases h' with ⟨text, hline, hparse, hcheck⟩
        cases hline
        rw [Utf8.decode?_eq_some.mpr rfl]
        dsimp only
        rw [Checked.bind_eq_ok]
        exact ⟨header, hparse, Checked.bind_eq_ok.mpr ⟨(), hcheck, rfl⟩⟩

theorem run_start {rest : List UInt8} {outcome : Except Error (Option (List UInt8))}
    (h : Source.readLine.run stream = .ok (outcome, rest)) :
    (start stream).run =
      .ok ((outcome >>= headerOf).map fun header => (⟨header, 0, rest⟩ : Reader)) := by
  have hopening : ExceptT.run (start.readOpening stream) =
      .ok (outcome.map fun line => (line, rest)) := by
    show (Source.readLine.run stream >>= _) = _
    rw [h]
    rfl
  unfold start
  rw [ExceptT.run_bind, hopening]
  cases outcome with
  | error error => rfl
  | ok line? =>
      show ExceptT.run (Attempt.ofExcept (headerOf line?) >>= _) = .ok ((headerOf line?).map _)
      cases headerOf line? with
      | error error => rfl
      | ok header => rfl

theorem settles_start (stream : List UInt8) : Attempt.Settles (start stream) := by
  rcases Source.run_readLine stream with ⟨outcome, rest, hrun, _⟩
  exact ⟨_, run_start hrun⟩

/-- Opening a file never faults, whether it is there or not and whatever it holds. -/
theorem settles_openFile (content? : Option (List UInt8)) :
    Attempt.Settles (openFile content?) := by
  cases content? with
  | none => exact Attempt.settles_throw _
  | some stream => exact settles_start stream

theorem Opens.answers_readLine {text : List Char} {rest : List UInt8}
    (h : Opens stream text rest) :
    Action.Answers Source.readLine stream (some (Utf8.encode text)) rest := by
  rw [h.split]
  exact Source.answers_readLine h.first h.short rest

theorem answers_start_iff : Attempt.Answers (start stream) reader ↔
    reader.frames = 0 ∧ exists text, Opens stream text reader.rest ∧
      Header.parse text = .ok reader.header ∧ checkSize reader.header = .ok () := by
  constructor
  · intro h
    rcases Source.run_readLine stream with ⟨outcome, rest, hrun, htaken⟩
    unfold Attempt.Answers at h
    rw [run_start hrun] at h
    injection h with h
    rcases Checked.map_eq_ok.mp h with ⟨header, hheader, rfl⟩
    rcases Checked.bind_eq_ok.mp hheader with ⟨line?, rfl, hheader⟩
    rcases headerOf_eq_ok.mp hheader with ⟨text, rfl, hparse, hcheck⟩
    cases htaken with
    | line hfirst hshort => exact ⟨rfl, text, ⟨rfl, hfirst, hshort⟩, hparse, hcheck⟩
  · intro h'
    rcases h' with ⟨hframes, text, hopens, hparse, hcheck⟩
    have hheader := headerOf_eq_ok.mpr ⟨text, rfl, hparse, hcheck⟩
    unfold Attempt.Answers
    rw [run_start hopens.answers_readLine]
    rcases reader with ⟨header, frames, rest⟩
    subst hframes
    show Except.ok ((headerOf (some (Utf8.encode text))).map _) = _
    rw [hheader]
    rfl

/-!
## Lines of written headers
-/

section Written

variable {line : String} {canonical : Format} {layout : Layout}

theorem answers_start (hline : header.render = .ok line) (hwords : header.Words)
    (hcanonical : Colorspace.canonical? header.format = some canonical)
    (hlayout : Layout.compute canonical header.width header.height = .ok layout)
    (hsize : layout.size ≤ frameLimit) (rest : List UInt8) :
    Attempt.Answers (start (ascii line ++ newline :: rest))
      ⟨{ header with format := canonical }, 0, rest⟩ := by
  rcases Header.inline_render hline hwords with ⟨hinline, hshort⟩
  rcases Header.parse_render hline hwords with ⟨found, hfound, hparse⟩
  rw [hcanonical] at hfound
  cases hfound
  have hencode : Utf8.encode line.toList = ascii line := encode_ascii hinline
  have hlength : (ascii line).length < 1024 := by
    rw [length_ascii]
    exact Nat.lt_trans hshort (by decide)
  have hopens : Opens (ascii line ++ newline :: rest) line.toList rest := by
    rw [← hencode]
    exact ⟨rfl, hencode ▸ newline_not_mem_ascii hinline, hencode ▸ hlength⟩
  exact answers_start_iff.mpr
    ⟨rfl, line.toList, hopens, hparse, checkSize_eq_ok.mpr ⟨layout, hlayout, hsize⟩⟩

end Written

end Reader
end RawVideo

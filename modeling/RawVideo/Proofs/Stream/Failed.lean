import RawVideo.Proofs.Stream.Progress

/-!
# Reads that report an error

A target that does not fit is refused before anything is taken from the stream, and a line
that opens no frame is reported before the target is touched.  A payload goes to the target
row by row, so one that ends early leaves the rows in front of the missing one there.  Where
the missing row is read in place, the stream decides what its front holds: all that is said
here is said for every way in which a stream may end.  Reads that answer do not depend on it.
-/

namespace RawVideo
namespace Reader

open StreamFrame

variable {target : View} {ending : Source.Ending} {memory : Memory} {reader : Reader}
variable {bytes rest : List UInt8} {error : Error} {job : Job}

/-!
## Reads that answer

A row that is read whole is never torn, so a read that answers would answer alike if its
stream ended in any other way.
-/

section Endings

variable {row : Nat × Nat} {count : Nat} {next : Job} {more : Bool}

theorem reader_of_tear (h : tear target ending row count job = .ok next) :
    next.reader = job.reader := by
  unfold tear at h
  split at h
  next =>
    rcases Checked.bind_eq_ok.mp h with ⟨memory, _, hnext⟩
    cases hnext
    rfl
  next =>
    cases h
    rfl

theorem answers_readExactly_iff :
    Action.Answers (onReader (onSource (Source.readExactly count ending))) job bytes next ↔
      count ≤ job.reader.rest.length ∧ bytes = job.reader.rest.take count ∧
        next = ⟨{ job.reader with rest := job.reader.rest.drop count }, job.target⟩ := by
  rcases job with ⟨⟨header, n, left⟩, memory⟩
  rcases Nat.lt_or_ge left.length count with hshort | henough
  · have hsource : Action.Reports (onSource (Source.readExactly count ending)) ⟨header, n, left⟩
        (.transport .endOfStream) _ :=
      reports_onSource (Source.reports_readExactly hshort ending)
    constructor
    · intro h
      have hsame := h.symm.trans (reports_onReader hsource memory)
      cases hsame
    · intro h
      exact absurd h.left (Nat.not_le_of_lt hshort)
  · have htaken := Source.answers_readExactly (List.length_take_of_le henough) ending
      (left.drop count)
    rw [List.take_append_drop] at htaken
    have hsource : Action.Answers (onSource (Source.readExactly count ending)) ⟨header, n, left⟩
        (left.take count) ⟨header, n, left.drop count⟩ :=
      answers_onSource htaken
    constructor
    · intro h
      have hsame := h.symm.trans (answers_onReader hsource memory)
      cases hsame
      exact ⟨henough, rfl, rfl⟩
    · intro h
      rcases h with ⟨_, rfl, rfl⟩
      exact answers_onReader hsource memory

theorem answers_readRow_of (other : Source.Ending)
    (h : Action.Answers (readRow target ending row) job () next) :
    Action.Answers (readRow target other row) job () next := by
  unfold readRow at h ⊢
  rcases Action.answers_bind.mp h with ⟨count, first, hcount, hrest⟩
  rcases Action.ofAttempt_eq_ok hcount with ⟨_, rfl⟩
  rcases Action.answers_bind.mp hrest with ⟨_, torn, htorn, hstored⟩
  rcases Action.answers_bind.mp hstored with ⟨bytes, taken, htaken, hstore⟩
  have htear : tear target ending row count first = .ok torn :=
    Action.answers_update_iff.mp htorn
  have henough : count ≤ first.reader.rest.length :=
    reader_of_tear htear ▸ (answers_readExactly_iff.mp htaken).left
  have hsame := htear.symm.trans (tear_of_le henough)
  cases hsame
  apply hcount.bind
  apply (Action.answers_update (tear_of_le henough)).bind
  exact (answers_readExactly_iff.mpr (answers_readExactly_iff.mp htaken)).bind hstore

theorem answers_readRows_of {rows : List (Nat × Nat)} (other : Source.Ending)
    (h : Action.Answers (rows.forM (readRow target ending)) job () next) :
    Action.Answers (rows.forM (readRow target other)) job () next := by
  induction rows generalizing job with
  | nil => exact h
  | cons row rows ih =>
      rcases Action.answers_bind.mp h with ⟨_, middle, hrow, hrows⟩
      exact (answers_readRow_of other hrow).bind (ih hrows)

theorem answers_readPayload_of (other : Source.Ending)
    (h : Action.Answers (readPayload target ending) job () next) :
    Action.Answers (readPayload target other) job () next := by
  unfold readPayload at h ⊢
  rcases Action.answers_bind.mp h with ⟨_, _, hrows, hcounted⟩
  rcases Action.answers_bind.mp hcounted with ⟨_, _, hstored, hcount⟩
  exact hrows.bind ((answers_readRows_of other hstored).bind hcount)

theorem answers_readInto_of (other : Source.Ending)
    (h : Action.Answers (readInto target ending) job more next) :
    Action.Answers (readInto target other) job more next := by
  unfold readInto at h ⊢
  rcases Action.answers_bind.mp h with ⟨_, _, hget, hchecked⟩
  rcases Action.answers_bind.mp hchecked with ⟨_, _, hcheck, hmarked⟩
  rcases Action.answers_bind.mp hmarked with ⟨found, _, hmarker, hpayload⟩
  refine hget.bind (hcheck.bind (hmarker.bind ?_))
  cases found with
  | false =>
      rw [if_neg Bool.false_ne_true] at hpayload ⊢
      exact hpayload
  | true =>
      rw [if_pos rfl] at hpayload ⊢
      rcases Action.answers_bind.mp hpayload with ⟨_, _, hread, hdone⟩
      exact (answers_readPayload_of other hread).bind hdone

/-- How a stream ends matters only to a read that reports an error. -/
theorem answers_readInto_congr (ending other : Source.Ending) :
    Action.Answers (readInto target ending) job more next ↔
      Action.Answers (readInto target other) job more next :=
  ⟨answers_readInto_of other, answers_readInto_of ending⟩

end Endings

/-!
## Ways to fail
-/

/-- The error says that a picture does not fit a stream. -/
def unfit : Error -> Bool
  | .frameSize .. => true
  | .frameFormat .. => true
  | _ => false

/-- The bytes behind a marker line are fewer than those of a payload. -/
def CutShort (target : View) (stream bytes : List UInt8) : Prop :=
  exists line, MarkerLine line ∧ stream = line ++ newline :: bytes ∧
    bytes.length < payloadLength target

/-- The errors that reading into a target reports, and the job that each of them leaves. -/
inductive Failed (target : View) (ending : Source.Ending) (reader : Reader) (memory : Memory) :
    Error -> Job -> Prop where
  | refused {error : Error} :
      reader.header.check target = .error error ->
      Failed target ending reader memory error ⟨reader, memory⟩
  | line {error : Error} {rest : List UInt8} :
      Source.LineTaken reader.rest (.error error) rest ->
      Failed target ending reader memory error ⟨{ reader with rest }, memory⟩
  | marker {line rest : List UInt8} :
      Source.LineTaken reader.rest (.ok (some line)) rest ->
      ¬ isMarker line = true ->
      Failed target ending reader memory
        (.frameMarker (String.ofList (Utf8.decodeLoosely line))) ⟨{ reader with rest }, memory⟩
  | short {bytes rest : List UInt8} {after : Memory} :
      CutShort target reader.rest bytes ->
      FrontStored target ending bytes memory after rest ->
      Failed target ending reader memory (.transport .endOfStream)
        ⟨{ reader with rest }, after⟩

/-!
## Reading into a target
-/

theorem reports_readInto_short (h : target.Covered) (hwritable : target.Writable memory.size)
    (hfits : reader.header.check target = .ok ()) (hshort : CutShort target reader.rest bytes) :
    exists after rest,
      Action.Reports (readInto target ending) ⟨reader, memory⟩ (.transport .endOfStream)
        ⟨{ reader with rest }, after⟩ ∧
      FrontStored target ending bytes memory after rest := by
  rcases reader with ⟨header, n, stream⟩
  rcases hshort with ⟨line, hline, rfl, hlength⟩
  rcases reports_readPayload h hwritable hlength with ⟨after, rest, hpayload, hstored⟩
  exact ⟨after, rest, reports_readInto_payload hfits (hline.answers bytes) hpayload, hstored⟩

/-- Reading into a target answers, or it fails in one of four ways. -/
theorem run_readInto (h : target.Covered) (hwritable : target.Writable memory.size)
    (reader : Reader) :
    (exists more job, Action.Answers (readInto target ending) ⟨reader, memory⟩ more job) ∨
      exists error job, Action.Reports (readInto target ending) ⟨reader, memory⟩ error job ∧
        Failed target ending reader memory error job := by
  cases hfits : reader.header.check target with
  | error error => exact Or.inr ⟨error, _, reports_readInto hfits, Failed.refused hfits⟩
  | ok _ =>
      rcases reader with ⟨header, n, bytes⟩
      rcases Source.run_readLine bytes with ⟨outcome, rest, hrun, htaken⟩
      cases outcome with
      | error error =>
          exact Or.inr ⟨error, _, reports_readInto_marker hfits (reports_readMarker hrun),
            Failed.line htaken⟩
      | ok line? =>
          cases line? with
          | none =>
              cases htaken
              exact Or.inl ⟨false, _, answers_readInto_nil hfits⟩
          | some line =>
              by_cases hmarker : isMarker line = true
              · have hread : Action.Answers readMarker ⟨header, n, bytes⟩ true
                    ⟨header, n, rest⟩ :=
                  answers_readMarker_line hrun hmarker
                rcases Nat.lt_or_ge rest.length (payloadLength target) with hshort | hlength
                · rcases markerLine_of_lineTaken htaken hmarker with ⟨hline, heq⟩
                  have hcut : CutShort target bytes rest := ⟨line, hline, heq, hshort⟩
                  rcases reports_readInto_short h hwritable hfits hcut with
                    ⟨after, left, hreports, hstored⟩
                  exact Or.inr ⟨_, _, hreports, Failed.short hcut hstored⟩
                · rcases answers_readPayload_any h hwritable hlength with ⟨after, hpayload, _⟩
                  exact Or.inl ⟨true, _, answers_readInto_payload hfits hread hpayload⟩
              · exact Or.inr ⟨_, _,
                  reports_readInto_marker hfits (reports_readMarker_line hrun hmarker),
                  Failed.marker htaken hmarker⟩

theorem failed_of_reports (h : target.Covered) (hwritable : target.Writable memory.size)
    (hreports : Action.Reports (readInto target ending) ⟨reader, memory⟩ error job) :
    Failed target ending reader memory error job := by
  rcases run_readInto h hwritable reader with ⟨more, last, hrun⟩ | ⟨error', last, hrun, hfailed⟩
  · have hsame := hreports.symm.trans hrun
    cases hsame
  · have hsame := hreports.symm.trans hrun
    cases hsame
    exact hfailed

/-!
## What is left
-/

theorem unfit_line (h : Source.LineTaken bytes (.error error) rest) : unfit error = false := by
  cases h with
  | long => rfl
  | cut => rfl

theorem Failed.unread (h : Failed target ending reader memory error job) :
    job.reader.header = reader.header ∧ job.reader.frames = reader.frames := by
  cases h <;> exact ⟨rfl, rfl⟩

theorem Failed.refusal (h : Failed target ending reader memory error job)
    (hunfit : unfit error = true) : job = ⟨reader, memory⟩ := by
  cases h with
  | refused => rfl
  | line htaken =>
      rw [unfit_line htaken] at hunfit
      cases hunfit
  | marker => cases hunfit
  | short => cases hunfit

theorem Failed.kept_or_front (h : Failed target ending reader memory error job) :
    job.target = memory ∨
      exists bytes, CutShort target reader.rest bytes ∧
        FrontStored target ending bytes memory job.target job.reader.rest := by
  cases h with
  | refused => exact Or.inl rfl
  | line => exact Or.inl rfl
  | marker => exact Or.inl rfl
  | short hcut hstored => exact Or.inr ⟨_, hcut, hstored⟩

/--
Reading into a target that reports an error counts no frame, and leaves the target as it was,
except where a payload ends early: then the rows in front of the missing one are stored, and
the missing one is torn as the stream ends.  A target that does not fit is refused without
anything taken from the stream.
-/
theorem reported_reads_keep_their_target (h : target.Covered)
    (hwritable : target.Writable memory.size) (ending : Source.Ending) (reader : Reader) :
    (exists outcome job, (readInto target ending).run ⟨reader, memory⟩ = .ok (outcome, job)) ∧
    (forall error job, Action.Reports (readInto target ending) ⟨reader, memory⟩ error job ->
      job.reader.header = reader.header ∧ job.reader.frames = reader.frames ∧
      (unfit error = true -> job = ⟨reader, memory⟩) ∧
      (job.target = memory ∨
        exists bytes, CutShort target reader.rest bytes ∧
          FrontStored target ending bytes memory job.target job.reader.rest)) ∧
    forall bytes, reader.header.check target = .ok () -> CutShort target reader.rest bytes ->
      exists after rest,
        Action.Reports (readInto target ending) ⟨reader, memory⟩ (.transport .endOfStream)
          ⟨{ reader with rest }, after⟩ ∧
        FrontStored target ending bytes memory after rest := by
  refine ⟨?_, ?_, fun bytes hfits hcut => reports_readInto_short h hwritable hfits hcut⟩
  · rcases run_readInto h hwritable reader with ⟨_, _, hrun⟩ | ⟨_, _, hrun, _⟩
    · exact ⟨_, _, hrun⟩
    · exact ⟨_, _, hrun⟩
  · intro error job hreports
    have hfailed := failed_of_reports h hwritable hreports
    rcases hfailed.unread with ⟨hheader, hframes⟩
    exact ⟨hheader, hframes, hfailed.refusal, hfailed.kept_or_front⟩

/-- Two rows of two samples. -/
def square : View :=
  ⟨.y800, 2, 2, #v[⟨⟨0, 4⟩, 2⟩, Plane.none, Plane.none, Plane.none]⟩

/-- A target that is too small, and a frame of a file that ends in its second row. -/
theorem reported_reads_keep_their_target_y800 :
    exists (error : Error) (job : Job) (after : Memory) (rest : List UInt8),
      Attempt.Answers (View.ofPlanes .y800 2 2 [4] [2]) square ∧
      Action.Reports (readInto square .buffered)
        ⟨⟨Header.ofFrames .y800 3 2, 5, ascii "FRAME" ++ newline :: [1, 2, 3]⟩, Memory.zeros 4⟩
        error job ∧
      unfit error = true ∧ job.reader.rest = ascii "FRAME" ++ newline :: [1, 2, 3] ∧
      Action.Reports (readInto square .buffered)
        ⟨⟨Header.ofFrames .y800 2 2, 5, ascii "FRAME" ++ newline :: [1, 2, 3]⟩, Memory.zeros 4⟩
        (.transport .endOfStream) ⟨⟨Header.ofFrames .y800 2 2, 5, rest⟩, after⟩ ∧
      FrontStored square .buffered [1, 2, 3] (Memory.zeros 4) after rest := by
  have hview : Attempt.Answers (View.ofPlanes .y800 2 2 [4] [2]) square := rfl
  have hcovered := View.covered_of_ofPlanes hview
  have hwritable : square.Writable (Memory.zeros 4).size :=
    View.writable_of_ofPlanes hview (by decide)
  have hrefused : Action.Reports (readInto square .buffered)
      ⟨⟨Header.ofFrames .y800 3 2, 5, ascii "FRAME" ++ newline :: [1, 2, 3]⟩, Memory.zeros 4⟩
      (.frameSize 2 2 3 2) _ := rfl
  have hcut : CutShort square (ascii "FRAME" ++ newline :: [1, 2, 3]) [1, 2, 3] :=
    ⟨_, ⟨by decide, by decide, Or.inl rfl⟩, rfl, by decide⟩
  rcases reported_reads_keep_their_target hcovered hwritable .buffered
    ⟨Header.ofFrames .y800 3 2, 5, ascii "FRAME" ++ newline :: [1, 2, 3]⟩ with
    ⟨_, hkept, _⟩
  rcases reported_reads_keep_their_target hcovered hwritable .buffered
    ⟨Header.ofFrames .y800 2 2, 5, ascii "FRAME" ++ newline :: [1, 2, 3]⟩ with
    ⟨_, _, hshort⟩
  have hsame := (hkept _ _ hrefused).right.right.left rfl
  rcases hshort [1, 2, 3] rfl hcut with ⟨after, rest, hreports, hstored⟩
  exact ⟨_, _, after, rest, hview, hrefused, rfl, congrArg (fun job => job.reader.rest) hsame,
    hreports, hstored⟩

-- A buffer in front of the file has put its last byte into the second row.
example : Action.Reports (readInto square .buffered)
    ⟨⟨Header.ofFrames .y800 2 2, 5, ascii "FRAME" ++ newline :: [1, 2, 3]⟩, Memory.zeros 4⟩
    (.transport .endOfStream) ⟨⟨Header.ofFrames .y800 2 2, 5, []⟩, #[1, 2, 3, 0]⟩ := rfl

/-- A read that reports an error may have changed its target. -/
theorem reported_read_changes_its_target :
    Attempt.Answers (View.ofPlanes .y800 2 2 [4] [2]) square ∧
      exists reader job,
        Attempt.Answers
          (start (Utf8.encode "YUV4MPEG2 W2 H2 Cmono".toList ++ newline ::
            (ascii "FRAME" ++ newline :: [1, 2, 3]))) reader ∧
        Action.Reports (readInto square) ⟨reader, Memory.zeros 4⟩ (.transport .endOfStream)
          job ∧
        job.target = #[1, 2, 0, 0] ∧ job.target ≠ Memory.zeros 4 := by
  have hparse : Header.parse "YUV4MPEG2 W2 H2 Cmono".toList =
      .ok ⟨.y800, 2, 2, Ratio.unknown, Ratio.unknown, .progressive⟩ := rfl
  have hlimited : Limited ⟨.y800, 2, 2, Ratio.unknown, Ratio.unknown, .progressive⟩ :=
    ⟨⟨.y800, 2, 2, #v[16, 0, 0, 0], #v[16, 0, 0, 0], #v[0, 0, 0, 0], 256⟩, by decide +kernel,
      by decide⟩
  have hopens : Opens
      (Utf8.encode "YUV4MPEG2 W2 H2 Cmono".toList ++ newline ::
        (ascii "FRAME" ++ newline :: [1, 2, 3])) "YUV4MPEG2 W2 H2 Cmono".toList _ :=
    ⟨rfl, by decide, by decide⟩
  have hstart : Attempt.Answers (start _) ⟨_, 0, _⟩ :=
    answers_start_iff.mpr ⟨rfl, _, hopens, hparse, checkSize_eq_ok.mpr hlimited⟩
  exact ⟨rfl, _, ⟨_, #[1, 2, 0, 0]⟩, hstart, rfl, rfl, by decide⟩

end Reader
end RawVideo

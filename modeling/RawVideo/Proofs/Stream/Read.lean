import RawVideo.Proofs.Image.Planes
import RawVideo.Proofs.Stream.Header
import RawVideo.Proofs.Stream.Payload
import RawVideo.Stream.Reader

/-!
# Frames read back

A reader takes exactly the bytes that a frame has, whatever follows them, and draws its
content on the target.  Where nothing is left, it finds the end of the stream and not an
error.
-/

namespace RawVideo

variable {α : Type} {header : Header} {n : Nat} {rest : List UInt8} {error : Error}

/-!
## Lines and runs of bytes
-/

namespace Source

theorem take_line {line : List UInt8} (h : line.length < lineLimit) (rest : List UInt8) :
    exists more, (line ++ StreamFrame.newline :: rest).take lineLimit =
      line ++ StreamFrame.newline :: more := by
  rcases Nat.exists_eq_add_of_lt h with ⟨k, hk⟩
  refine ⟨rest.take k, ?_⟩
  have hleft : lineLimit - line.length = k + 1 := by omega
  rw [List.take_append, List.take_of_length_le (Nat.le_of_lt h), hleft, List.take_succ_cons]

theorem answers_readLine {line : List UInt8} (hline : StreamFrame.newline ∉ line)
    (hlength : line.length < lineLimit) (rest : List UInt8) :
    Action.Answers readLine (line ++ StreamFrame.newline :: rest) (some line) rest := by
  rcases take_line hlength rest with ⟨more, htake⟩
  have hdrop : (line ++ StreamFrame.newline :: rest).drop (line.length + 1) = rest := by
    rw [← List.drop_drop, List.drop_left]
    rfl
  unfold Action.Answers readLine
  dsimp only [ExceptT.run]
  rw [htake, span_append_cons hline]
  dsimp only
  rw [hdrop]

theorem answers_readLine_nil : Action.Answers readLine [] none [] := rfl

theorem reports_readLine_long {bytes : List UInt8}
    (hline : StreamFrame.newline ∉ bytes.take lineLimit) (hlength : lineLimit ≤ bytes.length) :
    Action.Reports readLine bytes (.longLine lineLimit) (bytes.drop lineLimit) := by
  have hwindow : (bytes.take lineLimit).length = lineLimit := List.length_take_of_le hlength
  have hnonempty : (bytes.take lineLimit).isEmpty = false := by
    rw [List.isEmpty_eq_false_iff, ← List.length_pos_iff, hwindow]
    decide
  unfold Action.Reports readLine
  dsimp only [ExceptT.run]
  rw [span_of_not_mem hline]
  dsimp only
  rw [hnonempty, if_neg Bool.false_ne_true, if_pos hwindow]

theorem reports_readLine_cut {bytes : List UInt8} (hline : StreamFrame.newline ∉ bytes)
    (hlength : bytes.length < lineLimit) (hnonempty : bytes ≠ []) :
    Action.Reports readLine bytes (.transport .unterminatedLine) [] := by
  have htake : bytes.take lineLimit = bytes := List.take_of_length_le (Nat.le_of_lt hlength)
  have hdrop : bytes.drop lineLimit = [] := List.drop_of_length_le (Nat.le_of_lt hlength)
  unfold Action.Reports readLine
  dsimp only [ExceptT.run]
  rw [htake, span_of_not_mem hline, hdrop]
  dsimp only
  rw [List.isEmpty_eq_false_iff.mpr hnonempty, if_neg Bool.false_ne_true,
    if_neg (Nat.ne_of_lt hlength)]

/-- What taking a line from a stream ends with, and the bytes that it leaves. -/
inductive LineTaken : List UInt8 -> Except Error (Option (List UInt8)) -> List UInt8 -> Prop where
  | line {line rest : List UInt8} :
      StreamFrame.newline ∉ line ->
      line.length < lineLimit ->
      LineTaken (line ++ StreamFrame.newline :: rest) (.ok (some line)) rest
  | ended : LineTaken [] (.ok none) []
  | long {bytes : List UInt8} :
      StreamFrame.newline ∉ bytes.take lineLimit ->
      lineLimit ≤ bytes.length ->
      LineTaken bytes (.error (.longLine lineLimit)) (bytes.drop lineLimit)
  | cut {bytes : List UInt8} :
      StreamFrame.newline ∉ bytes ->
      bytes.length < lineLimit ->
      bytes ≠ [] ->
      LineTaken bytes (.error (.transport .unterminatedLine)) []

theorem run_readLine (bytes : List UInt8) :
    exists outcome rest, readLine.run bytes = .ok (outcome, rest) ∧
      LineTaken bytes outcome rest := by
  by_cases hline : StreamFrame.newline ∈ bytes.take lineLimit
  · rcases List.eq_append_cons_of_mem hline with ⟨line, more, hwindow, hnot⟩
    have hlength : line.length < lineLimit := by
      have hle := List.length_take_le lineLimit bytes
      rw [hwindow, List.length_append, List.length_cons] at hle
      omega
    have hbytes : bytes =
        line ++ StreamFrame.newline :: (more ++ bytes.drop lineLimit) := by
      rw [← List.cons_append, ← List.append_assoc, ← hwindow, List.take_append_drop]
    rw [hbytes]
    exact ⟨_, _, answers_readLine hnot hlength _, LineTaken.line hnot hlength⟩
  · by_cases hlong : lineLimit ≤ bytes.length
    · exact ⟨_, _, reports_readLine_long hline hlong, LineTaken.long hline hlong⟩
    · have hshort := Nat.lt_of_not_le hlong
      rw [List.take_of_length_le (Nat.le_of_lt hshort)] at hline
      cases bytes with
      | nil => exact ⟨_, _, answers_readLine_nil, LineTaken.ended⟩
      | cons b bytes =>
          have hnonempty := List.cons_ne_nil b bytes
          exact ⟨_, _, reports_readLine_cut hline hshort hnonempty,
            LineTaken.cut hline hshort hnonempty⟩

theorem answers_readExactly {count : Nat} {bytes : List UInt8} (h : bytes.length = count)
    (ending : Ending) (rest : List UInt8) :
    Action.Answers (readExactly count ending) (bytes ++ rest) bytes rest := by
  subst h
  unfold Action.Answers
  show (if ((bytes ++ rest).take bytes.length).length = bytes.length then _ else _) = _
  rw [List.take_left, if_pos rfl, List.drop_left]

theorem reports_readExactly {bytes : List UInt8} {count : Nat} (h : bytes.length < count)
    (ending : Ending) :
    Action.Reports (readExactly count ending) bytes (.transport .endOfStream)
      (bytes.drop (ending.used bytes)) := by
  unfold Action.Reports
  show (if (bytes.take count).length = count then _ else _) = _
  rw [List.take_of_length_le (Nat.le_of_lt h), if_neg (Nat.ne_of_lt h)]

end Source

namespace Reader

theorem answers_onSource {action : Action Error (List UInt8) α} {before after : List UInt8} {a : α}
    (h : Action.Answers action before a after) :
    Action.Answers (onSource action) ⟨header, n, before⟩ a ⟨header, n, after⟩ := by
  show (action.run before).map _ = _
  rw [h]
  rfl

theorem reports_onSource {action : Action Error (List UInt8) α} {before after : List UInt8}
    (h : Action.Reports action before error after) :
    Action.Reports (onSource action) ⟨header, n, before⟩ error ⟨header, n, after⟩ := by
  show (action.run before).map _ = _
  rw [h]
  rfl

theorem answers_onReader {action : Action Error Reader α} {before after : Reader} {a : α}
    (h : Action.Answers action before a after) (target : Memory) :
    Action.Answers (onReader action) ⟨before, target⟩ a ⟨after, target⟩ := by
  show (action.run before).map _ = _
  rw [h]
  rfl

theorem reports_onReader {action : Action Error Reader α} {before after : Reader}
    (h : Action.Reports action before error after) (target : Memory) :
    Action.Reports (onReader action) ⟨before, target⟩ error ⟨after, target⟩ := by
  show (action.run before).map _ = _
  rw [h]
  rfl

/-!
## Marker lines
-/

theorem isMarker_marker : StreamFrame.isMarker (StreamFrame.ascii StreamFrame.marker) = true := by
  decide

section Marker

variable {line bytes : List UInt8}

theorem answers_readMarker_line (hline : Action.Answers Source.readLine bytes (some line) rest)
    (hmarker : StreamFrame.isMarker line = true) :
    Action.Answers readMarker ⟨header, n, bytes⟩ true ⟨header, n, rest⟩ := by
  unfold readMarker
  apply (answers_onSource hline).bind
  dsimp only
  rw [if_pos hmarker]
  rfl

theorem reports_readMarker_line (hline : Action.Answers Source.readLine bytes (some line) rest)
    (hmarker : ¬ StreamFrame.isMarker line = true) :
    Action.Reports readMarker ⟨header, n, bytes⟩
      (.frameMarker (String.ofList (Utf8.decodeLoosely line))) ⟨header, n, rest⟩ := by
  unfold readMarker
  apply (answers_onSource hline).bind_reports
  dsimp only
  rw [if_neg hmarker]
  rfl

theorem reports_readMarker (h : Action.Reports Source.readLine bytes error rest) :
    Action.Reports readMarker ⟨header, n, bytes⟩ error ⟨header, n, rest⟩ :=
  (reports_onSource h).bind _

end Marker

theorem answers_readMarker (rest : List UInt8) :
    Action.Answers readMarker
      ⟨header, n, StreamFrame.ascii StreamFrame.marker ++ StreamFrame.newline :: rest⟩ true
      ⟨header, n, rest⟩ :=
  answers_readMarker_line (Source.answers_readLine (by decide) (by decide) rest) isMarker_marker

theorem answers_readMarker_nil :
    Action.Answers readMarker ⟨header, n, []⟩ false ⟨header, n, []⟩ :=
  (answers_onSource Source.answers_readLine_nil).bind rfl

/-- A line that opens a frame: the marker, alone or with parameters behind a space. -/
structure MarkerLine (line : List UInt8) : Prop where
  inline : StreamFrame.newline ∉ line
  short : line.length < 1024
  marker : line = StreamFrame.ascii "FRAME" ∨
    exists parameters, line = StreamFrame.ascii "FRAME" ++ 0x20 :: parameters

theorem isMarker_iff {line : List UInt8} :
    StreamFrame.isMarker line = true ↔
      line = StreamFrame.ascii "FRAME" ∨
        exists parameters, line = StreamFrame.ascii "FRAME" ++ 0x20 :: parameters := by
  unfold StreamFrame.isMarker StreamFrame.marker
  dsimp only
  rw [Bool.and_eq_true, List.isPrefixOf_iff_prefix]
  constructor
  · intro h
    rcases h with ⟨⟨suffix, rfl⟩, hrest⟩
    rw [List.drop_left] at hrest
    cases suffix with
    | nil => exact Or.inl (List.append_nil _)
    | cons b parameters =>
        have hspace : b = 0x20 := eq_of_beq hrest
        rw [hspace]
        exact Or.inr ⟨parameters, rfl⟩
  · intro h
    rcases h with rfl | ⟨parameters, rfl⟩
    · exact ⟨List.prefix_refl _, by rw [List.drop_length]⟩
    · exact ⟨List.prefix_append _ _, by rw [List.drop_left]; rfl⟩

theorem MarkerLine.answers {line : List UInt8} (h : MarkerLine line) (rest : List UInt8) :
    Action.Answers readMarker ⟨header, n, line ++ StreamFrame.newline :: rest⟩ true
      ⟨header, n, rest⟩ :=
  answers_readMarker_line (Source.answers_readLine h.inline h.short rest)
    (isMarker_iff.mpr h.marker)

theorem markerLine_of_lineTaken {line bytes : List UInt8}
    (h : Source.LineTaken bytes (.ok (some line)) rest)
    (hmarker : StreamFrame.isMarker line = true) :
    MarkerLine line ∧ bytes = line ++ StreamFrame.newline :: rest := by
  cases h with
  | line hnot hlength => exact ⟨⟨hnot, hlength, isMarker_iff.mp hmarker⟩, rfl⟩

/-- The reader accepts a marker line and nothing else. -/
theorem answers_readMarker_iff {bytes : List UInt8} :
    Action.Answers readMarker ⟨header, n, bytes⟩ true ⟨header, n, rest⟩ ↔
      exists line, MarkerLine line ∧ bytes = line ++ StreamFrame.newline :: rest := by
  constructor
  · intro h
    rcases Source.run_readLine bytes with ⟨outcome, left, hrun, htaken⟩
    cases outcome with
    | error error =>
        have hsame := h.symm.trans (reports_readMarker hrun)
        cases hsame
    | ok line? =>
        cases line? with
        | none =>
            cases htaken
            have hsame := h.symm.trans answers_readMarker_nil
            cases hsame
        | some line =>
            by_cases hmarker : StreamFrame.isMarker line = true
            · have hsame := h.symm.trans (answers_readMarker_line hrun hmarker)
              cases hsame
              exact ⟨line, markerLine_of_lineTaken htaken hmarker⟩
            · have hsame := h.symm.trans (reports_readMarker_line hrun hmarker)
              cases hsame
  · intro h
    rcases h with ⟨line, hline, rfl⟩
    exact hline.answers rest

/-!
## Payloads
-/

section Payload

open StreamFrame

variable {target : View} {memory : Memory} {content : Nat -> Nat -> Nat -> Nat -> UInt8}
variable {ending : Source.Ending}

theorem tear_of_le {row : Nat × Nat} {count : Nat} {job : Job}
    (h : count ≤ job.reader.rest.length) : tear target ending row count job = .ok job :=
  if_neg (Nat.not_lt.mpr h)

theorem answers_readRow {row : Nat × Nat} (h : target.Covered)
    (hwritable : target.Writable memory.size) (hrow : row ∈ visibleRows target)
    (rest : List UInt8) :
    exists after,
      Action.Answers (readRow target ending row)
        ⟨⟨header, n, rowContent target content row ++ rest⟩, memory⟩ ()
        ⟨⟨header, n, rest⟩, after⟩ ∧
      Painted (target.lineInk content row.1 row.2) memory after := by
  have hcount := rowLength_of_mem h hrow
  rcases row with ⟨c, y⟩
  rcases mem_visibleRows.mp hrow with ⟨⟨comp, hcomp⟩, hy⟩
  have hpaints : Paints memory.size _ (target.lineInk content c y) :=
    paints_storeRow h hwritable hcomp hy
  rcases hpaints memory rfl with ⟨after, hafter, hpainted⟩
  refine ⟨after, ?_, hpainted⟩
  have hlength := length_rowContent target content (c, y)
  have henough : rowCount target (c, y) ≤ (rowContent target content (c, y) ++ rest).length := by
    rw [List.length_append, hlength]
    exact Nat.le_add_right _ _
  have hstore : (storeRow target c y (rowContent target content (c, y)) memory >>= fun memory =>
      pure (⟨⟨header, n, rest⟩, memory⟩ : Job)) = .ok ⟨⟨header, n, rest⟩, after⟩ := by
    rw [hafter]
    rfl
  have hread : Action.Answers
      (onReader (onSource (Source.readExactly (rowCount target (c, y)) ending)))
      ⟨⟨header, n, rowContent target content (c, y) ++ rest⟩, memory⟩
      (rowContent target content (c, y)) ⟨⟨header, n, rest⟩, memory⟩ :=
    answers_onReader (answers_onSource (Source.answers_readExactly hlength ending rest)) memory
  unfold readRow
  apply (Action.answers_ofChecked hcount _).bind
  apply (Action.answers_update (tear_of_le henough)).bind
  exact hread.bind (Action.answers_update hstore)

/-- Rows are read one after the other, each from where the last one stopped. -/
theorem answers_readRows {rows : List (Nat × Nat)} (h : target.Covered)
    (hwritable : target.Writable memory.size)
    (hrows : forall row, row ∈ rows -> row ∈ visibleRows target) (rest : List UInt8) :
    exists after,
      Action.Answers (rows.forM (readRow target ending))
        ⟨⟨header, n, rows.flatMap (rowContent target content) ++ rest⟩, memory⟩
        () ⟨⟨header, n, rest⟩, after⟩ ∧
      Painted (rowsInk target content rows) memory after := by
  induction rows generalizing memory with
  | nil =>
      refine ⟨memory, rfl, Painted.refl memory ?_⟩
      intro address b h'
      rcases h' with ⟨row, hrow, _⟩
      cases hrow
  | cons row others ih =>
      rw [List.forall_mem_cons] at hrows
      rw [List.flatMap_cons, List.append_assoc]
      rcases answers_readRow h hwritable hrows.left _ with ⟨middle, hmiddle, hfirst⟩
      rcases ih (hfirst.size.symm ▸ hwritable) hrows.right with ⟨after, hafter, hothers⟩
      refine ⟨after, hmiddle.bind hafter, (hfirst.trans hothers).congr fun address b => ?_⟩
      simp only [rowsInk, List.mem_cons, or_and_right, exists_or, exists_eq_left]

theorem answers_readPayload (h : target.Covered) (hwritable : target.Writable memory.size)
    (rest : List UInt8) :
    exists after,
      Action.Answers (readPayload target ending)
        ⟨⟨header, n, payload target content ++ rest⟩, memory⟩ () ⟨⟨header, n + 1, rest⟩, after⟩ ∧
      Painted (target.ink content) memory after := by
  rcases answers_readRows h hwritable (fun _ hrow => hrow) rest with ⟨after, hafter, hpainted⟩
  refine ⟨after, ?_, hpainted.congr fun address b => ?_⟩
  · unfold readPayload
    exact (Action.answers_ofChecked (rows_eq h) _).bind (hafter.bind rfl)
  · rw [View.ink_iff_line]
    constructor
    · intro hdrawn
      rcases hdrawn with ⟨row, hrow, hink⟩
      exact ⟨row.1, row.2, (mem_visibleRows.mp hrow).right, hink⟩
    · intro hdrawn
      rcases hdrawn with ⟨c, y, hy, hink⟩
      refine ⟨(c, y), mem_visibleRows.mpr ⟨?_, hy⟩, hink⟩
      rcases hink with ⟨comp, _, _, hcomp, _⟩
      exact ⟨comp, hcomp⟩

/-- Any bytes of the right number are read, and are what the target sends afterwards. -/
theorem answers_readPayload_bytes {bytes : List UInt8} (h : target.Covered)
    (hwritable : target.Writable memory.size) (hlength : bytes.length = payloadLength target)
    (rest : List UInt8) :
    exists after,
      Action.Answers (readPayload target ending) ⟨⟨header, n, bytes ++ rest⟩, memory⟩ ()
        ⟨⟨header, n + 1, rest⟩, after⟩ ∧
      after.size = memory.size ∧ payload target (target.content after) = bytes := by
  rcases exists_payload hlength with ⟨content, rfl⟩
  rcases answers_readPayload h hwritable rest with ⟨after, hafter, hpainted⟩
  exact ⟨after, hafter, hpainted.size, payload_of_painted h hwritable hpainted⟩

/-!
## Frames
-/

theorem alike_of_check {source : View} (htarget : header.check target = .ok ())
    (hsource : header.check source = .ok ()) :
    target.width = source.width ∧ target.height = source.height ∧
      target.format.Alike source.format := by
  rcases Header.check_eq_ok.mp htarget with ⟨hwidth, hheight, hformat⟩
  rcases Header.check_eq_ok.mp hsource with ⟨hwidth', hheight', hformat'⟩
  exact ⟨hwidth.trans hwidth'.symm, hheight.trans hheight'.symm, hformat.symm.trans hformat'⟩

variable {picture : Picture}

/-- Behind its marker line, a frame is read sample by sample as it was. -/
theorem answers_readFrame_payload (htarget : target.Covered)
    (hwritable : target.Writable memory.size) (hfits : header.check target = .ok ())
    (hpicture : picture.view.Covered) (hfits' : header.check picture.view = .ok ())
    (rest : List UInt8) :
    exists after,
      Action.Answers (readPayload target ending)
        ⟨⟨header, n, payload picture.view (picture.view.content picture.memory) ++ rest⟩, memory⟩
        () ⟨⟨header, n + 1, rest⟩, after⟩ ∧
      target.Matches after picture.view picture.memory := by
  rcases alike_of_check hfits hfits' with ⟨hwidth, hheight, hformat⟩
  rcases answers_readPayload (n := n) htarget hwritable rest with ⟨after, hafter, hpainted⟩
  rw [← payload_congr hformat hwidth hheight]
  exact ⟨after, hafter,
    htarget.matches_of_painted hpicture hwritable hformat hwidth hheight hpainted⟩

theorem encoding_append (picture : Picture) (rest : List UInt8) :
    encoding picture ++ rest =
      ascii marker ++ newline ::
        (payload picture.view (picture.view.content picture.memory) ++ rest) :=
  List.append_assoc ..

section Into

variable {before next after : Reader} {memory' : Memory}

theorem answers_readInto_payload (hfits : before.header.check target = .ok ())
    (hmarker : Action.Answers readMarker before true next)
    (hpayload : Action.Answers (readPayload target ending) ⟨next, memory⟩ () ⟨after, memory'⟩) :
    Action.Answers (readInto target ending) ⟨before, memory⟩ true ⟨after, memory'⟩ := by
  unfold readInto
  refine (Action.answers_get _).bind ((Action.answers_ofExcept hfits _).bind ?_)
  exact (answers_onReader hmarker _).bind (hpayload.bind rfl)

theorem reports_readInto_payload (hfits : before.header.check target = .ok ())
    (hmarker : Action.Answers readMarker before true next)
    (hpayload : Action.Reports (readPayload target ending) ⟨next, memory⟩ error
      ⟨after, memory'⟩) :
    Action.Reports (readInto target ending) ⟨before, memory⟩ error ⟨after, memory'⟩ := by
  unfold readInto
  refine (Action.answers_get _).bind_reports
    ((Action.answers_ofExcept hfits _).bind_reports ?_)
  exact (answers_onReader hmarker _).bind_reports (hpayload.bind _)

theorem reports_readInto_marker (hfits : before.header.check target = .ok ())
    (hmarker : Action.Reports readMarker before error after) :
    Action.Reports (readInto target ending) ⟨before, memory⟩ error ⟨after, memory⟩ := by
  unfold readInto
  refine (Action.answers_get _).bind_reports
    ((Action.answers_ofExcept hfits _).bind_reports ?_)
  exact (reports_onReader hmarker _).bind _

end Into

theorem answers_readInto (htarget : target.Covered) (hwritable : target.Writable memory.size)
    (hfits : header.check target = .ok ()) (hpicture : picture.view.Covered)
    (hfits' : header.check picture.view = .ok ()) (rest : List UInt8) :
    exists after,
      Action.Answers (readInto target ending) ⟨⟨header, n, encoding picture ++ rest⟩, memory⟩ true
        ⟨⟨header, n + 1, rest⟩, after⟩ ∧
      target.Matches after picture.view picture.memory := by
  rcases answers_readFrame_payload (n := n) htarget hwritable hfits hpicture hfits' rest with
    ⟨after, hafter, hmatches⟩
  refine ⟨after, ?_, hmatches⟩
  rw [encoding_append]
  exact answers_readInto_payload hfits (answers_readMarker _) hafter

theorem answers_readInto_nil (hfits : header.check target = .ok ()) :
    Action.Answers (readInto target ending) ⟨⟨header, n, []⟩, memory⟩ false
      ⟨⟨header, n, []⟩, memory⟩ := by
  unfold readInto
  refine (Action.answers_get _).bind ((Action.answers_ofExcept hfits _).bind ?_)
  exact (answers_onReader answers_readMarker_nil _).bind rfl

/-- A target that does not fit is refused before anything is read. -/
theorem reports_readInto {reader : Reader} (h : reader.header.check target = .error error) :
    Action.Reports (readInto target ending) ⟨reader, memory⟩ error ⟨reader, memory⟩ :=
  (Action.answers_get _).bind_reports ((Action.reports_ofExcept h _).bind _)

theorem answers_onImage {action : Action Error Job Unit} {before after : Reader}
    {next : Memory} (h : Action.Answers action ⟨before, memory⟩ () ⟨after, next⟩) :
    Action.Answers (readFrame.onImage memory action) before next after := by
  show (action.run ⟨before, memory⟩).map _ = _
  rw [h]
  rfl

theorem reports_onImage {action : Action Error Job Unit} {before after : Reader}
    {next : Memory} (h : Action.Reports action ⟨before, memory⟩ error ⟨after, next⟩) :
    Action.Reports (readFrame.onImage memory action) before error after := by
  show (action.run ⟨before, memory⟩).map _ = _
  rw [h]
  rfl

section Fresh

variable {layout : Layout} {before after : Reader}

theorem covered_of_limit
    (hlayout : Layout.compute header.format header.width header.height = .ok layout)
    (hsize : layout.size ≤ frameLimit) : (Image.viewOf layout).Covered := by
  have hsides := Image.sides_le_size hlayout
  have hlimit : frameLimit + 2 < UInt32.size := by decide
  exact Image.covered_viewOf hlayout (by omega) (by omega)

theorem writable_zeros
    (hlayout : Layout.compute header.format header.width header.height = .ok layout) :
    (Image.viewOf layout).Writable (Memory.zeros layout.size).size :=
  (Memory.size_zeros layout.size).symm ▸ Image.writable_viewOf hlayout

theorem allocate_of_limit
    (hlayout : Layout.compute header.format header.width header.height = .ok layout)
    (hsize : layout.size ≤ frameLimit) :
    Image.allocate header.format header.width header.height =
      .ok ⟨some layout, Memory.zeros layout.size⟩ :=
  Image.allocate_of_compute hlayout
    (Nat.le_trans hsize (show frameLimit ≤ Image.largestAllocation by decide))

theorem check_viewOf
    (hlayout : Layout.compute header.format header.width header.height = .ok layout) :
    header.check (Image.viewOf layout) = .ok () := by
  rcases Image.viewOf_of_compute hlayout with ⟨hformat, hwidth, hheight⟩
  exact Header.check_eq_ok.mpr ⟨hwidth, hheight, hformat.symm ▸ Format.Alike.refl _⟩

theorem answers_readFrame_image
    (hlayout : Layout.compute header.format header.width header.height = .ok layout)
    (hsize : layout.size ≤ frameLimit)
    (hmarker : Action.Answers readMarker before true ⟨header, n, rest⟩)
    (hpayload : Action.Answers (readPayload (Image.viewOf layout) .inMemory)
      ⟨⟨header, n, rest⟩, Memory.zeros layout.size⟩ () ⟨after, memory⟩) :
    Action.Answers readFrame before (some ⟨some layout, memory⟩) after := by
  unfold readFrame
  refine hmarker.bind ((Action.answers_get _).bind ?_)
  apply (Action.answers_ofExcept (allocate_of_limit hlayout hsize) _).bind
  exact (Action.answers_ofChecked rfl _).bind ((answers_onImage hpayload).bind rfl)

theorem reports_readFrame_image
    (hlayout : Layout.compute header.format header.width header.height = .ok layout)
    (hsize : layout.size ≤ frameLimit)
    (hmarker : Action.Answers readMarker before true ⟨header, n, rest⟩)
    (hpayload : Action.Reports (readPayload (Image.viewOf layout) .inMemory)
      ⟨⟨header, n, rest⟩, Memory.zeros layout.size⟩ error ⟨after, memory⟩) :
    Action.Reports readFrame before error after := by
  unfold readFrame
  refine hmarker.bind_reports ((Action.answers_get _).bind_reports ?_)
  apply (Action.answers_ofExcept (allocate_of_limit hlayout hsize) _).bind_reports
  exact (Action.answers_ofChecked rfl _).bind_reports ((reports_onImage hpayload).bind _)

theorem answers_readFrame
    (hlayout : Layout.compute header.format header.width header.height = .ok layout)
    (hsize : layout.size ≤ frameLimit) (hpicture : picture.view.Covered)
    (hfits : header.check picture.view = .ok ()) (rest : List UInt8) :
    exists after,
      Action.Answers readFrame ⟨header, n, encoding picture ++ rest⟩
        (some ⟨some layout, after⟩) ⟨header, n + 1, rest⟩ ∧
      (Image.viewOf layout).Matches after picture.view picture.memory := by
  rcases answers_readFrame_payload (n := n) (covered_of_limit hlayout hsize)
    (writable_zeros hlayout) (check_viewOf hlayout) hpicture hfits rest with
    ⟨after, hafter, hmatches⟩
  refine ⟨after, ?_, hmatches⟩
  rw [encoding_append]
  exact answers_readFrame_image hlayout hsize (answers_readMarker _) hafter

end Fresh

theorem answers_readFrame_nil :
    Action.Answers readFrame ⟨header, n, []⟩ none ⟨header, n, []⟩ :=
  answers_readMarker_nil.bind rfl

end Payload

end Reader
end RawVideo

import RawVideo.Proofs.Stream.Grammar

/-!
# Reading to the end

Whatever bytes a stream holds, a reader ends without a fault.  Each frame that it finds and
each error that it reports takes something from the stream, so a reader that is asked again
and again comes to the end of the stream and stays there.
-/

namespace RawVideo

variable {header : Header} {n : Nat} {bytes rest : List UInt8} {memory : Memory}
variable {layout : Layout}

/-- Bytes in front of `rest` are taken, and there are some. -/
def Consumes (bytes rest : List UInt8) : Prop :=
  exists taken, taken ≠ [] ∧ bytes = taken ++ rest

theorem Consumes.length_lt (h : Consumes bytes rest) : rest.length < bytes.length := by
  rcases h with ⟨taken, hnonempty, rfl⟩
  have hpos := List.length_pos_iff.mpr hnonempty
  rw [List.length_append]
  exact Nat.lt_add_of_pos_left hpos

theorem Consumes.drop (h : Consumes bytes rest) (count : Nat) :
    Consumes bytes (rest.drop count) := by
  rcases h with ⟨taken, hnonempty, rfl⟩
  refine ⟨taken ++ rest.take count, ?_, ?_⟩
  · exact List.append_ne_nil_of_left_ne_nil hnonempty _
  · rw [List.append_assoc, List.take_append_drop]

theorem consumes_all (h : bytes ≠ []) : Consumes bytes [] :=
  ⟨bytes, h, (List.append_nil bytes).symm⟩

theorem Source.LineTaken.consumes {outcome : Except Error (Option (List UInt8))}
    (h : LineTaken bytes outcome rest) (hmore : outcome ≠ .ok none) : Consumes bytes rest := by
  cases h with
  | @line line rest _ _ =>
      refine ⟨line ++ [StreamFrame.newline], ?_, ?_⟩
      · exact List.append_ne_nil_of_right_ne_nil _ (List.cons_ne_nil _ [])
      · rw [List.append_assoc, List.singleton_append]
  | ended => exact (hmore rfl).elim
  | long _ hlength =>
      refine ⟨bytes.take lineLimit, ?_, (List.take_append_drop lineLimit bytes).symm⟩
      rw [← List.length_pos_iff, List.length_take_of_le hlength]
      decide
  | cut _ _ hnonempty => exact consumes_all hnonempty

namespace Reader

open StreamFrame

/-!
## Payloads of any bytes
-/

section Payload

variable {target : View} {ending : Source.Ending}

theorem exists_tear {row : Nat × Nat} (h : target.Covered)
    (hwritable : target.Writable memory.size) (hrow : row ∈ visibleRows target)
    (hlength : bytes.length < rowCount target row) :
    exists after,
      tear target ending row (rowCount target row) ⟨⟨header, n, bytes⟩, memory⟩ =
        .ok ⟨⟨header, n, bytes⟩, after⟩ ∧
      Painted (tornInk target row ((ending.torn bytes).take (rowCount target row))) memory
        after := by
  rcases row with ⟨c, y⟩
  rcases mem_visibleRows.mp hrow with ⟨⟨comp, hcomp⟩, hy⟩
  rcases paints_tearRow h hwritable hcomp hy
    (List.length_take_le (rowCount target (c, y)) (ending.torn bytes)) memory rfl with
    ⟨after, hafter, hpainted⟩
  refine ⟨after, ?_, hpainted⟩
  unfold tear
  rw [if_pos hlength]
  dsimp only
  rw [hafter]
  rfl

/-- A row that is not whole is torn, and what is left of the stream is up to the stream. -/
theorem reports_readRow {row : Nat × Nat} (h : target.Covered)
    (hwritable : target.Writable memory.size) (hrow : row ∈ visibleRows target)
    (hlength : bytes.length < rowCount target row) :
    exists after,
      Action.Reports (readRow target ending row) ⟨⟨header, n, bytes⟩, memory⟩
        (.transport .endOfStream) ⟨⟨header, n, bytes.drop (ending.used bytes)⟩, after⟩ ∧
      Painted (tornInk target row ((ending.torn bytes).take (rowCount target row))) memory
        after := by
  rcases exists_tear h hwritable hrow hlength with ⟨after, hafter, hpainted⟩
  refine ⟨after, ?_, hpainted⟩
  unfold readRow
  apply (Action.answers_ofChecked (rowLength_of_mem h hrow) _).bind_reports
  apply (Action.answers_update hafter).bind_reports
  have hsource := Source.reports_readExactly hlength ending
  exact (reports_onReader (reports_onSource hsource) after).bind _

theorem answers_readPayload_any (h : target.Covered) (hwritable : target.Writable memory.size)
    (hlength : payloadLength target ≤ bytes.length) :
    exists after,
      Action.Answers (readPayload target ending) ⟨⟨header, n, bytes⟩, memory⟩ ()
        ⟨⟨header, n + 1, bytes.drop (payloadLength target)⟩, after⟩ ∧
      after.size = memory.size := by
  rcases answers_readPayload_bytes h hwritable (List.length_take_of_le hlength)
    (bytes.drop (payloadLength target)) with ⟨after, hafter, hsize, _⟩
  rw [List.take_append_drop] at hafter
  exact ⟨after, hafter, hsize⟩

/--
The whole rows that bytes suffice for are stored, the row behind them is torn as the stream
ends, and nothing else is changed.
-/
def FrontStored (target : View) (ending : Source.Ending) (bytes : List UInt8)
    (before after : Memory) (rest : List UInt8) : Prop :=
  exists front row back content left,
    visibleRows target = front ++ row :: back ∧
    bytes = front.flatMap (rowContent target content) ++ left ∧
    left.length < rowCount target row ∧
    Painted (fun address b => rowsInk target content front address b ∨
      tornInk target row ((ending.torn left).take (rowCount target row)) address b) before after ∧
    rest = left.drop (ending.used left)

/-- A payload that ends early stops in its first row that is not whole. -/
theorem reports_readPayload (h : target.Covered) (hwritable : target.Writable memory.size)
    (hlength : bytes.length < payloadLength target) :
    exists after rest,
      Action.Reports (readPayload target ending) ⟨⟨header, n, bytes⟩, memory⟩
        (.transport .endOfStream) ⟨⟨header, n, rest⟩, after⟩ ∧
      FrontStored target ending bytes memory after rest := by
  rcases exists_front hlength with ⟨front, row, back, hrows, hle, hlt⟩
  have hvisible : forall other, other ∈ front ++ row :: back -> other ∈ visibleRows target :=
    fun _ hmem => hrows ▸ hmem
  rcases List.forall_mem_append.mp hvisible with ⟨hfront, hback⟩
  have hnodup := nodup_visibleRows target
  rw [hrows] at hnodup
  rcases exists_rowsContent (List.nodup_append.mp hnodup).left hfront
    (List.length_take_of_le hle) with ⟨content, hcontent⟩
  generalize hleft : bytes.drop (rowsLength target front) = left
  have hbytes : bytes = front.flatMap (rowContent target content) ++ left := by
    rw [hcontent, ← hleft, List.take_append_drop]
  have hshort : left.length < rowCount target row := by
    rw [← hleft, List.length_drop]
    omega
  rcases answers_readRows h hwritable hfront left with ⟨middle, hmiddle, hstored⟩
  rcases reports_readRow h (hstored.size.symm ▸ hwritable) (hback row List.mem_cons_self)
    hshort with ⟨after, hreports, htorn⟩
  have hsplit : (front ++ row :: back).forM (readRow target ending) =
      front.forM (readRow target ending) >>= fun _ =>
        (row :: back).forM (readRow target ending) :=
    List.forM_append
  refine ⟨after, _, ?_, front, row, back, content, left, hrows, hbytes, hshort,
    hstored.trans htorn, rfl⟩
  unfold readPayload
  apply (Action.answers_ofChecked (rows_eq h) _).bind_reports
  rw [hrows, hsplit, hbytes]
  exact (hmiddle.bind_reports (hreports.bind _)).bind _

/-- A stream in memory is used up by a payload that ends early. -/
theorem FrontStored.ended {after : Memory}
    (h : FrontStored target .inMemory bytes memory after rest) : rest = [] := by
  rcases h with ⟨_, _, _, _, left, _, _, _, _, hrest⟩
  exact hrest.trans List.drop_length

end Payload

/-!
## Frames of any bytes
-/

/-- What asking for a frame ends with, and the bytes that it leaves. -/
inductive FrameTaken (layout : Layout) :
    List UInt8 -> Except Error (Option Image) -> List UInt8 -> Prop where
  | ended : FrameTaken layout [] (.ok none) []
  | line {bytes rest : List UInt8} {error : Error} :
      Source.LineTaken bytes (.error error) rest ->
      FrameTaken layout bytes (.error error) rest
  | marker {bytes line rest : List UInt8} :
      Source.LineTaken bytes (.ok (some line)) rest ->
      ¬ isMarker line = true ->
      FrameTaken layout bytes
        (.error (.frameMarker (String.ofList (Utf8.decodeLoosely line)))) rest
  | short {bytes line rest : List UInt8} :
      Source.LineTaken bytes (.ok (some line)) rest ->
      isMarker line = true ->
      rest.length < payloadLength (Image.viewOf layout) ->
      FrameTaken layout bytes (.error (.transport .endOfStream)) []
  | frame {bytes line rest : List UInt8} {memory : Memory} :
      Source.LineTaken bytes (.ok (some line)) rest ->
      isMarker line = true ->
      payloadLength (Image.viewOf layout) ≤ rest.length ->
      memory.size = layout.size ->
      FrameTaken layout bytes (.ok (some ⟨some layout, memory⟩))
        (rest.drop (payloadLength (Image.viewOf layout)))

/-- How many frames an answer counts for. -/
def counted : Except Error (Option Image) -> Nat
  | .ok (some _) => 1
  | _ => 0

theorem run_readFrame
    (hlayout : Layout.compute header.format header.width header.height = .ok layout)
    (hsize : layout.size ≤ frameLimit) (n : Nat) (bytes : List UInt8) :
    exists outcome rest,
      readFrame.run ⟨header, n, bytes⟩ =
        .ok (outcome, ⟨header, n + counted outcome, rest⟩) ∧
      FrameTaken layout bytes outcome rest := by
  rcases Source.run_readLine bytes with ⟨outcome, rest, hrun, htaken⟩
  cases outcome with
  | error error =>
      have hmarker : Action.Reports readMarker ⟨header, n, bytes⟩ error ⟨header, n, rest⟩ :=
        reports_readMarker hrun
      exact ⟨_, _, hmarker.bind _, FrameTaken.line htaken⟩
  | ok line? =>
      cases line? with
      | none =>
          cases htaken
          exact ⟨_, _, answers_readFrame_nil, FrameTaken.ended⟩
      | some line =>
          by_cases hmarker : isMarker line = true
          · have hread : Action.Answers readMarker ⟨header, n, bytes⟩ true ⟨header, n, rest⟩ :=
              answers_readMarker_line hrun hmarker
            have hcovered := covered_of_limit hlayout hsize
            have hwritable := writable_zeros hlayout
            by_cases hlength : payloadLength (Image.viewOf layout) ≤ rest.length
            · rcases answers_readPayload_any hcovered hwritable hlength with
                ⟨memory, hpayload, hmemory⟩
              rw [Memory.size_zeros] at hmemory
              exact ⟨_, _, answers_readFrame_image hlayout hsize hread hpayload,
                FrameTaken.frame htaken hmarker hlength hmemory⟩
            · have hshort := Nat.lt_of_not_le hlength
              rcases reports_readPayload hcovered hwritable hshort with
                ⟨memory, rest, hpayload, hstored⟩
              cases hstored.ended
              exact ⟨_, _, reports_readFrame_image hlayout hsize hread hpayload,
                FrameTaken.short htaken hmarker hshort⟩
          · exact ⟨_, _, (reports_readMarker_line hrun hmarker).bind _,
              FrameTaken.marker htaken hmarker⟩

theorem FrameTaken.consumes {outcome : Except Error (Option Image)}
    (h : FrameTaken layout bytes outcome rest) (hmore : outcome ≠ .ok none) :
    Consumes bytes rest := by
  cases h with
  | ended => exact (hmore rfl).elim
  | line htaken => exact htaken.consumes nofun
  | marker htaken => exact htaken.consumes nofun
  | short htaken =>
      have hlt := (htaken.consumes nofun).length_lt
      exact consumes_all (List.ne_nil_of_length_pos (Nat.zero_lt_of_lt hlt))
  | frame htaken => exact (htaken.consumes nofun).drop _

theorem FrameTaken.nil_of_none (h : FrameTaken layout bytes (.ok none) rest) :
    bytes = [] ∧ rest = [] := by
  cases h
  exact ⟨rfl, rfl⟩

theorem FrameTaken.image {image : Image} (h : FrameTaken layout bytes (.ok (some image)) rest) :
    image.layout? = some layout ∧ image.memory.size = layout.size := by
  cases h with
  | frame _ _ _ hmemory => exact ⟨rfl, hmemory⟩

theorem counted_le_one (outcome : Except Error (Option Image)) : counted outcome ≤ 1 := by
  unfold counted
  split
  · exact Nat.le_refl 1
  · exact Nat.zero_le 1

/-- Frames are counted only against bytes that are taken. -/
theorem FrameTaken.counted_le {outcome : Except Error (Option Image)}
    (h : FrameTaken layout bytes outcome rest) :
    counted outcome + rest.length ≤ bytes.length := by
  by_cases hmore : outcome = .ok none
  · subst hmore
    rcases h.nil_of_none with ⟨rfl, rfl⟩
    exact Nat.le_refl 0
  · have hlt := (h.consumes hmore).length_lt
    have hle := counted_le_one outcome
    omega

/-!
## Calls for frames
-/

/-- The outcomes of so many calls: items, and then ends of the stream. -/
def outcomesOf (items : List (Except Error Image)) (calls : Nat) :
    List (Except Error (Option Image)) :=
  (items.take calls).map (Except.map some) ++
    List.replicate (calls - items.length) (.ok none)

theorem outcomesOf_nil (calls : Nat) : outcomesOf [] calls = List.replicate calls (.ok none) := by
  unfold outcomesOf
  rw [List.take_nil]
  rfl

theorem outcomesOf_zero (items : List (Except Error Image)) : outcomesOf items 0 = [] := by
  unfold outcomesOf
  rw [Nat.zero_sub]
  rfl

theorem outcomesOf_cons (item : Except Error Image) (items : List (Except Error Image))
    (calls : Nat) :
    outcomesOf (item :: items) (calls + 1) = item.map some :: outcomesOf items calls := by
  unfold outcomesOf
  rw [List.take_succ_cons, List.map_cons, List.length_cons, Nat.add_sub_add_right]
  rfl

theorem session_ended (header : Header) (n calls : Nat) :
    Action.session (List.replicate calls readFrame) ⟨header, n, []⟩ =
      .ok (List.replicate calls (.ok none), ⟨header, n, []⟩) := by
  induction calls with
  | zero => rfl
  | succ calls ih => exact Action.session_cons answers_readFrame_nil ih

theorem exists_item {outcome : Except Error (Option Image)} (h : outcome ≠ .ok none) :
    exists item : Except Error Image, outcome = item.map some := by
  cases outcome with
  | error error => exact ⟨.error error, rfl⟩
  | ok image? =>
      cases image? with
      | none => exact (h rfl).elim
      | some image => exact ⟨.ok image, rfl⟩

/-- However often a reader is called, it gives these items and then only ends. -/
structure ReadsOut (layout : Layout) (reader : Reader) (items : List (Except Error Image)) :
    Prop where
  bounded : items.length ≤ reader.rest.length
  images : forall image, .ok image ∈ items ->
    image.layout? = some layout ∧ image.memory.size = layout.size
  calls : forall calls, exists frames rest,
    Action.session (List.replicate calls readFrame) reader =
        .ok (outcomesOf items calls, { reader with frames, rest }) ∧
      frames + rest.length ≤ reader.frames + reader.rest.length

theorem readsOut_nil (layout : Layout) (header : Header) (n : Nat) :
    ReadsOut layout ⟨header, n, []⟩ [] := by
  refine ⟨Nat.le_refl 0, fun _ hmem => (List.not_mem_nil hmem).elim, ?_⟩
  intro calls
  rw [outcomesOf_nil]
  exact ⟨n, [], session_ended header n calls, Nat.le_refl n⟩

theorem ReadsOut.cons {item : Except Error Image} {items : List (Except Error Image)}
    (hrun : readFrame.run ⟨header, n, bytes⟩ =
      .ok (item.map some, ⟨header, n + counted (item.map some), rest⟩))
    (htaken : FrameTaken layout bytes (item.map some) rest) (hless : rest.length < bytes.length)
    (h : ReadsOut layout ⟨header, n + counted (item.map some), rest⟩ items) :
    ReadsOut layout ⟨header, n, bytes⟩ (item :: items) := by
  refine ⟨Nat.lt_of_le_of_lt h.bounded hless, ?_, ?_⟩
  · intro image hmem
    rcases List.mem_cons.mp hmem with rfl | hmem
    · exact htaken.image
    · exact h.images image hmem
  · intro calls
    cases calls with
    | zero =>
        rw [outcomesOf_zero]
        exact ⟨n, bytes, rfl, Nat.le_refl _⟩
    | succ calls =>
        rcases h.calls calls with ⟨frames, left, hsession, hle⟩
        have hcounted := htaken.counted_le
        rw [outcomesOf_cons]
        refine ⟨frames, left, Action.session_cons hrun hsession, Nat.le_trans hle ?_⟩
        dsimp only
        omega

theorem exists_readsOut
    (hlayout : Layout.compute header.format header.width header.height = .ok layout)
    (hsize : layout.size ≤ frameLimit) (n : Nat) (bytes : List UInt8) :
    exists items, ReadsOut layout ⟨header, n, bytes⟩ items := by
  induction hbytes : bytes.length using Nat.strongRecOn generalizing n bytes with
  | ind length ih =>
      rcases run_readFrame hlayout hsize n bytes with ⟨outcome, rest, hrun, htaken⟩
      by_cases hmore : outcome = .ok none
      · subst hmore
        rcases htaken.nil_of_none with ⟨rfl, rfl⟩
        exact ⟨[], readsOut_nil layout header n⟩
      · have hless := (htaken.consumes hmore).length_lt
        rcases exists_item hmore with ⟨item, rfl⟩
        rcases ih rest.length (hbytes ▸ hless) _ rest rfl with ⟨items, hitems⟩
        exact ⟨item :: items, hitems.cons hrun htaken hless⟩

/-- A call takes something from the stream, or nothing is left and it finds the end. -/
def Advances (reader : Reader) : Prop :=
  exists outcome next, readFrame.run reader = .ok (outcome, next) ∧
    (outcome = .ok none ∧ reader.rest = [] ∧ next = reader ∨
      outcome ≠ .ok none ∧ Consumes reader.rest next.rest)

theorem advances
    (hlayout : Layout.compute header.format header.width header.height = .ok layout)
    (hsize : layout.size ≤ frameLimit) (n : Nat) (bytes : List UInt8) :
    Advances ⟨header, n, bytes⟩ := by
  rcases run_readFrame hlayout hsize n bytes with ⟨outcome, rest, hrun, htaken⟩
  refine ⟨outcome, _, hrun, ?_⟩
  by_cases hmore : outcome = .ok none
  · subst hmore
    rcases htaken.nil_of_none with ⟨rfl, rfl⟩
    exact Or.inl ⟨rfl, rfl, rfl⟩
  · exact Or.inr ⟨hmore, htaken.consumes hmore⟩

/--
Whatever a stream holds, a reader ends without a fault.  The sums and products in its layout
fit their words, every sample of a frame lies in its plane, and however often the reader is
called, it gives a bounded number of items, each of which takes something from the stream,
and behind them only ends.
-/
theorem reading_ends_on_every_stream (stream : List UInt8) :
    Attempt.Settles (start stream) ∧
    (forall text header, Header.parse text = .ok header ->
      Layout.Exact header.format header.width header.height) ∧
    forall reader, Attempt.Answers (start stream) reader -> reader.frames = 0 ∧
      exists layout items,
        Layout.compute reader.header.format reader.header.width reader.header.height =
            .ok layout ∧
          layout.size ≤ 256 * 1024 * 1024 ∧ (Image.viewOf layout).Covered ∧
            (Image.viewOf layout).Writable layout.size ∧ ReadsOut layout reader items ∧
              forall calls outcomes last,
                Action.session (List.replicate calls readFrame) reader = .ok (outcomes, last) ->
                  Advances last := by
  refine ⟨settles_start stream, ?_, ?_⟩
  · intro text header hparse
    rcases Header.sides_lt_of_parse hparse with ⟨hwidth, hheight⟩
    exact Layout.exact_of_lt hwidth hheight
  · intro reader hreader
    rcases answers_start_iff.mp hreader with ⟨hframes, _, _, _, hcheck⟩
    rcases checkSize_eq_ok.mp hcheck with ⟨layout, hlayout, hsize⟩
    rcases exists_readsOut hlayout hsize reader.frames reader.rest with ⟨items, hreads⟩
    refine ⟨hframes, layout, items, hlayout, hsize, covered_of_limit hlayout hsize,
      Image.writable_viewOf hlayout, hreads, ?_⟩
    intro calls outcomes last hlast
    rcases hreads.calls calls with ⟨frames, rest, hsession, _⟩
    have hsame := hlast.symm.trans hsession
    cases hsame
    exact advances hlayout hsize frames rest

/-- A frame, a line that is none, and a frame that ends early. -/
theorem reading_ends_on_every_stream_gray :
    exists (stream : List UInt8) (text : List Char) (reader last : Reader) (layout : Layout)
      (items : List (Except Error Image)),
      Header.parse text = .ok reader.header ∧
      Layout.Exact reader.header.format reader.header.width reader.header.height ∧
      Attempt.Answers (start stream) reader ∧ reader.rest.length = 18 ∧
      ReadsOut layout reader items ∧
      Action.session (List.replicate 4 readFrame) reader = .ok (outcomesOf items 4, last) ∧
      Advances last := by
  have hparse : Header.parse "YUV4MPEG2 W2 H1 Cmono".toList =
      .ok ⟨.y800, 2, 1, Ratio.unknown, Ratio.unknown, .progressive⟩ := rfl
  have hlimited : Limited ⟨.y800, 2, 1, Ratio.unknown, Ratio.unknown, .progressive⟩ :=
    ⟨⟨.y800, 2, 1, #v[16, 0, 0, 0], #v[16, 0, 0, 0], #v[0, 0, 0, 0], 256⟩, by decide +kernel,
      by decide⟩
  have hopens : Opens
      (Utf8.encode "YUV4MPEG2 W2 H1 Cmono".toList ++ newline ::
        (ascii "FRAME" ++ [newline, 7, 9] ++ ascii "FR" ++ [newline] ++ ascii "FRAME" ++
          [newline, 5])) "YUV4MPEG2 W2 H1 Cmono".toList _ :=
    ⟨rfl, by decide, by decide⟩
  rcases reading_ends_on_every_stream _ with ⟨_, hexact, hreads⟩
  have hstart : Attempt.Answers (start _) ⟨_, 0, _⟩ :=
    answers_start_iff.mpr ⟨rfl, _, hopens, hparse, checkSize_eq_ok.mpr hlimited⟩
  rcases hreads _ hstart with ⟨_, layout, items, _, _, _, _, hreadsOut, hadvances⟩
  rcases hreadsOut.calls 4 with ⟨frames, rest, hsession, _⟩
  exact ⟨_, _, _, _, layout, items, hparse, hexact _ _ hparse, hstart, rfl, hreadsOut, hsession,
    hadvances 4 _ _ hsession⟩

end Reader
end RawVideo

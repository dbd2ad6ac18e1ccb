import RawVideo.Proofs.Stream.Progress
import RawVideo.Proofs.Stream.RoundTrip

/-!
# Streams cut short

Cut anywhere, a written stream reads as the frames that are whole.  A cut behind a frame is
the end of the stream; a cut inside a frame or inside the header line is an error, whether it
falls into a line or into a payload.
-/

namespace RawVideo
namespace Reader

open StreamFrame

variable {header : Header} {layout : Layout} {picture : Picture} {pictures : List Picture}
variable {n j : Nat}

/-!
## Torn frames
-/

theorem take_encoding_line (h : j ≤ 5) (picture : Picture) :
    (encoding picture).take j = (ascii marker).take j := by
  unfold encoding
  exact List.take_append_of_le_length h

theorem take_encoding_payload (j : Nat) (picture : Picture) :
    (encoding picture).take (6 + j) = ascii marker ++ newline ::
      (payload picture.view (picture.view.content picture.memory)).take j := by
  have hopening : 6 = (ascii marker ++ [newline]).length := rfl
  rw [encoding_eq, hopening, List.take_length_add_append, List.append_assoc]
  rfl

theorem reports_readFrame_marker (hpos : 0 < j) (hle : j ≤ 5) :
    Action.Reports readFrame ⟨header, n, (ascii marker).take j⟩ (.transport .unterminatedLine)
      ⟨header, n, []⟩ := by
  have hlength : ((ascii marker).take j).length = j := List.length_take_of_le hle
  have hline : newline ∉ (ascii marker).take j := fun hmem =>
    absurd (List.mem_of_mem_take hmem) (by decide)
  have hshort : ((ascii marker).take j).length < Source.lineLimit := by
    rw [hlength]
    exact Nat.lt_of_le_of_lt hle (by decide)
  have hnonempty : (ascii marker).take j ≠ [] := by
    rw [← List.length_pos_iff, hlength]
    exact hpos
  exact (reports_readMarker (Source.reports_readLine_cut hline hshort hnonempty)).bind _

theorem reports_readFrame_payload
    (hlayout : Layout.compute header.format header.width header.height = .ok layout)
    (hsize : layout.size ≤ frameLimit) (hfits : header.check picture.view = .ok ())
    (hlt : 6 + j < (encoding picture).length) :
    Action.Reports readFrame ⟨header, n, (encoding picture).take (6 + j)⟩
      (.transport .endOfStream) ⟨header, n, []⟩ := by
  rcases alike_of_check (check_viewOf hlayout) hfits with ⟨hwidth, hheight, hformat⟩
  have hsame : payloadLength (Image.viewOf layout) = payloadLength picture.view :=
    payloadLength_congr hformat hwidth hheight
  have hshort : ((payload picture.view (picture.view.content picture.memory)).take j).length <
      payloadLength (Image.viewOf layout) := by
    rw [length_encoding] at hlt
    rw [List.length_take, length_payload, hsame]
    omega
  rcases reports_readPayload (covered_of_limit hlayout hsize) (writable_zeros hlayout) hshort with
    ⟨memory, rest, hpayload, hstored⟩
  cases hstored.ended
  rw [take_encoding_payload]
  exact reports_readFrame_image hlayout hsize (answers_readMarker _) hpayload

/-- A frame that is not whole is an error of the transport, and uses up the stream. -/
theorem reports_readFrame_torn
    (hlayout : Layout.compute header.format header.width header.height = .ok layout)
    (hsize : layout.size ≤ frameLimit) (hfits : header.check picture.view = .ok ())
    (hpos : 0 < j) (hlt : j < (encoding picture).length) :
    exists cause,
      Action.Reports readFrame ⟨header, n, (encoding picture).take j⟩ (.transport cause)
        ⟨header, n, []⟩ := by
  by_cases hline : j ≤ 5
  · rw [take_encoding_line hline]
    exact ⟨_, reports_readFrame_marker hpos hline⟩
  · rcases Nat.exists_eq_add_of_lt (Nat.lt_of_not_le hline) with ⟨i, rfl⟩
    rw [show 5 + i + 1 = 6 + i from by omega] at hlt ⊢
    exact ⟨_, reports_readFrame_payload hlayout hsize hfits hlt⟩

/-!
## Runs over whole frames
-/

/-- An image has the samples of a picture, in a layout. -/
def Copies (layout : Layout) (image : Image) (picture : Picture) : Prop :=
  image.layout? = some layout ∧
    (Image.viewOf layout).Matches image.memory picture.view picture.memory

/-- The bytes of the first frames of a stream. -/
def framesLength (pictures : List Picture) (count : Nat) : Nat :=
  ((pictures.take count).flatMap encoding).length

theorem framesLength_zero (pictures : List Picture) : framesLength pictures 0 = 0 := rfl

theorem framesLength_succ (picture : Picture) (pictures : List Picture) (count : Nat) :
    framesLength (picture :: pictures) (count + 1) =
      (encoding picture).length + framesLength pictures count := by
  unfold framesLength
  rw [List.take_succ_cons, List.flatMap_cons, List.length_append]

/--
What a cut behind `j` bytes leaves of some frames: images of those that are whole, and then
the end of the stream where the cut is at the end of a frame, and an error elsewhere.
-/
structure Left (layout : Layout) (pictures : List Picture) (j : Nat) (images : List Image)
    (outcome : Except Error (Option Image)) : Prop where
  whole : forall i, i ≤ pictures.length -> (framesLength pictures i ≤ j ↔ i ≤ images.length)
  copies : List.Forall₂ (Copies layout) images (pictures.take images.length)
  ended : outcome = .ok none ↔ exists i, i ≤ pictures.length ∧ j = framesLength pictures i
  torn : outcome ≠ .ok none -> exists cause, outcome = .error (.transport cause)

theorem encoding_pos (picture : Picture) : 0 < (encoding picture).length := by
  rw [length_encoding]
  exact Nat.add_pos_left (by decide) _

theorem framesLength_pos {i : Nat} (hpos : 0 < i) (hle : i ≤ pictures.length) :
    0 < framesLength pictures i := by
  cases pictures with
  | nil => exact absurd hle (Nat.not_le.mpr hpos)
  | cons picture pictures =>
      rcases Nat.exists_eq_add_of_lt hpos with ⟨count, rfl⟩
      rw [Nat.zero_add, framesLength_succ]
      exact Nat.add_pos_left (encoding_pos picture) _

theorem left_ended (layout : Layout) (pictures : List Picture) :
    Left layout pictures 0 [] (.ok none) := by
  refine ⟨?_, List.Forall₂.nil, ?_, fun hmore => (hmore rfl).elim⟩
  · intro i hi
    cases i with
    | zero => exact iff_of_true (Nat.le_refl 0) (Nat.le_refl 0)
    | succ i =>
        have hpos := framesLength_pos (Nat.succ_pos i) hi
        exact iff_of_false (Nat.not_le.mpr hpos) (Nat.not_succ_le_zero i)
  · constructor
    · intro _
      exact ⟨0, Nat.zero_le _, rfl⟩
    · intro _
      rfl

theorem left_torn (hpos : 0 < j) (hlt : j < (encoding picture).length)
    (pictures : List Picture) (cause : Transport) :
    Left layout (picture :: pictures) j [] (.error (.transport cause)) := by
  refine ⟨?_, List.Forall₂.nil, ?_, fun _ => ⟨cause, rfl⟩⟩
  · intro i _
    cases i with
    | zero => exact iff_of_true (Nat.zero_le j) (Nat.le_refl 0)
    | succ i =>
        rw [framesLength_succ]
        exact iff_of_false (by omega) (Nat.not_succ_le_zero i)
  · constructor
    · intro hended
      cases hended
    · intro h'
      rcases h' with ⟨i, _, hj⟩
      cases i with
      | zero =>
          rw [framesLength_zero] at hj
          omega
      | succ i =>
          rw [framesLength_succ] at hj
          omega

theorem Left.cons {image : Image} {images : List Image} {outcome : Except Error (Option Image)}
    (himage : Copies layout image picture) (h : Left layout pictures j images outcome) :
    Left layout (picture :: pictures) ((encoding picture).length + j) (image :: images)
      outcome := by
  have hpos := encoding_pos picture
  refine ⟨?_, List.Forall₂.cons himage h.copies, ?_, h.torn⟩
  · intro i hi
    cases i with
    | zero => exact iff_of_true (Nat.zero_le _) (Nat.zero_le _)
    | succ i =>
        rw [framesLength_succ, List.length_cons, Nat.add_le_add_iff_left,
          Nat.add_le_add_iff_right]
        exact h.whole i (Nat.le_of_succ_le_succ hi)
  · rw [h.ended]
    constructor
    · intro h'
      rcases h' with ⟨i, hi, rfl⟩
      exact ⟨i + 1, Nat.succ_le_succ hi, (framesLength_succ picture pictures i).symm⟩
    · intro h'
      rcases h' with ⟨i, hi, hj⟩
      cases i with
      | zero =>
          rw [framesLength_zero] at hj
          omega
      | succ i =>
          rw [framesLength_succ] at hj
          exact ⟨i, Nat.le_of_succ_le_succ hi, Nat.add_left_cancel hj⟩

theorem session_cut
    (hlayout : Layout.compute header.format header.width header.height = .ok layout)
    (hsize : layout.size ≤ frameLimit)
    (hpictures : forall picture, picture ∈ pictures ->
      picture.view.Covered ∧ header.check picture.view = .ok ())
    (hle : j ≤ (pictures.flatMap encoding).length) (n : Nat) :
    exists images outcome, Left layout pictures j images outcome ∧
      forall more,
        Action.session (List.replicate (more + (images.length + 1)) readFrame)
            ⟨header, n, (pictures.flatMap encoding).take j⟩ =
          .ok (images.map (fun image => .ok (some image)) ++ outcome ::
            List.replicate more (.ok none), ⟨header, n + images.length, []⟩) := by
  induction pictures generalizing j n with
  | nil =>
      have hzero : j = 0 := Nat.le_zero.mp hle
      subst hzero
      refine ⟨[], .ok none, left_ended layout [], ?_⟩
      intro more
      exact Action.session_cons answers_readFrame_nil (session_ended header n more)
  | cons picture pictures ih =>
      rw [List.forall_mem_cons] at hpictures
      rw [List.flatMap_cons, List.length_append] at hle
      rw [List.flatMap_cons]
      by_cases hwhole : (encoding picture).length ≤ j
      · rcases Nat.exists_eq_add_of_le hwhole with ⟨i, rfl⟩
        rw [List.take_length_add_append]
        rcases answers_readFrame (n := n) hlayout hsize hpictures.left.left hpictures.left.right
          ((pictures.flatMap encoding).take i) with ⟨memory, hread, hmatches⟩
        rcases ih hpictures.right (Nat.le_of_add_le_add_left hle) (n + 1) with
          ⟨images, outcome, hleft, hsession⟩
        refine ⟨⟨some layout, memory⟩ :: images, outcome, hleft.cons ⟨rfl, hmatches⟩, ?_⟩
        intro more
        have hframes : n + (images.length + 1) = n + 1 + images.length := by omega
        rw [List.length_cons, hframes]
        exact Action.session_cons hread (hsession more)
      · have hlt := Nat.lt_of_not_le hwhole
        rw [List.take_append_of_le_length (Nat.le_of_lt hlt)]
        by_cases hzero : j = 0
        · subst hzero
          refine ⟨[], .ok none, left_ended layout _, ?_⟩
          intro more
          exact Action.session_cons answers_readFrame_nil (session_ended header n more)
        · have hpos := Nat.pos_of_ne_zero hzero
          rcases reports_readFrame_torn (n := n) hlayout hsize hpictures.left.right hpos hlt with
            ⟨cause, hread⟩
          refine ⟨[], _, left_torn hpos hlt pictures cause, ?_⟩
          intro more
          exact Action.session_cons hread (session_ended header n more)

/-!
## Whole streams
-/

theorem run_start_torn {line : String} (hinline : Inline line.toList) (hshort : line.length < 1024)
    (hlt : j < (Writer.lineOf line).length) (rest : List UInt8) :
    (start ((Writer.lineOf line ++ rest).take j)).run =
      .ok (.error (if j = 0 then .signature "" else .transport .unterminatedLine)) := by
  have hle : j ≤ (ascii line).length := by
    unfold Writer.lineOf at hlt
    rw [List.length_append] at hlt
    exact Nat.le_of_lt_succ hlt
  have htake : (Writer.lineOf line ++ rest).take j = (ascii line).take j := by
    unfold Writer.lineOf
    rw [List.append_assoc, List.take_append_of_le_length hle]
  have hlength : ((ascii line).take j).length = j := List.length_take_of_le hle
  rw [htake]
  split
  next hzero =>
    subst hzero
    exact run_start Source.answers_readLine_nil
  next hpos =>
    have hline : newline ∉ (ascii line).take j := fun hmem =>
      newline_not_mem_ascii hinline (List.mem_of_mem_take hmem)
    have hlimit : ((ascii line).take j).length < Source.lineLimit := by
      rw [hlength]
      rw [length_ascii] at hle
      exact Nat.lt_of_le_of_lt hle hshort
    have hnonempty : (ascii line).take j ≠ [] := by
      rw [← List.length_pos_iff, hlength]
      exact Nat.pos_of_ne_zero hpos
    exact run_start (Source.reports_readLine_cut hline hlimit hnonempty)

/-- A stream of a header line and frames reads, cut anywhere, as what the cut leaves of it. -/
structure DetectsCuts (stream : List UInt8) (line : String) (header : Header) (layout : Layout)
    (pictures : List Picture) : Prop where
  split : stream = Writer.lineOf line ++ pictures.flatMap encoding
  opening : forall j, j < (Writer.lineOf line).length ->
    (start (stream.take j)).run =
      .ok (.error (if j = 0 then .signature "" else .transport .unterminatedLine))
  behind : forall j, (Writer.lineOf line).length + j ≤ stream.length ->
    exists rest images outcome, Left layout pictures j images outcome ∧
      Attempt.Answers (start (stream.take ((Writer.lineOf line).length + j)))
        ⟨header, 0, rest⟩ ∧
      forall more,
        Action.session (List.replicate (more + (images.length + 1)) readFrame)
            ⟨header, 0, rest⟩ =
          .ok (images.map (fun image => .ok (some image)) ++ outcome ::
            List.replicate more (.ok none), ⟨header, images.length, []⟩)

theorem detectsCuts_of_render {line : String} {canonical : Format} (hwords : header.Words)
    (hline : header.render = .ok line)
    (hpictures : forall picture, picture ∈ pictures ->
      picture.view.Covered ∧ header.check picture.view = .ok ())
    (hcanonical : Colorspace.canonical? header.format = some canonical)
    (hlayout : Layout.compute canonical header.width header.height = .ok layout)
    (hsize : layout.size ≤ frameLimit) :
    DetectsCuts (Writer.lineOf line ++ pictures.flatMap encoding) line
      { header with format := canonical } layout pictures := by
  rcases Header.inline_render hline hwords with ⟨hinline, hshort⟩
  have hfits := fits_canonical hline hcanonical hpictures
  refine ⟨rfl, ?_, ?_⟩
  · intro j hlt
    exact run_start_torn hinline (Nat.lt_trans hshort (by decide)) hlt _
  · intro j hle
    rw [List.length_append, Nat.add_le_add_iff_left] at hle
    rcases session_cut hlayout hsize hfits hle 0 with ⟨images, outcome, hleft, hsession⟩
    rw [Nat.zero_add] at hsession
    refine ⟨_, images, outcome, hleft, ?_, hsession⟩
    rw [List.take_length_add_append]
    unfold Writer.lineOf
    rw [List.append_assoc]
    exact answers_start hline hwords hcanonical hlayout hsize _

/--
A cut is always detected.  A writer answers whatever calls it gets, and the stream that it leaves
may end anywhere: the frames that are whole read back, and behind them a reader finds the end
of the stream exactly where the cut is at the end of the header or of a frame.
-/
theorem truncation_is_detected {calls : List Writer.Call}
    (hcalls : forall call, call ∈ calls -> call.Sound) :
    exists writer,
      Action.session (calls.map Writer.Call.run) (Writer.new (Sink.empty none)) =
        .ok (Writer.outcomes [] calls, writer) ∧
      forall first others,
        Writer.succeeded calls (Writer.outcomes [] calls) = first :: others ->
          exists canonical line, Colorspace.canonical? first.opening.format = some canonical ∧
            first.opening.resolve.render = .ok line ∧
            forall layout,
              Layout.compute canonical first.opening.width first.opening.height = .ok layout ->
              layout.size ≤ 256 * 1024 * 1024 ->
                DetectsCuts writer.sink.bytes.toList line
                  { first.opening.resolve with format := canonical } layout
                  (Writer.framesOf (first :: others)) := by
  rcases Writer.session_holds Writer.Holds.nothing hcalls with ⟨writer, hrun, hholds⟩
  refine ⟨writer, hrun, ?_⟩
  intro first others hfirst
  rw [List.nil_append, hfirst] at hholds
  cases hholds with
  | stream hwords hline hfits =>
      rcases Header.render_eq_ok hline with ⟨_, _, token, htoken, _⟩
      rcases Colorspace.canonical?_spec htoken with ⟨canonical, hcanonical, _⟩
      refine ⟨canonical, _, hcanonical, hline, ?_⟩
      intro layout hlayout hsize
      exact detectsCuts_of_render hwords.resolve hline hfits hcanonical hlayout hsize

/-- A frame with interleaved chroma, and a cut anywhere in its stream. -/
theorem truncation_is_detected_nv12 :
    exists (nv12 : View) (origin : Memory) (writer : Writer) (line : String) (header : Header)
      (layout : Layout),
      origin.size = 17 ∧ Attempt.Answers (View.ofPlanes .nv12 3 3 [9, 8] [3, 4]) nv12 ∧
      Action.session ([.header header, .frame ⟨nv12, origin⟩].map Writer.Call.run)
          (Writer.new (Sink.empty none)) = .ok ([.ok (), .ok ()], writer) ∧
      DetectsCuts writer.sink.bytes.toList line header layout [⟨nv12, origin⟩] := by
  have hnv12 : Attempt.Answers (View.ofPlanes .nv12 3 3 [9, 8] [3, 4])
      ⟨.nv12, 3, 3, #v[⟨⟨0, 9⟩, 3⟩, ⟨⟨9, 8⟩, 4⟩, Plane.none, Plane.none]⟩ := rfl
  have hmemory : exists origin : Memory, origin.size = 17 :=
    ⟨#[1, 2, 3, 4, 5, 6, 7, 8, 9, 10, 11, 12, 13, 14, 15, 16, 17], rfl⟩
  rcases hmemory with ⟨origin, hsize⟩
  have hheader : (Writer.Call.header ⟨.i420, 3, 3, ⟨25, 1⟩, ⟨1, 1⟩, .progressive⟩).Sound :=
    ⟨by decide, by decide, ⟨by decide, by decide⟩, ⟨by decide, by decide⟩⟩
  have hframe : (Writer.Call.frame ⟨_, origin⟩).Sound := View.covered_of_ofPlanes hnv12
  have hcalls : forall call : Writer.Call, call ∈ _ -> call.Sound :=
    List.forall_mem_cons.mpr ⟨hheader, List.forall_mem_cons.mpr
      ⟨hframe, fun _ hmem => (List.not_mem_nil hmem).elim⟩⟩
  rcases truncation_is_detected hcalls with ⟨writer, hrun, hcuts⟩
  rcases hcuts (.header _) [.frame ⟨_, _⟩] rfl with ⟨canonical, line, hcanonical, _, hcuts⟩
  have hvalue : Colorspace.canonical? .i420 = some .i420 := by decide +kernel
  have hi420 : canonical = .i420 := Option.some.inj (hcanonical.symm.trans hvalue)
  subst hi420
  have hlayout : Layout.compute .i420 3 3 =
      .ok ⟨.i420, 3, 3, #v[16, 8, 8, 0], #v[16, 8, 8, 0], #v[0, 256, 320, 0], 384⟩ := by
    decide +kernel
  exact ⟨_, origin, writer, line, _, _, hsize, hnv12, hrun, hcuts _ hlayout (by decide)⟩

end Reader
end RawVideo

import RawVideo.Proofs.Conversion.Content
import RawVideo.Proofs.Stream.Read
import RawVideo.Proofs.Stream.Written

/-!
# Frames passed on

A frame that is read into a picture and written from there goes out as the bytes that came
in, whatever the layout of the picture: stored bytes are kept with the bits above the depth of
a sample, and samples that lie apart fill the bytes that hold them.
-/

namespace RawVideo

variable {format other : Format} {memory : Memory} {header : Header} {n : Nat}

/-!
## Lengths of frames
-/

namespace Format

/-- The bytes of all samples of a component. -/
def componentLength (format : Format) (width height c : Nat) : Nat :=
  match format.component c with
  | .ok comp => format.lines c height * (format.columns c width * comp.bytes)
  | .error _ => 0

/-- The bytes of all samples of a frame. -/
def frameLength (format : Format) (width height : Nat) : Nat :=
  (List.range format.components.length).foldr
    (fun c total => format.componentLength width height c + total) 0

theorem componentLength_congr (h : format.Alike other) (width height c : Nat) :
    format.componentLength width height c = other.componentLength width height c := by
  unfold componentLength
  cases hcomp : format.component c with
  | ok comp =>
      rcases h.exists_component hcomp with ⟨second, hsecond⟩
      rw [hsecond]
      dsimp only
      rw [h.lines_eq, h.columns_eq, h.bytes_eq hcomp hsecond]
  | error fault =>
      cases hsecond : other.component c with
      | error _ => rfl
      | ok second =>
          rcases h.symm.exists_component hsecond with ⟨comp, hcomp'⟩
          rw [hcomp] at hcomp'
          cases hcomp'

theorem frameLength_congr (h : format.Alike other) (width height : Nat) :
    format.frameLength width height = other.frameLength width height := by
  unfold frameLength
  simp only [h.components, componentLength_congr h]

end Format

namespace StreamFrame

theorem rowsLength_append (view : View) (rows others : List (Nat × Nat)) :
    rowsLength view (rows ++ others) = rowsLength view rows + rowsLength view others := by
  induction rows with
  | nil => exact (Nat.zero_add _).symm
  | cons row rest ih => rw [List.cons_append, rowsLength, rowsLength, ih, Nat.add_assoc]

theorem rowsLength_lines (view : View) (c count : Nat) :
    rowsLength view ((List.range count).map fun y => (c, y)) =
      count * rowCount view (c, 0) := by
  induction count with
  | zero => exact (Nat.zero_mul _).symm
  | succ count ih =>
      rw [List.range_succ, List.map_append, rowsLength_append, ih, Nat.succ_mul]
      rfl

theorem componentLength_eq (view : View) (c : Nat) :
    view.format.componentLength view.width view.height c =
      view.lines c * rowCount view (c, 0) := by
  unfold Format.componentLength rowCount
  cases view.format.component c with
  | ok comp => rfl
  | error _ => rfl

theorem payloadLength_eq (view : View) :
    payloadLength view = view.format.frameLength view.width view.height := by
  unfold payloadLength visibleRows Format.frameLength
  induction List.range view.format.components.length with
  | nil => rfl
  | cons c rest ih =>
      rw [List.flatMap_cons, rowsLength_append, ih, rowsLength_lines, List.foldr_cons,
        componentLength_eq]

end StreamFrame

namespace Reader

open StreamFrame

/-!
## Reading and writing
-/

/-- A picture can take the frames of a stream and is there to be written to. -/
structure Takes (header : Header) (target : View) (memory : Memory) : Prop where
  width : target.width = header.width
  height : target.height = header.height
  format : header.format.Alike target.format
  covered : target.Covered
  writable : target.Writable memory.size

theorem Takes.check {target : View} (h : Takes header target memory) :
    header.check target = .ok () :=
  Header.check_eq_ok.mpr ⟨h.width, h.height, h.format⟩

theorem Takes.payloadLength_eq {target : View} (h : Takes header target memory) :
    payloadLength target = header.format.frameLength header.width header.height := by
  rw [StreamFrame.payloadLength_eq, h.width, h.height, Format.frameLength_congr h.format]

theorem Takes.readInto {target : View} (h : Takes header target memory)
    {line bytes rest : List UInt8} (hline : MarkerLine line)
    (hlength : bytes.length = header.format.frameLength header.width header.height) :
    exists after,
      Action.Answers (readInto target)
        ⟨⟨header, n, line ++ newline :: (bytes ++ rest)⟩, memory⟩ true
        ⟨⟨header, n + 1, rest⟩, after⟩ ∧
      payload target (target.content after) = bytes := by
  rcases answers_readPayload_bytes h.covered h.writable (hlength.trans h.payloadLength_eq.symm)
    rest with ⟨after, hafter, _, hbytes⟩
  exact ⟨after, answers_readInto_payload h.check (hline.answers _) hafter, hbytes⟩

/--
A frame that was read is written as it came.  Behind any marker line that the reader accepts,
any bytes of the length of a frame are read into any picture that fits the stream, whatever it
held before, and a writer of such a stream sends the same bytes from there.  Any other picture
takes the same bytes from the stream and ends with the same samples.
-/
theorem frames_pass_through_any_layout (header : Header) (n : Nat) :
    (forall bytes rest,
      Action.Answers readMarker ⟨header, n, bytes⟩ true ⟨header, n, rest⟩ ↔
        exists line, MarkerLine line ∧ bytes = line ++ newline :: rest) ∧
    forall line bytes rest target memory, MarkerLine line ->
      bytes.length = header.format.frameLength header.width header.height ->
      Takes header target memory -> exists after,
        Action.Answers (readInto target)
          ⟨⟨header, n, line ++ newline :: (bytes ++ rest)⟩, memory⟩ true
          ⟨⟨header, n + 1, rest⟩, after⟩ ∧
        (forall info sent m, info.format = header.format -> info.width = header.width ->
          info.height = header.height ->
            Action.Answers (Writer.writeFrame ⟨target, after⟩)
              (Writer.holding sent (some info) m) ()
              (Writer.holding (sent ++ (ascii "FRAME" ++ newline :: bytes)) (some info)
                (m + 1))) ∧
        forall other memory', Takes header other memory' -> exists after',
          Action.Answers (readInto other)
            ⟨⟨header, n, line ++ newline :: (bytes ++ rest)⟩, memory'⟩ true
            ⟨⟨header, n + 1, rest⟩, after'⟩ ∧
          Converter.SameSamples ⟨other, after'⟩ ⟨target, after⟩ := by
  refine ⟨fun _ _ => answers_readMarker_iff, ?_⟩
  intro line bytes rest target memory hline hlength htarget
  rcases htarget.readInto hline hlength with ⟨after, hafter, hbytes⟩
  refine ⟨after, hafter, ?_, ?_⟩
  · intro info sent m hformat hwidth hheight
    have hcheck : info.check target = .ok () := Header.check_eq_ok.mpr
      ⟨htarget.width.trans hwidth.symm, htarget.height.trans hheight.symm,
        hformat.symm ▸ htarget.format⟩
    have hencoding : encoding ⟨target, after⟩ = ascii "FRAME" ++ newline :: bytes := by
      unfold encoding
      rw [hbytes]
      rfl
    rw [← hencoding]
    exact Writer.answers_writeFrame htarget.covered hcheck
  · intro other memory' hother
    have hcovered : (Picture.mk target after).view.Covered := htarget.covered
    have hcheck : header.check (Picture.mk target after).view = .ok () := htarget.check
    have hread : exists after',
        Action.Answers (readPayload other .inMemory)
          ⟨⟨header, n, payload target (target.content after) ++ rest⟩, memory'⟩ ()
          ⟨⟨header, n + 1, rest⟩, after'⟩ ∧
        other.Matches after' target after :=
      answers_readFrame_payload hother.covered hother.writable hother.check hcovered hcheck rest
    rw [hbytes] at hread
    rcases hread with ⟨after', hafter', hmatches⟩
    exact ⟨after', answers_readInto_payload hother.check (hline.answers _) hafter',
      Converter.sameSamples_of_matches hmatches⟩

/-- A frame behind parameters, read into two layouts and sent from one of them. -/
theorem frames_pass_through_any_layout_nv12 :
    exists (nv12 i420 : View) (after after' : Memory),
      Attempt.Answers (View.ofPlanes .nv12 3 3 [9, 8] [3, 4]) nv12 ∧
      Attempt.Answers (View.ofPlanes .i420 3 3 [9, 4, 4] [3, 2, 2]) i420 ∧
      Action.Answers (readInto nv12)
        ⟨⟨Header.ofFrames .i420 3 3, 0, ascii "FRAME Ip" ++ newline ::
          ([1, 2, 3, 4, 5, 6, 7, 8, 9, 10, 11, 12, 13, 14, 15, 16, 17] ++ [18])⟩,
          Memory.zeros 17⟩ true ⟨⟨Header.ofFrames .i420 3 3, 1, [18]⟩, after⟩ ∧
      Action.Answers (Writer.writeFrame ⟨nv12, after⟩)
        (Writer.holding [] (some (Header.ofFrames .i420 3 3).resolve) 0) ()
        (Writer.holding (ascii "FRAME" ++ newline ::
          [1, 2, 3, 4, 5, 6, 7, 8, 9, 10, 11, 12, 13, 14, 15, 16, 17])
          (some (Header.ofFrames .i420 3 3).resolve) 1) ∧
      Action.Answers (readInto i420)
        ⟨⟨Header.ofFrames .i420 3 3, 0, ascii "FRAME Ip" ++ newline ::
          ([1, 2, 3, 4, 5, 6, 7, 8, 9, 10, 11, 12, 13, 14, 15, 16, 17] ++ [18])⟩,
          Memory.zeros 17⟩ true ⟨⟨Header.ofFrames .i420 3 3, 1, [18]⟩, after'⟩ ∧
      Converter.SameSamples ⟨i420, after'⟩ ⟨nv12, after⟩ := by
  have hnv12 : Attempt.Answers (View.ofPlanes .nv12 3 3 [9, 8] [3, 4])
      ⟨.nv12, 3, 3, #v[⟨⟨0, 9⟩, 3⟩, ⟨⟨9, 8⟩, 4⟩, Plane.none, Plane.none]⟩ := rfl
  have hi420 : Attempt.Answers (View.ofPlanes .i420 3 3 [9, 4, 4] [3, 2, 2])
      ⟨.i420, 3, 3, #v[⟨⟨0, 9⟩, 3⟩, ⟨⟨9, 4⟩, 2⟩, ⟨⟨13, 4⟩, 2⟩, Plane.none]⟩ := rfl
  have halike : Format.Alike .i420 .nv12 :=
    ⟨by decide +kernel, by decide +kernel, by decide +kernel⟩
  have htakes : Takes (Header.ofFrames .i420 3 3)
      ⟨.nv12, 3, 3, #v[⟨⟨0, 9⟩, 3⟩, ⟨⟨9, 8⟩, 4⟩, Plane.none, Plane.none]⟩ (Memory.zeros 17) :=
    ⟨rfl, rfl, halike, View.covered_of_ofPlanes hnv12,
      View.writable_of_ofPlanes hnv12 (by decide)⟩
  have htakes' : Takes (Header.ofFrames .i420 3 3)
      ⟨.i420, 3, 3, #v[⟨⟨0, 9⟩, 3⟩, ⟨⟨9, 4⟩, 2⟩, ⟨⟨13, 4⟩, 2⟩, Plane.none]⟩ (Memory.zeros 17) :=
    ⟨rfl, rfl, Format.Alike.refl _, View.covered_of_ofPlanes hi420,
      View.writable_of_ofPlanes hi420 (by decide)⟩
  have hline : MarkerLine (ascii "FRAME Ip") :=
    ⟨by decide, by decide, Or.inr ⟨ascii "Ip", by decide⟩⟩
  have hlength :
      ([1, 2, 3, 4, 5, 6, 7, 8, 9, 10, 11, 12, 13, 14, 15, 16, 17] : List UInt8).length =
        Format.frameLength .i420 3 3 := by
    decide +kernel
  rcases (frames_pass_through_any_layout (Header.ofFrames .i420 3 3) 0).right _ _ [18] _ _
    hline hlength htakes with ⟨after, hafter, hsends, hothers⟩
  rcases hothers _ _ htakes' with ⟨after', hafter', hsame⟩
  exact ⟨_, _, after, after', hnv12, hi420, hafter, hsends _ [] 0 rfl rfl rfl, hafter', hsame⟩

end Reader
end RawVideo

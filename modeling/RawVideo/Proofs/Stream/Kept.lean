import RawVideo.Proofs.Digest.Frames
import RawVideo.Proofs.Stream.Written

/-!
# Streams that writers keep

At every point of any run of calls, a writer holds nothing, or one header line and the stored
samples of the frames that it accepted.  A call that is refused changes nothing, and a header
stays once it is written.
-/

namespace RawVideo

variable {picture : Picture} {view : View} {comp : Component} {c x y : Nat}

/-!
## Stored frames
-/

/-- The stored bytes of all components, one behind the other. -/
def Picture.storedFrame (picture : Picture) : Checked (List UInt8) := do
  let components <- (List.range picture.format.components.length).mapM picture.storedComponent
  return components.flatten

/-- Every visible sample is stored in one byte, or in two with the low byte first. -/
def Picture.InBytes (picture : Picture) : Prop :=
  forall c x y, picture.view.Visible c x y -> exists comp bytes,
    picture.format.component c = .ok comp ∧ (comp.bytes = 1 ∨ comp.bytes = 2) ∧
      picture.view.stored picture.memory c x y = .ok bytes ∧ bytes.length = comp.bytes ∧
        picture.sample c x y = .ok (littleEndian bytes % comp.levels)

theorem View.Covered.inBytes (h : picture.view.Covered) : picture.InBytes := by
  intro c x y hvisible
  rcases h.visible_iff.mp hvisible with ⟨⟨comp, hcomp⟩, hx, hy⟩
  refine ⟨comp, _, hcomp, ?_, h.stored hcomp hx hy picture.memory, Memory.length_read _ _ _,
    h.sample hcomp hx hy picture.memory⟩
  unfold Component.bytes
  split
  next => exact Or.inl rfl
  next => exact Or.inr rfl

namespace StreamFrame

theorem rowOfSamples_eq_flatMap {count : Nat} (hpos : 0 < count) (width : Nat)
    (content : Nat -> Nat -> UInt8) :
    rowOfSamples width count content =
      (List.range width).flatMap fun x => (List.range count).map (content x) := by
  induction width with
  | zero =>
      unfold rowOfSamples
      rw [Nat.zero_mul]
      rfl
  | succ width ih =>
      have hlast : forall i, i ∈ List.range count ->
          content ((width * count + i) / count) ((width * count + i) % count) =
            content width i := by
        intro i hi
        have hlt := List.mem_range.mp hi
        rw [Nat.mul_comm, Nat.mul_add_div hpos, Nat.div_eq_of_lt hlt, Nat.mul_add_mod,
          Nat.mod_eq_of_lt hlt, Nat.add_zero]
      rw [List.range_succ, List.flatMap_append, List.flatMap_singleton, ← ih]
      unfold rowOfSamples
      rw [Nat.succ_mul, List.range_add, List.map_append, List.map_map]
      exact congrArg _ (List.map_congr_left hlast)

theorem rowContent_eq_samples (hcomp : view.format.component c = .ok comp) (memory : Memory) :
    rowContent view (view.content memory) (c, y) = view.rowSamples memory comp c y := by
  rw [rowContent_eq hcomp, rowOfSamples_eq_flatMap comp.bytes_pos]
  unfold View.rowSamples Memory.read
  refine congrArg (fun sample => List.flatMap sample _) (funext fun x => ?_)
  exact List.map_congr_left fun i _ => View.content_eq hcomp memory

theorem payload_eq_flatMap (view : View) (content : Nat -> Nat -> Nat -> Nat -> UInt8) :
    payload view content =
      (List.range view.format.components.length).flatMap fun c =>
        (List.range (view.lines c)).flatMap fun y => rowContent view content (c, y) := by
  unfold payload visibleRows
  rw [List.flatMap_assoc]
  simp only [List.flatMap_map]

theorem storedFrame_eq (h : picture.view.Covered) :
    picture.storedFrame = .ok (payload picture.view (picture.view.content picture.memory)) := by
  have hcomponent : forall c, c ∈ List.range picture.format.components.length ->
      picture.storedComponent c =
        .ok ((List.range (picture.view.lines c)).flatMap fun y =>
          rowContent picture.view (picture.view.content picture.memory) (c, y)) := by
    intro c hc
    rcases Format.exists_component (List.mem_range.mp hc) with ⟨comp, hcomp⟩
    rw [h.storedComponent hcomp]
    unfold View.componentSamples
    refine congrArg (fun row => Except.ok (List.flatMap row _)) (funext fun y => ?_)
    exact (rowContent_eq_samples hcomp picture.memory).symm
  unfold Picture.storedFrame
  rw [Checked.mapM_eq_ok hcomponent, payload_eq_flatMap, List.flatMap_def]
  rfl

end StreamFrame

/-!
## Accepted calls
-/

theorem Ratio.isUnknown_orElse {r fallback : Ratio} (h : fallback.isUnknown = false) :
    (r.orElse fallback).isUnknown = false := by
  unfold orElse
  split
  next => exact h
  next hknown => exact Bool.eq_false_iff.mpr hknown

namespace Writer

open StreamFrame

variable {writer next : Writer} {header : Header} {done : List Call} {call : Call}

theorem exists_render_iff (h : view.Covered) :
    (exists line, (headerFor view).resolve.render = .ok line) ↔ view.format.isYuv = true := by
  constructor
  · intro h'
    rcases h' with ⟨line, hline⟩
    rcases Header.render_eq_ok hline with ⟨_, _, token, htoken, _⟩
    exact Colorspace.isYuv_of_token htoken
  · intro hyuv
    exact Header.exists_render h.width_pos h.height_pos hyuv

/-- A frame fits the header of a writer, or a stream can carry it where there is none. -/
def Accepts (writer : Writer) (view : View) : Prop :=
  match writer.header? with
  | some header => view.width = header.width ∧ view.height = header.height ∧
      header.format.Alike view.format
  | none => view.format.isYuv = true

theorem Holds.unique (h : Holds done writer) (h' : Holds done next) : next = writer := by
  cases h with
  | nothing =>
      cases h'
      rfl
  | stream _ hline _ =>
      cases h' with
      | stream _ hline' _ =>
          rw [hline] at hline'
          cases hline'
          rfl

theorem Holds.covered (h : Holds done writer) (hmem : picture ∈ framesOf done) :
    picture.view.Covered := by
  cases h with
  | nothing => cases hmem
  | stream _ _ hfit => exact (hfit picture hmem).left

theorem Holds.header_eq {first : Call} {rest : List Call} (h : Holds (first :: rest) writer) :
    writer.header? = some first.opening.resolve := by
  cases h
  rfl

/-- What a writer holds: nothing, or a header line and the stored samples of some frames. -/
inductive Keeps : Writer -> List Picture -> Prop where
  | nothing : Keeps ⟨⟨#[], none⟩, none, 0⟩ []
  | stream {header : Header} {line : String} {bytes : Array UInt8} {pictures : List Picture}
      {payloads : List (List UInt8)} :
      header.render = .ok line ->
      header.rate.isUnknown = false ->
      header.aspect.isUnknown = false ->
      pictures.mapM Picture.storedFrame = .ok payloads ->
      bytes.toList = ascii line ++ newline ::
        payloads.flatMap (fun payload => ascii "FRAME" ++ newline :: payload) ->
      Keeps ⟨⟨bytes, none⟩, some header, pictures.length⟩ pictures

theorem Holds.keeps (h : Holds done writer) : Keeps writer (framesOf done) := by
  cases h with
  | nothing => exact Keeps.nothing
  | stream hwords hline hfit =>
      have hpayloads := Checked.mapM_eq_ok fun picture hmem => storedFrame_eq (hfit picture hmem).left
      refine Keeps.stream hline (Ratio.isUnknown_orElse rfl) (Ratio.isUnknown_orElse rfl)
        hpayloads ?_
      unfold lineOf
      rw [List.append_assoc, List.flatMap_map]
      rfl

/-- A call ends, an error changes nothing, a header stays, and a frame is accepted if it fits. -/
structure Answered (writer : Writer) (call : Call) (outcome : Except Error Unit)
    (next : Writer) : Prop where
  run : call.run.run writer = .ok (outcome, next)
  refused : forall error, outcome = .error error -> next = writer
  kept : forall header, writer.header? = some header -> next.header? = some header
  accepted : forall picture, call = .frame picture ->
    (outcome = .ok () ↔ Accepts writer picture.view)

theorem Holds.answered (h : Holds done writer) (hcall : call.Sound) :
    exists next, Answered writer call (call.outcome done) next := by
  rcases h.step hcall with ⟨next, hrun, hnext⟩
  refine ⟨next, hrun, ?_, ?_, ?_⟩
  · intro error herror
    rw [herror] at hnext
    have hsame : Holds (done ++ []) next := hnext
    rw [List.append_nil] at hsame
    exact h.unique hsame
  · intro header hheader
    cases done with
    | nil =>
        cases h
        cases hheader
    | cons first rest =>
        rw [h.header_eq] at hheader
        exact hnext.header_eq.trans hheader
  · intro picture hpicture
    subst hpicture
    cases done with
    | nil =>
        cases h
        show ((headerFor picture.view).resolve.render.map fun _ => ()) = .ok () ↔ _
        rw [Checked.map_eq_ok]
        refine Iff.trans ?_ (exists_render_iff hcall)
        exact ⟨fun ⟨line, hline, _⟩ => ⟨line, hline⟩, fun ⟨line, hline⟩ => ⟨line, hline, rfl⟩⟩
    | cons first rest =>
        unfold Accepts
        rw [h.header_eq]
        exact Header.check_eq_ok

/--
A writer keeps a well-formed stream.  Behind any run of calls it holds nothing, or the line
of its header and the stored samples of the frames that it accepted, and whatever it is asked
next, an error changes nothing and the header stays.
-/
theorem writers_keep_their_stream {calls : List Call}
    (hcalls : forall call, call ∈ calls -> call.Sound) :
    exists writer,
      Action.session (calls.map Call.run) (new (Sink.empty none)) =
          .ok (outcomes [] calls, writer) ∧
        Keeps writer (framesOf (succeeded calls (outcomes [] calls))) ∧
          (forall picture, picture ∈ framesOf (succeeded calls (outcomes [] calls)) ->
            picture.InBytes) ∧
            forall call, call.Sound ->
              exists outcome next, Answered writer call outcome next := by
  rcases session_holds Holds.nothing hcalls with ⟨writer, hrun, hholds⟩
  rw [List.nil_append] at hholds
  refine ⟨writer, hrun, hholds.keeps, fun _ hmem => (hholds.covered hmem).inBytes, ?_⟩
  intro call hcall
  rcases hholds.answered hcall with ⟨next, hnext⟩
  exact ⟨_, next, hnext⟩

/-- A header without a size, a frame of red, green and blue, and a frame that goes out. -/
theorem writers_keep_their_stream_i420 :
    exists (rgb i420 small : View) (origin : Memory) (refused refused' : Error)
      (writer next : Writer) (outcome : Except Error Unit),
      origin.size = 17 ∧
      Attempt.Answers (View.ofPlanes .argb 1 1 [4] [4]) rgb ∧
      Attempt.Answers (View.ofPlanes .i420 3 3 [9, 4, 4] [3, 2, 2]) i420 ∧
      Attempt.Answers (View.ofPlanes .i420 2 2 [4, 1, 1] [2, 1, 1]) small ∧
      Action.session
          ([.header ⟨.i420, 0, 3, ⟨0, 0⟩, ⟨1, 0⟩, .progressive⟩, .frame ⟨rgb, origin⟩,
            .frame ⟨i420, origin⟩].map Call.run) (new (Sink.empty none)) =
        .ok ([.error refused, .error refused', .ok ()], writer) ∧
      Keeps writer [⟨i420, origin⟩] ∧ Picture.InBytes ⟨i420, origin⟩ ∧
      Answered writer (.frame ⟨small, origin⟩) outcome next := by
  have hrgb : Attempt.Answers (View.ofPlanes .argb 1 1 [4] [4])
      ⟨.argb, 1, 1, #v[⟨⟨0, 4⟩, 4⟩, Plane.none, Plane.none, Plane.none]⟩ := rfl
  have hi420 : Attempt.Answers (View.ofPlanes .i420 3 3 [9, 4, 4] [3, 2, 2])
      ⟨.i420, 3, 3, #v[⟨⟨0, 9⟩, 3⟩, ⟨⟨9, 4⟩, 2⟩, ⟨⟨13, 4⟩, 2⟩, Plane.none]⟩ := rfl
  have hsmall : Attempt.Answers (View.ofPlanes .i420 2 2 [4, 1, 1] [2, 1, 1])
      ⟨.i420, 2, 2, #v[⟨⟨0, 4⟩, 2⟩, ⟨⟨4, 1⟩, 1⟩, ⟨⟨5, 1⟩, 1⟩, Plane.none]⟩ := rfl
  have hmemory : exists origin : Memory, origin.size = 17 :=
    ⟨#[1, 2, 3, 4, 5, 6, 7, 8, 9, 10, 11, 12, 13, 14, 15, 16, 17], rfl⟩
  rcases hmemory with ⟨origin, hsize⟩
  have hheader : (Call.header ⟨.i420, 0, 3, ⟨0, 0⟩, ⟨1, 0⟩, .progressive⟩).Sound :=
    ⟨by decide, by decide, ⟨by decide, by decide⟩, ⟨by decide, by decide⟩⟩
  have hframe : forall view, view.Covered -> (Call.frame ⟨view, origin⟩).Sound := fun _ h => h
  have hcalls : forall call : Call, call ∈ _ -> call.Sound :=
    List.forall_mem_cons.mpr ⟨hheader, List.forall_mem_cons.mpr
      ⟨hframe _ (View.covered_of_ofPlanes hrgb), List.forall_mem_cons.mpr
        ⟨hframe _ (View.covered_of_ofPlanes hi420),
          fun _ hmem => (List.not_mem_nil hmem).elim⟩⟩⟩
  rcases writers_keep_their_stream hcalls with ⟨writer, hrun, hkeeps, hbytes, hanswers⟩
  rcases hanswers _ (hframe _ (View.covered_of_ofPlanes hsmall)) with ⟨outcome, next, hanswer⟩
  exact ⟨_, _, _, origin, _, _, writer, next, outcome, hsize, hrgb, hi420, hsmall, hrun, hkeeps,
    hbytes _ List.mem_cons_self, hanswer⟩

end Writer
end RawVideo

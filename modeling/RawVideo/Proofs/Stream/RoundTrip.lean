import RawVideo.Proofs.Stream.Opening
import RawVideo.Proofs.Stream.Written

/-!
# Streams read back

What a writer wrote is what a reader reads.  Any run of calls to a writer leaves a
stream whose header opens a reader, and any run of requests to that reader is answered
with the written frames in order: each request that fits the stream takes the next
one, and a request that does not fit is refused and takes nothing.
-/

namespace RawVideo
namespace Reader

open StreamFrame

variable {header : Header} {layout : Layout} {picture : Picture} {pictures : List Picture}
variable {n : Nat} {rest : List UInt8} {error : Error}

/-!
## Requests
-/

/-- A request for the next frame. -/
inductive Request where
  /-- The frame as an image of its own. -/
  | next
  /-- The frame drawn on a target. -/
  | into (target : View) (memory : Memory)

namespace Request

/-- What a request does to a reader, and the picture that it is answered with. -/
def run : Request -> Action Error Reader (Option Picture)
  | next => do
      match <- readFrame with
      | some image => some <$> Action.ofAttempt (Attempt.ofChecked image.picture)
      | none => return none
  | into target memory => fun reader =>
      ((readInto target).run ⟨reader, memory⟩).map fun (outcome, job) =>
        (outcome.map fun found => if found then some ⟨target, job.target⟩ else none, job.reader)

/-- Check that a request fits a stream. -/
def check (header : Header) : Request -> Except Error Unit
  | next => .ok ()
  | into target _ => header.check target

/-- The view that a request is answered in. -/
def target (layout : Layout) : Request -> View
  | next => Image.viewOf layout
  | into target _ => target

/-- A target that fits the stream can be drawn on. -/
def Sound (header : Header) : Request -> Prop
  | next => True
  | into target memory =>
      header.check target = .ok () -> target.Covered ∧ target.Writable memory.size

variable {request : Request}

theorem answers_frame
    (hlayout : Layout.compute header.format header.width header.height = .ok layout)
    (hsize : layout.size ≤ frameLimit) (hsound : request.Sound header)
    (hfits : request.check header = .ok ()) (hpicture : picture.view.Covered)
    (hfits' : header.check picture.view = .ok ()) (n : Nat) (rest : List UInt8) :
    exists copy,
      Action.Answers request.run ⟨header, n, encoding picture ++ rest⟩ (some copy)
        ⟨header, n + 1, rest⟩ ∧
      copy.view = request.target layout ∧
      copy.view.Matches copy.memory picture.view picture.memory := by
  cases request with
  | next =>
      rcases answers_readFrame (n := n) hlayout hsize hpicture hfits' rest with
        ⟨after, hafter, hmatches⟩
      exact ⟨⟨Image.viewOf layout, after⟩, hafter.bind rfl, rfl, hmatches⟩
  | into target memory =>
      rcases hsound hfits with ⟨hcovered, hwritable⟩
      rcases answers_readInto (n := n) hcovered hwritable hfits hpicture hfits' rest with
        ⟨after, hafter, hmatches⟩
      refine ⟨⟨target, after⟩, ?_, rfl, hmatches⟩
      show ((readInto target).run _).map _ = _
      rw [hafter]
      rfl

theorem answers_end (hfits : request.check header = .ok ()) (n : Nat) :
    Action.Answers request.run ⟨header, n, []⟩ none ⟨header, n, []⟩ := by
  cases request with
  | next => exact answers_readFrame_nil.bind rfl
  | into target memory =>
      show ((readInto target).run _).map _ = _
      rw [answers_readInto_nil hfits]
      rfl

theorem reports_refused {reader : Reader} (h : request.check reader.header = .error error) :
    Action.Reports request.run reader error reader := by
  cases request with
  | next => cases h
  | into target memory =>
      show ((readInto target).run _).map _ = _
      rw [reports_readInto h]
      rfl

end Request

/-!
## Runs of requests
-/

/--
How requests are answered from a stream with some frames left: one that fits the stream
takes the next frame, or finds the end behind the last one, and one that does not fit
is refused and takes nothing.  The last argument lists the frames left behind them all.
-/
inductive Delivers (header : Header) (layout : Layout) :
    List Picture -> List Request -> List (Except Error (Option Picture)) ->
      List Picture -> Prop where
  | done {pictures : List Picture} : Delivers header layout pictures [] [] pictures
  | frame {picture copy : Picture} {pictures left : List Picture} {request : Request}
      {requests : List Request} {replies : List (Except Error (Option Picture))} :
      request.check header = .ok () ->
      copy.view = request.target layout ->
      copy.view.Matches copy.memory picture.view picture.memory ->
      Delivers header layout pictures requests replies left ->
      Delivers header layout (picture :: pictures) (request :: requests)
        (.ok (some copy) :: replies) left
  | ended {left : List Picture} {request : Request} {requests : List Request}
      {replies : List (Except Error (Option Picture))} :
      request.check header = .ok () ->
      Delivers header layout [] requests replies left ->
      Delivers header layout [] (request :: requests) (.ok none :: replies) left
  | refused {pictures left : List Picture} {request : Request} {requests : List Request}
      {replies : List (Except Error (Option Picture))} {error : Error} :
      request.check header = .error error ->
      Delivers header layout pictures requests replies left ->
      Delivers header layout pictures (request :: requests) (.error error :: replies) left

/-- A reader at the first of some frames. -/
def before (header : Header) (n : Nat) (pictures : List Picture) : Reader :=
  ⟨header, n, pictures.flatMap encoding⟩

/-- One request, and what the stream holds behind it. -/
theorem exists_reply {request : Request}
    (hlayout : Layout.compute header.format header.width header.height = .ok layout)
    (hsize : layout.size ≤ frameLimit)
    (hpictures : forall picture, picture ∈ pictures ->
      picture.view.Covered ∧ header.check picture.view = .ok ())
    (hsound : request.Sound header) (n : Nat) :
    exists reply m others,
      request.run.run (before header n pictures) = .ok (reply, before header m others) ∧
      m + others.length = n + pictures.length ∧ (forall picture, picture ∈ others ->
        picture ∈ pictures) ∧
      forall requests replies left, Delivers header layout others requests replies left ->
        Delivers header layout pictures (request :: requests) (reply :: replies) left := by
  cases hfits : request.check header with
  | error error =>
      exact ⟨_, n, pictures, Request.reports_refused hfits, rfl, fun _ hmem => hmem,
        fun _ _ _ hrest => Delivers.refused hfits hrest⟩
  | ok _ =>
      cases pictures with
      | nil =>
          exact ⟨_, n, [], Request.answers_end hfits n, rfl, fun _ hmem => hmem,
            fun _ _ _ hrest => Delivers.ended hfits hrest⟩
      | cons picture others =>
          rcases hpictures picture List.mem_cons_self with ⟨hcovered, hown⟩
          rcases Request.answers_frame hlayout hsize hsound hfits hcovered hown n
            (others.flatMap encoding) with ⟨copy, hcopy, hview, hmatches⟩
          refine ⟨_, n + 1, others, ?_, ?_, fun _ hmem => List.mem_cons_of_mem _ hmem,
            fun _ _ _ hrest => Delivers.frame hfits hview hmatches hrest⟩
          · exact hcopy
          · rw [List.length_cons]
            omega

theorem session_delivers {requests : List Request}
    (hlayout : Layout.compute header.format header.width header.height = .ok layout)
    (hsize : layout.size ≤ frameLimit)
    (hpictures : forall picture, picture ∈ pictures ->
      picture.view.Covered ∧ header.check picture.view = .ok ())
    (hrequests : forall request, request ∈ requests -> request.Sound header) :
    exists replies m left,
      Action.session (requests.map Request.run) (before header n pictures) =
        .ok (replies, before header m left) ∧
      m + left.length = n + pictures.length ∧
      Delivers header layout pictures requests replies left := by
  -- Between two requests the reader stands at the first of the frames that are left.
  induction requests generalizing n pictures with
  | nil => exact ⟨[], n, pictures, rfl, rfl, Delivers.done⟩
  | cons request requests ih =>
      rw [List.forall_mem_cons] at hrequests
      rcases exists_reply hlayout hsize hpictures hrequests.left n with
        ⟨reply, k, others, hreply, hcount, hothers, hdelivers⟩
      rcases ih (fun picture hmem => hpictures picture (hothers picture hmem)) hrequests.right with
        ⟨replies, m, left, hreplies, hcount', hrest⟩
      exact ⟨reply :: replies, m, left, Action.session_cons hreply hreplies,
        hcount'.trans hcount, hdelivers requests replies left hrest⟩

/-!
## Whole streams
-/

/-- A stream opens with a header, and any run of requests is answered with its frames. -/
def ReadsBack (stream : List UInt8) (header : Header) (layout : Layout)
    (pictures : List Picture) : Prop :=
  Attempt.Answers (start stream) (before header 0 pictures) ∧
  forall requests, (forall request, request ∈ requests -> Request.Sound header request) ->
    exists replies left,
      Action.session (requests.map Request.run) (before header 0 pictures) =
        .ok (replies, before header (pictures.length - left.length) left) ∧
      Delivers header layout pictures requests replies left

/-- What fits a written header fits the header that its line reads as. -/
theorem fits_canonical {line : String} {canonical : Format} (hline : header.render = .ok line)
    (hcanonical : Colorspace.canonical? header.format = some canonical)
    (hpictures : forall picture, picture ∈ pictures ->
      picture.view.Covered ∧ header.check picture.view = .ok ()) :
    forall picture, picture ∈ pictures -> picture.view.Covered ∧
      Header.check { header with format := canonical } picture.view = .ok () := by
  rcases Header.render_eq_ok hline with ⟨_, _, token, htoken, _⟩
  rcases Colorspace.canonical?_spec htoken with ⟨found, hfound, halike⟩
  rw [hcanonical] at hfound
  cases hfound
  intro picture hmem
  rcases hpictures picture hmem with ⟨hcovered, hcheck⟩
  rcases Header.check_eq_ok.mp hcheck with ⟨hwidth, hheight, hformat⟩
  exact ⟨hcovered, Header.check_eq_ok.mpr ⟨hwidth, hheight, halike.trans hformat⟩⟩

theorem readsBack_of_render {line : String} {canonical : Format} (hwords : header.Words)
    (hline : header.render = .ok line)
    (hpictures : forall picture, picture ∈ pictures ->
      picture.view.Covered ∧ header.check picture.view = .ok ())
    (hcanonical : Colorspace.canonical? header.format = some canonical)
    (hlayout : Layout.compute canonical header.width header.height = .ok layout)
    (hsize : layout.size ≤ frameLimit) :
    ReadsBack (Writer.lineOf line ++ pictures.flatMap encoding)
      { header with format := canonical } layout pictures := by
  have hfits := fits_canonical hline hcanonical hpictures
  constructor
  · unfold Writer.lineOf
    rw [List.append_assoc]
    exact answers_start hline hwords hcanonical hlayout hsize _
  · intro requests hrequests
    rcases session_delivers (n := 0) hlayout hsize hfits hrequests with
      ⟨replies, m, left, hreplies, hcount, hdelivers⟩
    have htaken : m = pictures.length - left.length := by omega
    exact ⟨replies, left, htaken ▸ hreplies, hdelivers⟩

/--
Reading undoes writing.  A writer answers whatever calls it gets: the first call whose
header can be written succeeds, and behind it the frames that fit that header.  Where
frames of the canonical format are not too large, the header and these frames read back.
-/
theorem reading_undoes_writing {calls : List Writer.Call}
    (hcalls : forall call, call ∈ calls -> call.Sound) :
    exists writer,
      Action.session (calls.map Writer.Call.run) (Writer.new (Sink.empty none)) =
        .ok (Writer.outcomes [] calls, writer) ∧
      forall first others,
        Writer.succeeded calls (Writer.outcomes [] calls) = first :: others ->
          exists canonical, Colorspace.canonical? first.opening.format = some canonical ∧
            forall layout,
              Layout.compute canonical first.opening.width first.opening.height = .ok layout ->
              layout.size ≤ frameLimit ->
                ReadsBack writer.sink.bytes.toList
                  { first.opening.resolve with format := canonical } layout
                  (Writer.framesOf (first :: others)) := by
  rcases Writer.session_holds Writer.Holds.nothing hcalls with ⟨writer, hrun, hholds⟩
  refine ⟨writer, hrun, ?_⟩
  intro first others hfirst
  rw [List.nil_append, hfirst] at hholds
  cases hholds with
  | stream hwords hline hfits =>
      rcases Header.render_eq_ok hline with ⟨_, _, token, htoken, _⟩
      rcases Colorspace.canonical?_spec htoken with ⟨canonical, hcanonical, _⟩
      refine ⟨canonical, hcanonical, ?_⟩
      intro layout hlayout hsize
      exact readsBack_of_render hwords.resolve hline hfits hcanonical hlayout hsize

/-- Two frames of different layouts are written and read back, with refusals on both sides. -/
theorem reading_undoes_writing_nv12 :
    exists (nv12 i420 small : View) (origin : Memory) (error : Error) (writer : Writer)
      (header : Header) (layout : Layout) (replies : List (Except Error (Option Picture)))
      (left : List Picture) (last : Reader),
      Attempt.Answers (View.ofPlanes .nv12 3 3 [9, 8] [3, 4]) nv12 ∧
      Attempt.Answers (View.ofPlanes .i420 3 3 [9, 4, 4] [3, 2, 2]) i420 ∧
      Attempt.Answers (View.ofPlanes .i420 2 2 [4, 1, 1] [2, 1, 1]) small ∧
      Action.session
          ([.frame ⟨nv12, origin⟩, .frame ⟨small, origin⟩, .frame ⟨i420, origin⟩].map
            Writer.Call.run) (Writer.new (Sink.empty none)) =
        .ok ([.ok (), .error error, .ok ()], writer) ∧
      Attempt.Answers (start writer.sink.bytes.toList)
        (before header 0 [⟨nv12, origin⟩, ⟨i420, origin⟩]) ∧
      Action.session
          ([.into small origin, .into i420 origin, .next, .next].map Request.run)
          (before header 0 [⟨nv12, origin⟩, ⟨i420, origin⟩]) = .ok (replies, last) ∧
      Delivers header layout [⟨nv12, origin⟩, ⟨i420, origin⟩]
        [.into small origin, .into i420 origin, .next, .next] replies left := by
  have hnv12 : Attempt.Answers (View.ofPlanes .nv12 3 3 [9, 8] [3, 4])
      ⟨.nv12, 3, 3, #v[⟨⟨0, 9⟩, 3⟩, ⟨⟨9, 8⟩, 4⟩, Plane.none, Plane.none]⟩ := rfl
  have hi420 : Attempt.Answers (View.ofPlanes .i420 3 3 [9, 4, 4] [3, 2, 2])
      ⟨.i420, 3, 3, #v[⟨⟨0, 9⟩, 3⟩, ⟨⟨9, 4⟩, 2⟩, ⟨⟨13, 4⟩, 2⟩, Plane.none]⟩ := rfl
  have hsmall : Attempt.Answers (View.ofPlanes .i420 2 2 [4, 1, 1] [2, 1, 1])
      ⟨.i420, 2, 2, #v[⟨⟨0, 4⟩, 2⟩, ⟨⟨4, 1⟩, 1⟩, ⟨⟨5, 1⟩, 1⟩, Plane.none]⟩ := rfl
  have hmemory : exists origin : Memory, origin.size = 17 :=
    ⟨#[1, 2, 3, 4, 5, 6, 7, 8, 9, 10, 11, 12, 13, 14, 15, 16, 17], rfl⟩
  rcases hmemory with ⟨origin, hsize⟩
  have hcovered := View.covered_of_ofPlanes hi420
  have hcovered' := View.covered_of_ofPlanes hsmall
  have hframe : forall view, view.Covered -> (Writer.Call.frame ⟨view, origin⟩).Sound :=
    fun _ h => h
  have hcalls : forall call : Writer.Call, call ∈ _ -> call.Sound :=
    List.forall_mem_cons.mpr ⟨hframe _ (View.covered_of_ofPlanes hnv12),
      List.forall_mem_cons.mpr ⟨hframe _ hcovered', List.forall_mem_cons.mpr ⟨hframe _ hcovered,
        fun _ hmem => (List.not_mem_nil hmem).elim⟩⟩⟩
  rcases reading_undoes_writing hcalls with ⟨writer, hrun, hread⟩
  rcases hread (.frame ⟨_, _⟩) [.frame ⟨_, _⟩] rfl with ⟨canonical, hcanonical, hread⟩
  have hvalue : Colorspace.canonical? .nv12 = some .i420 := by decide +kernel
  have hi420' : canonical = .i420 := Option.some.inj (hcanonical.symm.trans hvalue)
  subst hi420'
  have hlayout : Layout.compute .i420 3 3 =
      .ok ⟨.i420, 3, 3, #v[16, 8, 8, 0], #v[16, 8, 8, 0], #v[0, 256, 320, 0], 384⟩ := by
    decide +kernel
  rcases hread _ hlayout (by decide) with ⟨hstart, hreplies⟩
  have hwritable := View.writable_of_ofPlanes hi420 (show _ ≤ 17 by decide)
  have hwritable' := View.writable_of_ofPlanes hsmall (show _ ≤ 17 by decide)
  have hinto : forall header view, view.Covered -> view.Writable 17 ->
      Request.Sound header (.into view origin) :=
    fun _ _ hcovered hwritable _ => ⟨hcovered, hsize ▸ hwritable⟩
  have hnext : forall header, Request.Sound header .next := fun _ => trivial
  rcases hreplies [.into _ origin, .into _ origin, .next, .next]
      (List.forall_mem_cons.mpr ⟨hinto _ _ hcovered' hwritable',
        List.forall_mem_cons.mpr ⟨hinto _ _ hcovered hwritable,
          List.forall_mem_cons.mpr ⟨hnext _, List.forall_mem_cons.mpr ⟨hnext _,
            fun _ hmem => (List.not_mem_nil hmem).elim⟩⟩⟩⟩) with
    ⟨replies, left, hlast, hdelivers⟩
  exact ⟨_, _, _, _, _, writer, _, _, replies, left, _, hnv12, hi420, hsmall, hrun, hstart,
    hlast, hdelivers⟩

end Reader
end RawVideo

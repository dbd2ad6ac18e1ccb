import RawVideo.Proofs.Stream.Emitted
import RawVideo.Proofs.Stream.Header

/-!
# Written streams

On a sink without a limit, a call to a writer either reports an error and writes
nothing, or succeeds and appends what it stands for: the header line where none is
written yet, and the encoding of a frame.  So behind any calls the sink holds one
header line and the encodings of the accepted frames, in order.
-/

namespace RawVideo
namespace Writer

open StreamFrame

variable {picture : Picture} {header : Header} {header? : Option Header} {line : String}
variable {bytes : List UInt8} {n : Nat} {error : Error}

/-- A writer on a sink without a limit. -/
def holding (bytes : List UInt8) (header? : Option Header) (frames : Nat) : Writer :=
  ⟨⟨bytes.toArray, none⟩, header?, frames⟩

/-!
## Headers and payloads
-/

theorem answers_commit (h : header.resolve.render = .ok line) :
    Action.Answers (commit header) (holding bytes header? n) ()
      (holding (bytes ++ lineOf line) (some header.resolve) n) :=
  (emits_commit h).fits bytes nofun

theorem reports_commit (h : header.resolve.render = .error error) :
    Action.Reports (commit header) (holding bytes header? n) error
      (holding bytes header? n) :=
  (Action.reports_ofExcept h _).bind _

theorem answers_writeHeader (other : Header) :
    Action.Answers (writeHeader other) (holding bytes (some header) n) ()
      (holding bytes (some header) n) := rfl

theorem answers_writePayload (h : picture.view.Covered) :
    Action.Answers (writePayload picture) (holding bytes header? n) ()
      (holding (bytes ++ encoding picture) header? (n + 1)) :=
  (emits_writePayload h).fits bytes nofun

/-!
## Frames
-/

theorem answers_writeFrame (h : picture.view.Covered)
    (hcheck : header.check picture.view = .ok ()) :
    Action.Answers (writeFrame picture) (holding bytes (some header) n) ()
      (holding (bytes ++ encoding picture) (some header) (n + 1)) :=
  (answers_writeHeader _).bind ((Action.answers_get _).bind
    ((Action.answers_ofExcept hcheck _).bind (answers_writePayload h)))

theorem reports_writeFrame (hcheck : header.check picture.view = .error error) :
    Action.Reports (writeFrame picture) (holding bytes (some header) n) error
      (holding bytes (some header) n) :=
  (answers_writeHeader _).bind_reports ((Action.answers_get _).bind_reports
    ((Action.reports_ofExcept hcheck _).bind _))

/-- The header for the frames of a view. -/
def headerFor (view : View) : Header :=
  Header.ofFrames view.format view.width view.height

theorem check_headerFor (view : View) : (headerFor view).resolve.check view = .ok () :=
  Header.check_eq_ok.mpr ⟨rfl, rfl, Format.Alike.refl view.format⟩

theorem answers_writeFrame_none (h : picture.view.Covered)
    (hline : (headerFor picture.view).resolve.render = .ok line) :
    Action.Answers (writeFrame picture) (holding bytes none n) ()
      (holding (bytes ++ lineOf line ++ encoding picture)
        (some (headerFor picture.view).resolve) (n + 1)) :=
  (answers_commit hline).bind ((Action.answers_get _).bind
    ((Action.answers_ofExcept (check_headerFor picture.view) _).bind (answers_writePayload h)))

theorem reports_writeFrame_none
    (h : (headerFor picture.view).resolve.render = .error error) :
    Action.Reports (writeFrame picture) (holding bytes none n) error (holding bytes none n) :=
  (reports_commit h).bind _

/-!
## Calls
-/

/-- A call to a writer. -/
inductive Call where
  | header (header : Header)
  | frame (picture : Picture)

/-- What a call does to a writer. -/
def Call.run : Call -> Action Error Writer Unit
  | .header header => writeHeader header
  | .frame picture => writeFrame picture

/-- The header that a call writes where none is written yet. -/
def Call.opening : Call -> Header
  | .header header => header
  | .frame picture => headerFor picture.view

/-- The frame that a call writes. -/
def Call.pictures : Call -> List Picture
  | .header _ => []
  | .frame picture => [picture]

/-- The numbers of a header fit their words, and the view of a frame is covered. -/
def Call.Sound : Call -> Prop
  | .header header => header.Words
  | .frame picture => picture.view.Covered

/-- The calls that succeed. -/
def succeeded : List Call -> List (Except Error Unit) -> List Call
  | call :: calls, .ok _ :: outcomes => call :: succeeded calls outcomes
  | _ :: calls, .error _ :: outcomes => succeeded calls outcomes
  | _, _ => []

/-- What a call ends with behind calls that succeeded. -/
def Call.outcome : List Call -> Call -> Except Error Unit
  | [], call => call.opening.resolve.render.map fun _ => ()
  | _ :: _, .header _ => .ok ()
  | first :: _, .frame picture => first.opening.resolve.check picture.view

/-- What a run of calls ends with behind calls that succeeded. -/
def outcomes : List Call -> List Call -> List (Except Error Unit)
  | _, [] => []
  | done, call :: rest =>
      call.outcome done :: outcomes (done ++ succeeded [call] [call.outcome done]) rest

/-- The frames that calls write. -/
def framesOf (calls : List Call) : List Picture :=
  calls.flatMap Call.pictures

/--
What a writer holds behind calls that succeeded: nothing, or the header line of the
first of them and all their frames, which fit that header.
-/
inductive Holds : List Call -> Writer -> Prop where
  | nothing : Holds [] (holding [] none 0)
  | stream {first : Call} {rest : List Call} {line : String} :
      first.opening.Words ->
      first.opening.resolve.render = .ok line ->
      (forall picture, picture ∈ framesOf (first :: rest) ->
        picture.view.Covered ∧ first.opening.resolve.check picture.view = .ok ()) ->
      Holds (first :: rest)
        (holding (lineOf line ++ (framesOf (first :: rest)).flatMap encoding)
          (some first.opening.resolve) (framesOf (first :: rest)).length)

theorem framesOf_append (calls more : List Call) :
    framesOf (calls ++ more) = framesOf calls ++ framesOf more :=
  List.flatMap_append

theorem words_headerFor {view : View} (h : view.Covered) : (headerFor view).Words := by
  have hrate : Header.defaultRate.Words := ⟨by decide, by decide⟩
  have haspect : Header.defaultAspect.Words := ⟨by decide, by decide⟩
  exact ⟨h.size_lt.left, h.size_lt.right, hrate, haspect⟩

theorem Call.Sound.words {call : Call} (h : call.Sound) : call.opening.Words := by
  cases call with
  | header header => exact h
  | frame picture => exact words_headerFor h

theorem answers_first {call : Call} (h : call.Sound)
    (hline : call.opening.resolve.render = .ok line) :
    Action.Answers call.run (holding [] none 0) ()
      (holding (lineOf line ++ (framesOf [call]).flatMap encoding) (some call.opening.resolve)
        (framesOf [call]).length) := by
  cases call with
  | header header =>
      show Action.Answers (writeHeader header) _ () (holding (lineOf line ++ []) _ 0)
      rw [List.append_nil]
      exact answers_commit hline
  | frame picture =>
      show Action.Answers (writeFrame picture) _ ()
        (holding (lineOf line ++ (encoding picture ++ [])) _ 1)
      rw [List.append_nil]
      exact answers_writeFrame_none h hline

theorem reports_first {call : Call} (h : call.opening.resolve.render = .error error) :
    Action.Reports call.run (holding [] none 0) error (holding [] none 0) := by
  cases call with
  | header header => exact reports_commit h
  | frame picture => exact reports_writeFrame_none h

theorem Holds.first {call : Call} (h : call.Sound)
    (hline : call.opening.resolve.render = .ok line) :
    Holds [call]
      (holding (lineOf line ++ (framesOf [call]).flatMap encoding) (some call.opening.resolve)
        (framesOf [call]).length) := by
  apply Holds.stream h.words hline
  intro picture hpicture
  cases call with
  | header header => cases hpicture
  | frame own =>
      rw [List.mem_singleton.mp hpicture]
      exact ⟨h, check_headerFor own.view⟩

theorem holds_of_frames {first : Call} {rest : List Call} {frames : List Picture}
    (hframes : framesOf (first :: rest) = frames) (hwords : first.opening.Words)
    (hline : first.opening.resolve.render = .ok line)
    (hfit : forall picture, picture ∈ frames ->
      picture.view.Covered ∧ first.opening.resolve.check picture.view = .ok ()) :
    Holds (first :: rest)
      (holding (lineOf line ++ frames.flatMap encoding) (some first.opening.resolve)
        frames.length) := by
  subst hframes
  exact Holds.stream hwords hline hfit

/-- What a call ends with behind a header, and the frames that it adds. -/
inductive Adds (first : Call) : Call -> Except Error Unit -> List Picture -> Prop where
  | header (header : Header) : Adds first (.header header) (.ok ()) []
  | refused {picture : Picture} {error : Error} :
      first.opening.resolve.check picture.view = .error error ->
      Adds first (.frame picture) (.error error) []
  | frame {picture : Picture} :
      first.opening.resolve.check picture.view = .ok () ->
      Adds first (.frame picture) (.ok ()) [picture]

theorem exists_adds (first call : Call) (rest : List Call) :
    exists outcome more, call.outcome (first :: rest) = outcome ∧ Adds first call outcome more ∧
      framesOf (first :: rest ++ succeeded [call] [outcome]) =
        framesOf (first :: rest) ++ more := by
  cases call with
  | header header => exact ⟨_, [], rfl, Adds.header header, framesOf_append _ _⟩
  | frame picture =>
      have houtcome : Call.outcome (first :: rest) (.frame picture) =
          first.opening.resolve.check picture.view := rfl
      rw [houtcome]
      cases hcheck : first.opening.resolve.check picture.view with
      | error error => exact ⟨_, [], rfl, Adds.refused hcheck, framesOf_append _ _⟩
      | ok _ => exact ⟨_, [picture], rfl, Adds.frame hcheck, framesOf_append _ _⟩

theorem Holds.next {first call : Call} {rest : List Call} {writer : Writer}
    (h : Holds (first :: rest) writer) (hcall : call.Sound) :
    exists next, call.run.run writer = .ok (call.outcome (first :: rest), next) ∧
      Holds (first :: rest ++ succeeded [call] [call.outcome (first :: rest)]) next := by
  rcases exists_adds first call rest with ⟨outcome, more, houtcome, hadds, hframes⟩
  rw [houtcome]
  cases h with
  | stream hwords hline hfit =>
      cases hadds with
      | header header =>
          rw [List.append_nil] at hframes
          exact ⟨_, answers_writeHeader header, holds_of_frames hframes hwords hline hfit⟩
      | refused hcheck =>
          rw [List.append_nil] at hframes
          exact ⟨_, reports_writeFrame hcheck, holds_of_frames hframes hwords hline hfit⟩
      | @frame picture hcheck =>
          have hstream := holds_of_frames hframes hwords hline
            (List.forall_mem_append.mpr ⟨hfit, fun own hown => by
              rw [List.mem_singleton.mp hown]
              exact ⟨hcall, hcheck⟩⟩)
          rw [List.flatMap_append, ← List.append_assoc, List.flatMap_singleton,
            List.length_append] at hstream
          exact ⟨_, answers_writeFrame hcall hcheck, hstream⟩

/-- One more call keeps the stream well formed, and an error changes nothing. -/
theorem Holds.step {done : List Call} {call : Call} {writer : Writer} (h : Holds done writer)
    (hcall : call.Sound) :
    exists next, call.run.run writer = .ok (call.outcome done, next) ∧
      Holds (done ++ succeeded [call] [call.outcome done]) next := by
  cases done with
  | cons first rest => exact h.next hcall
  | nil =>
      cases h
      have houtcome : call.outcome [] = call.opening.resolve.render.map fun _ => () := rfl
      rw [houtcome]
      cases hline : call.opening.resolve.render with
      | error error => exact ⟨_, reports_first hline, Holds.nothing⟩
      | ok line => exact ⟨_, answers_first hcall hline, Holds.first hcall hline⟩

theorem succeeded_cons (call : Call) (calls : List Call) (outcome : Except Error Unit)
    (outcomes : List (Except Error Unit)) :
    succeeded (call :: calls) (outcome :: outcomes) =
      succeeded [call] [outcome] ++ succeeded calls outcomes := by
  cases outcome with
  | error error => rfl
  | ok _ => rfl

/-- A run of calls answers, and the writer holds what the successful ones stand for. -/
theorem session_holds {done calls : List Call} {writer : Writer} (h : Holds done writer)
    (hcalls : forall call, call ∈ calls -> call.Sound) :
    exists last,
      Action.session (calls.map Call.run) writer = .ok (outcomes done calls, last) ∧
        Holds (done ++ succeeded calls (outcomes done calls)) last := by
  -- The calls that have succeeded so far grow with each step, and they say all about the writer.
  induction calls generalizing done writer with
  | nil =>
      refine ⟨writer, rfl, ?_⟩
      show Holds (done ++ []) writer
      rw [List.append_nil]
      exact h
  | cons call rest ih =>
      rw [List.forall_mem_cons] at hcalls
      rcases h.step hcalls.left with ⟨next, hnext, hholds⟩
      rcases ih hholds hcalls.right with ⟨last, hlast, hend⟩
      refine ⟨last, Action.session_cons hnext hlast, ?_⟩
      rw [outcomes, succeeded_cons, ← List.append_assoc]
      exact hend

end Writer
end RawVideo

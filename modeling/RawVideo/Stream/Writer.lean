import RawVideo.Stream.Frame
import RawVideo.Stream.Sink

/-!
# Stream writers

A writer puts a header and frames into a sink.  The header goes out once, either
on request or in front of the first frame, which then decides format and size.
A header counts as written only when its whole line is in the sink, and a frame
only when its whole payload is.
-/

namespace RawVideo

/-- A sink and what has been written to it. -/
structure Writer where
  sink : Sink
  /-- The header, once it is written. -/
  header? : Option Header
  /-- How many frames are written. -/
  frames : Nat
  deriving DecidableEq, Repr

namespace Writer

/-- A writer that has written nothing. -/
def new (sink : Sink) : Writer := ⟨sink, none, 0⟩

def emit (bytes : List UInt8) : Action Error Writer Unit := fun ⟨sink, header?, frames⟩ =>
  (Sink.write bytes sink).map fun (outcome, sink) => (outcome, ⟨sink, header?, frames⟩)

/-- Write a header, with defaults for unknown ratios. -/
def commit (header : Header) : Action Error Writer Unit := do
  let line <- Action.ofAttempt (Attempt.ofExcept header.resolve.render)
  emit (StreamFrame.ascii line)
  emit [StreamFrame.newline]
  modify fun writer => { writer with header? := some header.resolve }

/-- Write a header, unless one is written. -/
def writeHeader (header : Header) : Action Error Writer Unit := do
  if (<- get).header?.isNone then commit header

def writeRow (picture : Picture) (row : Nat × Nat) : Action Error Writer Unit := do
  let bytes <- Action.ofAttempt (Attempt.ofChecked (StreamFrame.rowBytes picture row.1 row.2))
  emit bytes

def writePayload (picture : Picture) : Action Error Writer Unit := do
  emit (StreamFrame.ascii StreamFrame.marker)
  emit [StreamFrame.newline]
  let rows <- Action.ofAttempt (Attempt.ofChecked (StreamFrame.rows picture.view))
  rows.forM (writeRow picture)
  modify fun writer => { writer with frames := writer.frames + 1 }

/-- Write a frame, behind a header if none is written. -/
def writeFrame (picture : Picture) : Action Error Writer Unit := do
  let view := picture.view
  let default := Header.ofFrames view.format view.width view.height
  writeHeader default
  let header := (<- get).header?.getD default
  Action.ofAttempt (Attempt.ofExcept (header.check view))
  writePayload picture

end Writer
end RawVideo

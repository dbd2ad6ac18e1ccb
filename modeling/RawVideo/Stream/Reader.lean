import RawVideo.Image.Basic
import RawVideo.Stream.Frame
import RawVideo.Text.Utf8

/-!
# Stream readers

A reader takes a header and then frames from a byte string.  It never waits: the
byte string is all there is, and its end is where the stream ends.

A line has at most 1024 bytes, its newline included.  Behind a line that is too
long, or behind a marker that is none, reading goes on where it stopped.  Where a
payload ends early, the rows in front of the missing one are stored, and the frame
does not count.  What becomes of the missing row itself is up to the stream, so it
is a parameter.
-/

namespace RawVideo

/-!
## Taking bytes
-/

namespace Source

/-- The longest line, its newline included. -/
def lineLimit : Nat := 1024

/-- Take a line without its newline; none at the end of the stream. -/
def readLine : Action Error (List UInt8) (Option (List UInt8)) := fun bytes =>
  let window := bytes.take lineLimit
  match window.span (· != StreamFrame.newline) with
  | (line, _ :: _) => .ok (.ok (some line), bytes.drop (line.length + 1))
  | (_, []) =>
      let rest := bytes.drop lineLimit
      if window.isEmpty then .ok (.ok none, rest)
      else if window.length = lineLimit then .ok (.error (.longLine lineLimit), rest)
      else .ok (.error (.transport .unterminatedLine), rest)

/--
What a stream does where it ends inside a row, by the bytes that are left.  Neither
the row nor the place where the stream stands is promised to anyone.
-/
structure Ending where
  /-- The bytes that the front of the row is overwritten with. -/
  torn : List UInt8 -> List UInt8
  /-- How many bytes are used up. -/
  used : List UInt8 -> Nat

/-- A stream in memory sees that bytes are missing before it copies any. -/
def Ending.inMemory : Ending :=
  ⟨fun _ => [], List.length⟩

/-- A buffer in front of a file copies what it holds before it asks for more. -/
def Ending.buffered : Ending :=
  ⟨id, List.length⟩

/-- Take exactly `count` bytes. -/
def readExactly (count : Nat) (ending : Ending) : Action Error (List UInt8) (List UInt8) :=
  fun bytes =>
    let taken := bytes.take count
    if taken.length = count then .ok (.ok taken, bytes.drop count)
    else .ok (.error (.transport .endOfStream), bytes.drop (ending.used bytes))

end Source

/-- A stream and how far it is read. -/
structure Reader where
  header : Header
  /-- How many frames are read. -/
  frames : Nat
  /-- The bytes not read yet. -/
  rest : List UInt8
  deriving DecidableEq, Repr

namespace Reader

/-- The bytes that a frame takes at most. -/
def frameLimit : Nat := 256 * 1024 * 1024

/-- Check that a frame of a stream is not too large. -/
def checkSize (header : Header) : Except Error Unit := do
  let layout <- Layout.compute header.format header.width header.height
  if frameLimit < layout.size then throw (.largeFrame layout.size frameLimit)

/-- The header that a line holds, none at the end of the stream. -/
def headerOf : Option (List UInt8) -> Except Error Header
  | none => .error (.signature "")
  | some line =>
      match Utf8.decode? line with
      | none => .error (.signature (String.ofList (Utf8.decodeLoosely line)))
      | some text => do
          let header <- Header.parse text
          checkSize header
          return header

/-- Read the header of a stream. -/
def start (stream : List UInt8) : Attempt Error Reader := do
  let (line, rest) <- readOpening stream
  let header <- Attempt.ofExcept (headerOf line)
  return ⟨header, 0, rest⟩
where
  /-- The first line and what follows it. -/
  readOpening (stream : List UInt8) : Attempt Error (Option (List UInt8) × List UInt8) :=
    ExceptT.mk do
      let (outcome, rest) <- (Source.readLine.run stream : Checked _)
      return outcome.map fun line => (line, rest)

/-- Read the header of a file, if there is one. -/
def openFile (content? : Option (List UInt8)) : Attempt Error Reader :=
  match content? with
  | none => throw (.transport .noSuchFile)
  | some stream => start stream

/-!
## Frames
-/

/-- Take bytes from the stream of a reader. -/
def onSource {α : Type} (action : Action Error (List UInt8) α) : Action Error Reader α :=
  fun reader =>
    (action.run reader.rest).map fun (outcome, rest) => (outcome, { reader with rest })

/-- Read a marker line; false at the end of the stream. -/
def readMarker : Action Error Reader Bool := do
  match <- onSource Source.readLine with
  | none => return false
  | some line =>
      if StreamFrame.isMarker line then return true
      else throw (.frameMarker (String.ofList (Utf8.decodeLoosely line)))

/-- A reader at work on the memory of a target. -/
structure Job where
  reader : Reader
  target : Memory

def onReader {α : Type} (action : Action Error Reader α) : Action Error Job α :=
  fun ⟨reader, target⟩ =>
    (action.run reader).map fun (outcome, reader) => (outcome, ⟨reader, target⟩)

/-- What is left in a row by a stream that ends inside it. -/
def tear (target : View) (ending : Source.Ending) (row : Nat × Nat) (count : Nat) (job : Job) :
    Checked Job := do
  if job.reader.rest.length < count then
    let torn := (ending.torn job.reader.rest).take count
    return { job with target := <- StreamFrame.tearRow target row.1 row.2 torn job.target }
  else return job

def readRow (target : View) (ending : Source.Ending) (row : Nat × Nat) :
    Action Error Job Unit := do
  let count <- Action.ofAttempt (Attempt.ofChecked (StreamFrame.rowLength target row.1))
  Action.update (tear target ending row count)
  let bytes <- onReader (onSource (Source.readExactly count ending))
  Action.update fun ⟨reader, memory⟩ => do
    return ⟨reader, <- StreamFrame.storeRow target row.1 row.2 bytes memory⟩

def readPayload (target : View) (ending : Source.Ending) : Action Error Job Unit := do
  let rows <- Action.ofAttempt (Attempt.ofChecked (StreamFrame.rows target))
  rows.forM (readRow target ending)
  modify fun job => { job with reader := { job.reader with frames := job.reader.frames + 1 } }

/-- Read the next frame into a picture; false at the end of the stream. -/
def readInto (target : View) (ending : Source.Ending := .inMemory) : Action Error Job Bool := do
  Action.ofAttempt (Attempt.ofExcept ((<- get).reader.header.check target))
  if <- onReader readMarker then
    readPayload target ending
    return true
  else return false

/-- Read the next frame into a new image; none at the end of the stream. -/
def readFrame : Action Error Reader (Option Image) := do
  if <- readMarker then
    let header := (<- get).header
    let image <-
      Action.ofAttempt
        (Attempt.ofExcept (Image.allocate header.format header.width header.height))
    let view <- Action.ofAttempt (Attempt.ofChecked image.view)
    -- A row that is torn is dropped with the image.
    let memory <- onImage image.memory (readPayload view .inMemory)
    return some { image with memory }
  else return none
where
  /-- Run a job on a memory of its own and answer with that memory. -/
  onImage (memory : Memory) (action : Action Error Job Unit) : Action Error Reader Memory :=
    fun reader =>
      (action.run ⟨reader, memory⟩).map fun (outcome, job) =>
        (outcome.map fun _ => job.target, job.reader)

end Reader
end RawVideo

import RawVideo.Ratio
import RawVideo.Stream.Colorspace
import RawVideo.View.Basic

/-!
# Stream headers

The first line of a stream: a signature, then tags separated by spaces.  A tag is
one letter with its value behind it.  Width and height are required; the other
tags have defaults, unknown tags are skipped, and of several tags with one letter
the last one counts.
-/

namespace RawVideo

/-- The picture structure of a stream. -/
inductive Interlace where
  | progressive
  | topFirst
  | bottomFirst
  | mixed
  deriving DecidableEq, Repr

namespace Interlace

/-- The letter of a picture structure. -/
def letter : Interlace -> Char
  | .progressive => 'p'
  | .topFirst => 't'
  | .bottomFirst => 'b'
  | .mixed => 'm'

/-- The picture structure of a letter; a question mark counts as progressive. -/
def ofLetter? : Char -> Option Interlace
  | 'p' => some .progressive
  | '?' => some .progressive
  | 't' => some .topFirst
  | 'b' => some .bottomFirst
  | 'm' => some .mixed
  | _ => none

end Interlace

/-- What the header of a stream says. -/
structure Header where
  /-- The format that frames are read into. -/
  format : Format
  width : Nat
  height : Nat
  /-- Frames per second. -/
  rate : Ratio
  /-- The width of a pixel by its height. -/
  aspect : Ratio
  interlace : Interlace
  deriving DecidableEq, Repr

namespace Header

/-- The word that opens a stream. -/
def opening : String := "YUV4MPEG2"

/-- The frame rate where none is known. -/
def defaultRate : Ratio := ⟨60, 1⟩

/-- The pixel aspect ratio where none is known. -/
def defaultAspect : Ratio := ⟨1, 1⟩

def ofFrames (format : Format) (width height : Nat) : Header :=
  ⟨format, width, height, defaultRate, defaultAspect, .progressive⟩

/-- The header with defaults in place of unknown ratios. -/
def resolve (header : Header) : Header :=
  { header with
    rate := header.rate.orElse defaultRate
    aspect := header.aspect.orElse defaultAspect }

/-!
## Writing
-/

/-- The line of a header, without its newline. -/
def render (header : Header) : Except Error String :=
  if header.width = 0 ∨ header.height = 0 then
    .error (.emptyStream header.width header.height)
  else
    match Colorspace.token? header.format with
    | none => .error (.withoutColorspace header.format)
    | some token =>
        .ok (String.ofList
          (opening.toList ++ " W".toList ++ Decimal.render header.width ++
            " H".toList ++ Decimal.render header.height ++
            " F".toList ++ header.rate.render ++ " A".toList ++ header.aspect.render ++
            " I".toList ++ header.interlace.letter :: " C".toList ++ token.toList))

/-- The text of a header in messages. -/
def describe (header : Header) : String :=
  s!"{header.format.name} {header.width}x{header.height} @ {header.rate.toText} fps, " ++
    s!"PAR {header.aspect.toText}"

/-!
## Reading
-/

/-- The words of a line, separated by one or more spaces. -/
def words (line : List Char) : List (List Char) :=
  (line.splitOn ' ').filter fun word => !word.isEmpty

/-- What the tags so far say. -/
structure Draft where
  width : Option Nat
  height : Option Nat
  format : Format
  rate : Ratio
  aspect : Ratio
  interlace : Interlace
  deriving DecidableEq, Repr

/-- What a header without tags says. -/
def Draft.initial : Draft :=
  ⟨none, none, .i420, Ratio.unknown, Ratio.unknown, .progressive⟩

/-- Read a width or a height, which is not zero. -/
def dimension? (value : List Char) : Option Nat :=
  match Decimal.parse? UInt32.size value with
  | some (n + 1) => some (n + 1)
  | _ => none

def ratio? (value : List Char) : Option Ratio :=
  match Ratio.parse value with
  | .ok ratio => some ratio
  | .error _ => none

/-- Read a picture structure. -/
def interlace? : List Char -> Option Interlace
  | [c] => Interlace.ofLetter? c
  | _ => none

/-- The draft with the value of a tag, or an error where the tag has none. -/
def Draft.set {α : Type} (tag : Char) (text : List Char) (value? : Option α)
    (update : α -> Draft) : Except Error Draft :=
  match value? with
  | some value => .ok (update value)
  | none => .error (.badTag tag (String.ofList text))

/-- The draft after one more tag. -/
def Draft.read (draft : Draft) : List Char -> Except Error Draft
  | [] => .ok draft
  | 'W' :: text => Draft.set 'W' text (dimension? text) fun w => { draft with width := some w }
  | 'H' :: text => Draft.set 'H' text (dimension? text) fun h => { draft with height := some h }
  | 'F' :: text => Draft.set 'F' text (ratio? text) fun rate => { draft with rate }
  | 'A' :: text => Draft.set 'A' text (ratio? text) fun aspect => { draft with aspect }
  | 'I' :: text => Draft.set 'I' text (interlace? text) fun interlace => { draft with interlace }
  | 'C' :: text =>
      match Colorspace.format? text with
      | some format => .ok { draft with format }
      | none => .error (.unknownColorspace (String.ofList text))
  | _ :: _ => .ok draft

/-- The header of a draft, which needs a width and a height. -/
def Draft.finish (draft : Draft) : Except Error Header :=
  match draft.width, draft.height with
  | some width, some height =>
      .ok ⟨draft.format, width, height, draft.rate, draft.aspect, draft.interlace⟩
  | none, _ => .error (.missingTag 'W')
  | some _, none => .error (.missingTag 'H')

/-- Read the line of a header, without its newline. -/
def parse (line : List Char) : Except Error Header :=
  match words line with
  | [] => .error (.signature "")
  | first :: tags =>
      if first = opening.toList then tags.foldlM Draft.read Draft.initial >>= Draft.finish
      else .error (.signature (String.ofList first))

/-!
## Compatibility
-/

/-- Check whether frames of two formats hold the same components at the same depth. -/
def isCompatible (stream image : Format) : Bool :=
  stream.chroma == image.chroma && stream.components.length == image.components.length &&
    stream.depth == image.depth

/-- Check that a picture fits a stream. -/
def check (header : Header) (view : View) : Except Error Unit :=
  if view.width ≠ header.width ∨ view.height ≠ header.height then
    .error (.frameSize view.width view.height header.width header.height)
  else if !isCompatible header.format view.format then
    .error (.frameFormat view.format header.format)
  else .ok ()

end Header
end RawVideo

import RawVideo.Digest.Blocks
import RawVideo.Stream.Header
import RawVideo.View.Sample

/-!
# Frames of a stream

A frame is a marker line and a payload.  The payload lists the components in
canonical order, each row by row from the top at true size, and each sample in
one byte or in two with the low byte first.

Rows without gaps pass between a picture and a stream as they are, so bits above
the depth of a sample survive; rows with gaps pass sample by sample.
-/

namespace RawVideo
namespace StreamFrame

/-- The word that opens a frame. -/
def marker : String := "FRAME"

/-- The byte that ends a line. -/
def newline : UInt8 := 0x0a

def ascii (text : String) : List UInt8 :=
  text.toList.map Char.toUInt8

/-- Check whether a line opens a frame: the marker, alone or with a space behind it. -/
def isMarker (line : List UInt8) : Bool :=
  let opening := ascii marker
  opening.isPrefixOf line &&
    (match line.drop opening.length with
    | [] => true
    | b :: _ => b == 0x20)

/-!
## Rows
-/

/-- The rows of a payload: component and line, in the order of the stream. -/
def rows (view : View) : Checked (List (Nat × Nat)) := do
  let parts <- (List.range view.format.components.length).mapM fun c => do
    let (_, h) <- view.componentSize c
    return (List.range h).map fun y => (c, y)
  return parts.flatten

/-- The bytes of a row in a payload. -/
def rowLength (view : View) (c : Nat) : Checked Nat := do
  let comp <- view.format.component c
  let (w, _) <- view.componentSize c
  return w * comp.bytes

/-- The bytes that a picture puts into a payload for a row. -/
def rowBytes (picture : Picture) (c y : Nat) : Checked (List UInt8) := do
  let comp <- picture.format.component c
  let (w, _) <- picture.view.componentSize c
  if comp.isContiguous then
    let row <- picture.view.rowSpan c y
    let span <- row.sub 0 (w * comp.bytes)
    return span.load picture.memory
  else
    let values <- (List.range w).mapM fun x => picture.sample c x y
    return values.flatMap (toLittleEndian comp.bytes)

/-- The samples that the bytes of a row hold. -/
def values (comp : Component) (bytes : List UInt8) : List Nat :=
  if comp.bytes = 1 then bytes.map UInt8.toNat
  else (blocks comp.bytes bytes).map littleEndian

/-- Store the bytes of a row of a payload in a picture. -/
def storeRow (view : View) (c y : Nat) (bytes : List UInt8) (memory : Memory) :
    Checked Memory := do
  let comp <- view.format.component c
  if comp.isContiguous then
    let row <- view.rowSpan c y
    row.store 0 bytes memory
  else
    view.putRow c y (values comp bytes) memory

/-- Leave bytes at the front of a row that is not whole: only a row without gaps is read in place. -/
def tearRow (view : View) (c y : Nat) (bytes : List UInt8) (memory : Memory) :
    Checked Memory := do
  let comp <- view.format.component c
  if comp.isContiguous then
    let row <- view.rowSpan c y
    row.store 0 bytes memory
  else
    return memory

end StreamFrame
end RawVideo

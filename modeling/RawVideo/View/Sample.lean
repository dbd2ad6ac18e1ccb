import RawVideo.Memory.Number
import RawVideo.View.Derive

/-!
# Samples

Reading and writing the samples that a view points at.  A sample of more than
eight bits takes two bytes, the low one first, and the bits above its depth are
ignored when it is read and cleared when it is written.

The stored bytes of a sample are what digests and streams see; its value is what
comparisons see.
-/

namespace RawVideo

namespace View

/-!
## Addresses
-/

def sampleSpan (view : View) (comp : Component) (x y : Nat) : Checked Span :=
  let plane := view.planes.get comp.plane
  plane.sub (comp.position plane.pitch x y) comp.bytes

/-- The addresses from the first sample of a row to the end of its last one. -/
def rowSpan (view : View) (c y : Nat) : Checked Span := do
  let comp <- view.format.component c
  let (w, _) <- view.componentSize c
  let plane := view.planes.get comp.plane
  plane.sub (comp.position plane.pitch 0 y) (comp.rowSpan w)

/-!
## Values
-/

/-- The stored bytes of a sample. -/
def stored (view : View) (memory : Memory) (c x y : Nat) : Checked (List UInt8) := do
  let comp <- view.format.component c
  let span <- view.sampleSpan comp x y
  return span.load memory

def sample (view : View) (memory : Memory) (c x y : Nat) : Checked Nat := do
  let comp <- view.format.component c
  let span <- view.sampleSpan comp x y
  return littleEndian (span.load memory) % comp.levels

/-- Write a sample. -/
def put (view : View) (c x y value : Nat) (memory : Memory) : Checked Memory := do
  let comp <- view.format.component c
  let span <- view.sampleSpan comp x y
  return Memory.write memory span.start (toLittleEndian comp.bytes (value % comp.levels))

def row (view : View) (memory : Memory) (c y : Nat) : Checked (List UInt8) := do
  let span <- view.rowSpan c y
  return span.load memory

/-- Write a row of samples, the values given from the left. -/
def putRow (view : View) (c y : Nat) (values : List Nat) (memory : Memory) : Checked Memory :=
  values.zipIdx.foldlM (fun memory (value, x) => view.put c x y value memory) memory

/-- Write the same value to every sample of a component. -/
def fill (view : View) (c value : Nat) (memory : Memory) : Checked Memory := do
  let (w, h) <- view.componentSize c
  (List.range h).foldlM (fun memory y =>
    (List.range w).foldlM (fun memory x => view.put c x y value memory) memory) memory

/-- The values of all samples, component by component and row by row. -/
def samples (view : View) (memory : Memory) : Checked (List (List (List Nat))) :=
  (List.range view.format.components.length).mapM fun c => do
    let (w, h) <- view.componentSize c
    (List.range h).mapM fun y => (List.range w).mapM fun x => view.sample memory c x y

end View

/-!
## Pictures
-/

/-- A view together with the memory that it looks at. -/
structure Picture where
  view : View
  memory : Memory
  deriving DecidableEq, Repr

namespace Picture

def sample (picture : Picture) (c x y : Nat) : Checked Nat :=
  picture.view.sample picture.memory c x y

def row (picture : Picture) (c y : Nat) : Checked (List UInt8) :=
  picture.view.row picture.memory c y

def format (picture : Picture) : Format :=
  picture.view.format

end Picture
end RawVideo

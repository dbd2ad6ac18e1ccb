import RawVideo.Error
import RawVideo.Memory.Basic

/-!
# Views

A view says where the samples of a picture lie in a memory, and holds no bytes
itself.  Each plane is a span of addresses with a pitch.  Planes that somebody
else laid out are accepted only if every row of every component lies inside its
plane; such planes are called covering.
-/

namespace RawVideo

/-- A span of addresses that holds rows. -/
structure Plane extends Span where
  /-- The bytes from one row to the next. -/
  pitch : Nat
  deriving DecidableEq, Repr

/-- A plane without bytes. -/
def Plane.none : Plane := ⟨Span.empty, 0⟩

/-- Where the samples of a picture lie. -/
structure View where
  format : Format
  width : Nat
  height : Nat
  planes : PerPlane Plane
  deriving DecidableEq, Repr

/-!
## The extent of a picture

The rows that a plane has to hold, and the bytes that its widest row takes.
-/

/-- The rows of a plane and the bytes of a row. -/
structure Extent where
  rows : Nat
  row : Nat
  deriving DecidableEq, Repr

namespace Format

/-- The extent that a component asks of its plane. -/
def componentExtent (format : Format) (width height : Nat) (entry : Component × Nat) :
    Checked Extent := do
  let (comp, c) := entry
  let (w, h) <- format.componentSize c width height
  return ⟨h, max (comp.rowSpan w + comp.offset) (w * comp.stride)⟩

def widen (format : Format) (width height : Nat) (extents : PerPlane Extent)
    (entry : Component × Nat) : Checked (PerPlane Extent) := do
  let extent <- format.componentExtent width height entry
  let old := extents.get entry.1.plane
  return extents.set entry.1.plane ⟨max old.rows extent.rows, max old.row extent.row⟩

def extents (format : Format) (width height : Nat) : Checked (PerPlane Extent) :=
  format.components.zipIdx.foldlM (format.widen width height) (PerPlane.all ⟨0, 0⟩)

end Format

/-!
## Acceptance
-/

namespace View

/-- Check that a plane holds the rows it has to hold. -/
def checkPlane (extents : PerPlane Extent) (planes : PerPlane Plane) (p : PlaneIndex) :
    Attempt Error Unit := do
  let extent := extents.get p
  let plane := planes.get p
  if plane.pitch < extent.row then
    throw (.shortPitch p.val plane.pitch extent.row)
  let lead <- Attempt.ofChecked (Checked.word64 ((extent.rows - 1) * plane.pitch))
  let needed <- Attempt.ofChecked (Checked.word64 (lead + extent.row))
  if plane.length < needed then
    throw (.shortPlane needed plane.length)

/-- Check that planes hold every row of a picture. -/
def checkPlanes (format : Format) (width height : Nat) (planes : PerPlane Plane) :
    Attempt Error Unit := do
  if width = 0 ∨ height = 0 then
    throw (.emptyImage width height)
  let extents <- Attempt.ofChecked (format.extents width height)
  format.planes.forM (checkPlane extents planes)

/-- Planes of the given lengths, one behind the other from `start` on. -/
def placeFrom (start : Nat) : List (Nat × Nat) -> List Plane
  | [] => []
  | (length, pitch) :: rest => ⟨⟨start, length⟩, pitch⟩ :: placeFrom (start + length) rest

/--
A view of planes that were laid out elsewhere.  Planes beyond those of the
format are left out.
-/
def ofPlanes (format : Format) (width height : Nat) (lengths pitches : List Nat) :
    Attempt Error View := do
  if width = 0 ∨ height = 0 then
    throw (.emptyImage width height)
  if lengths.length < format.planeCount ∨ pitches.length < format.planeCount then
    throw (.missingPlanes format (min lengths.length pitches.length))
  let placed := placeFrom 0 (lengths.zip pitches)
  let planes := PerPlane.ofFn fun p =>
    if p.val < format.planeCount then placed.getD p.val Plane.none else Plane.none
  checkPlanes format width height planes
  return ⟨format, width, height, planes⟩

/-- A plane by number.  A number behind the last plane that any format has is a fault. -/
def plane (view : View) (p : Nat) : Checked Plane :=
  match view.planes[p]? with
  | some plane => .ok plane
  | none => .error .outOfRange

/-- The width and height of a component. -/
def componentSize (view : View) (c : Nat) : Checked (Nat × Nat) :=
  view.format.componentSize c view.width view.height

/-- The pitches of the planes that the format has. -/
def pitches (view : View) : List Nat :=
  view.format.planes.map fun p => (view.planes.get p).pitch

/-- The lengths of the planes that the format has. -/
def lengths (view : View) : List Nat :=
  view.format.planes.map fun p => (view.planes.get p).length

/-- The text of a view in diagnostics; `name` says what kind of view it is. -/
def describe (view : View) (name : String) : String :=
  let pitches := ", ".intercalate (view.pitches.map toString)
  name ++ " \x7b " ++ s!"format: {view.format.descriptor.label}, " ++
    s!"width: {view.width}, height: {view.height}, pitches: [{pitches}]" ++ " \x7d"

end View
end RawVideo

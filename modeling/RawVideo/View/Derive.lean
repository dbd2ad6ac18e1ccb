import RawVideo.View.Basic

/-!
# Derived views

A rectangle or a field of a picture is a view of the same memory.  A rectangle
starts further inside each plane and keeps the pitch; a field keeps every second
row by doubling the pitch, and the bottom field starts one row later.

In YUV formats a rectangle has to start on the chroma grid, since a crop that
starts between two chroma samples would take the chroma of its neighbour.  A
field is refused where the planes do not reach its last row.
-/

namespace RawVideo

namespace Format

/-- The distances entered so far, as they are and with chroma halved. -/
structure Strides where
  halved : PerPlane Nat
  full : PerPlane Nat
  deriving DecidableEq, Repr

/--
Enter the distance between the samples of a component.  The first component on
a plane sets it, and the others have to agree once chroma is halved.
-/
def Strides.enter (format : Format) (strides : Strides) (entry : Component × Nat) :
    Except Error Strides :=
  let (comp, c) := entry
  let halved := comp.stride >>> (if c > 0 then format.shifts.1 else 0)
  if strides.halved.get comp.plane = 0 then
    .ok ⟨strides.halved.set comp.plane halved, strides.full.set comp.plane comp.stride⟩
  else if strides.halved.get comp.plane ≠ halved then
    .error (.contradiction format .strides)
  else .ok strides

/-- The bytes of a pixel on each plane, zero where the format has no plane. -/
def pixelStrides (format : Format) : Except Error (PerPlane Nat) :=
  (format.components.zipIdx.foldlM (Strides.enter format)
    ⟨PerPlane.all 0, PerPlane.all 0⟩).map Strides.full

/-- Check whether a rectangle may start at a point. -/
def onGrid (format : Format) (x y : Nat) : Bool :=
  format.components.length ≤ 1 || format.isRgb ||
    (x % (1 <<< format.shifts.1) == 0 && y % (1 <<< format.shifts.2) == 0)

end Format

namespace View

/-- The distance from the start of a plane to the start of a rectangle on it. -/
def rectOffset (view : View) (strides : PerPlane Nat) (rect : Rect) (p : PlaneIndex) : Nat :=
  let (ws, hs) := if p.val = 0 then (0, 0) else view.format.shifts
  ((rect.y * (view.planes.get p).pitch) >>> hs) + ((rect.x * strides.get p) >>> ws)

/-- Check that a rectangle lies in the picture and starts on the chroma grid. -/
def checkRect (view : View) (rect : Rect) : Except Error Unit :=
  if rect.width = 0 ∨ rect.height = 0 then .error .emptyRect
  else if view.width < rect.x + rect.width ∨ view.height < rect.y + rect.height then
    .error (.rectBeyondImage rect view.width view.height)
  else if !view.format.onGrid rect.x rect.y then
    .error (.rectOffGrid rect.x rect.y view.format)
  else .ok ()

/-- The part of a plane that starts with a rectangle, if the format has the plane. -/
def cropPlane (view : View) (strides : PerPlane Nat) (rect : Rect) (p : PlaneIndex) :
    Checked Plane :=
  if p.val < view.format.planeCount then do
    let span <- (view.planes.get p).suffix (view.rectOffset strides rect p)
    return ⟨span, (view.planes.get p).pitch⟩
  else .ok (view.planes.get p)

def crop (view : View) (rect : Rect) : Attempt Error View := do
  Attempt.ofExcept (view.checkRect rect)
  let strides <- Attempt.ofExcept view.format.pixelStrides
  let planes <- Attempt.ofChecked (PerPlane.ofFnM (view.cropPlane strides rect))
  return ⟨view.format, rect.width, rect.height, planes⟩

/-!
## Fields
-/

/--
The rows of a field on a plane.  The bottom field of a plane that ends before
its second row is empty.
-/
def fieldSpan (plane : Plane) : Field -> Span
  | .top => plane.toSpan
  | .bottom =>
      if plane.pitch ≤ plane.length then
        ⟨plane.start + plane.pitch, plane.length - plane.pitch⟩
      else Span.empty

/--
A plane reduced to a field, if the format has the plane.  The doubled pitch has to
fit 64 bits.
-/
def fieldPlane (view : View) (field : Field) (p : PlaneIndex) : Checked Plane :=
  if p.val < view.format.planeCount then do
    let pitch <- Checked.word64 (2 * (view.planes.get p).pitch)
    return ⟨fieldSpan (view.planes.get p) field, pitch⟩
  else .ok (view.planes.get p)

/-- Name the field in an error about its planes. -/
def fieldError (view : View) (field : Field) (cause : Error) : Error :=
  .fieldBeyondPlanes field view.width view.height view.format cause

def field (view : View) (field : Field) : Attempt Error View := do
  let planes <- Attempt.ofChecked (PerPlane.ofFnM (view.fieldPlane field))
  if view.height < 2 then
    throw (.fieldWithoutRows field view.width view.height)
  (checkPlanes view.format view.width (view.height / 2) planes).adapt (view.fieldError field)
  return ⟨view.format, view.width, view.height / 2, planes⟩

/-!
## Paths
-/

def step (view : View) : Step -> Attempt Error View
  | .crop rect => view.crop rect
  | .field field => view.field field

def derive (view : View) (path : List Step) : Attempt Error View :=
  path.foldlM step view

end View
end RawVideo

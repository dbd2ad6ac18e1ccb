import RawVideo.View.Derive

/-!
# Views derived in place

A view that a memory is written through exists once, and what is derived from it takes
its planes over: one after the other, each plane of the format is cut down to the part
that the rectangle or the field has of it.
-/

namespace RawVideo

/-- Replace the value of a plane by one computed from it. -/
def PerPlane.alter {ε α : Type} (f : PlaneIndex -> α -> Except ε α) (values : PerPlane α)
    (p : PlaneIndex) : Except ε (PerPlane α) := do
  let value <- f p (values.get p)
  return values.set p value

namespace View

/-- A plane without the bytes in front of an offset. -/
def cutPlane (offset : PlaneIndex -> Nat) (p : PlaneIndex) (plane : Plane) : Checked Plane := do
  let span <- plane.suffix (offset p)
  return ⟨span, plane.pitch⟩

def cropInPlace (view : View) (rect : Rect) : Attempt Error View := do
  Attempt.ofExcept (view.checkRect rect)
  let strides <- Attempt.ofExcept view.format.pixelStrides
  let planes <- Attempt.ofChecked
    (view.format.planes.foldlM (PerPlane.alter (cutPlane (view.rectOffset strides rect)))
      view.planes)
  return ⟨view.format, rect.width, rect.height, planes⟩

/-- A plane without its first row, empty where it ends before the second one. -/
def withoutRow (plane : Plane) : Span :=
  match plane.suffix plane.pitch with
  | .ok rest => rest
  | .error _ => Span.empty

/-- A plane with every second row left out. -/
def thinPlane (field : Field) (_ : PlaneIndex) (plane : Plane) : Checked Plane := do
  let span := match field with
    | .top => plane.toSpan
    | .bottom => withoutRow plane
  let pitch <- Checked.word64 (2 * plane.pitch)
  return ⟨span, pitch⟩

def fieldInPlace (view : View) (field : Field) : Attempt Error View := do
  let planes <- Attempt.ofChecked
    (view.format.planes.foldlM (PerPlane.alter (thinPlane field)) view.planes)
  if view.height < 2 then
    throw (.fieldWithoutRows field view.width view.height)
  (checkPlanes view.format view.width (view.height / 2) planes).adapt (view.fieldError field)
  return ⟨view.format, view.width, view.height / 2, planes⟩

def stepInPlace (view : View) : Step -> Attempt Error View
  | .crop rect => view.cropInPlace rect
  | .field field => view.fieldInPlace field

def deriveInPlace (view : View) (path : List Step) : Attempt Error View :=
  path.foldlM stepInPlace view

end View
end RawVideo

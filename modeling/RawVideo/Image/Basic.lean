import RawVideo.Image.Layout
import RawVideo.View.Sample

/-!
# Images

An image owns the memory that its view looks at: one buffer, laid out plane by
plane.  A released image holds nothing, and looking at it is a fault.
-/

namespace RawVideo

/-- A buffer with the planes of one picture. -/
structure Image where
  layout? : Option Layout
  memory : Memory
  deriving DecidableEq, Repr

namespace Image

/-- An image that holds nothing. -/
def released : Image := ⟨none, #[]⟩

/-- The bytes that the largest allocation can have. -/
def largestAllocation : Nat := UInt64.size / 2 - 1

/-- An image of zeros. -/
def allocate (format : Format) (width height : Nat) : Except Error Image :=
  match Layout.compute format width height with
  | .error error => .error error
  | .ok layout =>
      if largestAllocation < layout.size then
        .error (.allocation layout.size width height format)
      else .ok ⟨some layout, Memory.zeros layout.size⟩

/-- Check whether an image holds nothing. -/
def isEmpty (image : Image) : Bool :=
  image.layout?.isNone

/-- The format of an image that holds something. -/
def format? (image : Image) : Option Format :=
  image.layout?.map Layout.format

/-- The width of an image, zero when it holds nothing. -/
def width (image : Image) : Nat :=
  (image.layout?.map Layout.width).getD 0

/-- The height of an image, zero when it holds nothing. -/
def height (image : Image) : Nat :=
  (image.layout?.map Layout.height).getD 0

def viewOf (layout : Layout) : View :=
  ⟨layout.format, layout.width, layout.height,
    PerPlane.ofFn fun p =>
      ⟨⟨layout.offsets.get p, layout.planeSize p⟩, layout.pitches.get p⟩⟩

def view (image : Image) : Checked View :=
  match image.layout? with
  | some layout => .ok (viewOf layout)
  | none => .error .released

def picture (image : Image) : Checked Picture := do
  return ⟨<- image.view, image.memory⟩

/-- The text of an image in diagnostics. -/
def describe (image : Image) : String :=
  match image.layout? with
  | none => "Image(released)"
  | some layout =>
      "Image \x7b " ++ s!"format: {layout.format.descriptor.label}, " ++
        s!"width: {layout.width}, height: {layout.height}, data_size: {layout.size}" ++ " \x7d"

end Image
end RawVideo

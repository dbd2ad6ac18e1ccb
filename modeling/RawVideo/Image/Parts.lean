import RawVideo.Image.Basic

/-!
# Images taken apart

The view that an image is written through gets its planes one after the other from the
front of the buffer.  What lies between two planes is left out, and a plane that starts
inside an earlier one or ends behind the buffer is a fault.
-/

namespace RawVideo
namespace Image

/-- The planes that were taken so far. -/
structure Parts where
  planes : PerPlane Plane
  /-- The bytes that are left. -/
  rest : Span
  /-- How many bytes they follow. -/
  taken : Nat
  deriving DecidableEq, Repr

/-- Nothing is taken from a buffer. -/
def Parts.none (layout : Layout) (size : Nat) : Parts :=
  ⟨PerPlane.ofFn fun p => ⟨Span.empty, layout.pitches.get p⟩, ⟨0, size⟩, 0⟩

/-- Take the next plane. -/
def Parts.take (layout : Layout) (parts : Parts) (p : PlaneIndex) : Checked Parts :=
  if layout.offsets.get p < parts.taken then .error .overflow
  else do
    let tail <- parts.rest.suffix (layout.offsets.get p - parts.taken)
    let bytes <- tail.sub 0 (layout.planeSize p)
    let rest <- tail.suffix (layout.planeSize p)
    return ⟨parts.planes.set p ⟨bytes, layout.pitches.get p⟩, rest,
      layout.offsets.get p + layout.planeSize p⟩

/-- The view that an image is written through. -/
def writableView (image : Image) : Checked View :=
  match image.layout? with
  | some layout => do
      let parts <- layout.format.planes.foldlM (Parts.take layout)
        (Parts.none layout image.memory.size)
      return ⟨layout.format, layout.width, layout.height, parts.planes⟩
  | none => .error .released

end Image
end RawVideo

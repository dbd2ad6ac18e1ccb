import RawVideo.Error
import RawVideo.Memory.Basic

/-!
# Image layouts

Where the planes of an allocated image lie.  Width and height are rounded up to
a multiple of sixteen before chroma is halved, each plane gets the rows and the
pitch of its components, and the planes follow each other without gaps.
-/

namespace RawVideo

/-- The place of every plane of an image. -/
structure Layout where
  format : Format
  width : Nat
  height : Nat
  /-- The bytes from one row to the next. -/
  pitches : PerPlane Nat
  /-- The allocated rows. -/
  rows : PerPlane Nat
  /-- The first byte. -/
  offsets : PerPlane Nat
  /-- The bytes of all planes. -/
  size : Nat
  deriving DecidableEq, Repr

namespace Layout

/-- Width and height are rounded up to a multiple of this. -/
def alignment : Nat := 16

/-- Pitch and rows of each plane, zero before a component sets them. -/
structure Extents where
  pitches : PerPlane Nat
  rows : PerPlane Nat
  deriving DecidableEq, Repr

/-- No plane has an extent yet. -/
def Extents.none : Extents :=
  ⟨PerPlane.all 0, PerPlane.all 0⟩

/--
Enter the extent that a component asks of its plane.  An extent entered before
has to agree.
-/
def Extents.enter (format : Format) (width height : Nat) (extents : Extents)
    (entry : Component × Nat) : Except Error Extents :=
  let (comp, c) := entry
  let (ws, hs) := if c > 0 then format.shifts else (0, 0)
  let pitch := (comp.stride * width) >>> ws
  let rows := height >>> hs
  if extents.pitches.get comp.plane ≠ 0 ∧ extents.pitches.get comp.plane ≠ pitch then
    .error (.contradiction format .pitches)
  else if extents.rows.get comp.plane ≠ 0 ∧ extents.rows.get comp.plane ≠ rows then
    .error (.contradiction format .heights)
  else .ok ⟨extents.pitches.set comp.plane pitch, extents.rows.set comp.plane rows⟩

/-- The extents of all planes of an image with padded width and height. -/
def extents (format : Format) (width height : Nat) : Except Error Extents :=
  format.components.zipIdx.foldlM (Extents.enter format width height) Extents.none

/-- The planes placed so far: their offsets and the bytes up to their end. -/
structure Placement where
  offsets : PerPlane Nat
  size : Nat
  deriving DecidableEq, Repr

/-- Put a plane behind those placed so far.  The end has to fit 64 bits. -/
def Placement.put (format : Format) (width height : Nat) (extents : Extents)
    (placed : Placement) (plane : PlaneIndex) : Except Error Placement :=
  let bytes := extents.pitches.get plane * extents.rows.get plane
  if extents.pitches.get plane = 0 ∨ extents.rows.get plane = 0 then
    .error (.contradiction format .emptyPlane)
  else if bytes + placed.size < UInt64.size then
    .ok ⟨placed.offsets.set plane placed.size, bytes + placed.size⟩
  else .error (.sizeOverflow width height format)

def compute (format : Format) (width height : Nat) : Except Error Layout :=
  if width = 0 ∨ height = 0 then .error (.emptyImage width height)
  else do
    let extents <- extents format (roundUp width alignment) (roundUp height alignment)
    let placed <-
      format.planes.foldlM (Placement.put format width height extents)
        ⟨PerPlane.all 0, 0⟩
    return ⟨format, width, height, extents.pitches, extents.rows, placed.offsets, placed.size⟩

def planeSize (layout : Layout) (plane : PlaneIndex) : Nat :=
  layout.pitches.get plane * layout.rows.get plane

end Layout
end RawVideo

import RawVideo.View.Sample

/-!
# Conversions

Copying a picture into another one of the same size and chroma family.  A format
converts to itself, and the 8-bit 4:2:0 formats convert to each other as far as
they are listed here; no conversion changes a sample.

Between two pictures of one format whole rows are copied, the bytes between the
samples included.  Otherwise the samples are copied one component at a time.
-/

namespace RawVideo

structure ConversionFlags where
  /-- Convert the top field. -/
  top : Bool
  /-- Convert the bottom field. -/
  bottom : Bool
  /-- The source lies in memory that is slow to read except by streaming loads. -/
  uncached : Bool
  deriving DecidableEq, Repr

namespace ConversionFlags

/-- Convert the whole frame. -/
def none : ConversionFlags := ⟨false, false, false⟩

/-- The fields asked for, the top one first. -/
def fields (flags : ConversionFlags) : List Field :=
  (if flags.top then [Field.top] else []) ++ (if flags.bottom then [Field.bottom] else [])

end ConversionFlags

namespace Conversion

/-- The pairs of different formats that convert. -/
def pairs : List (Format × Format) :=
  [(.nv12, .i420), (.nv12, .yv12), (.i420, .nv12), (.yv12, .nv12), (.i420, .yv12),
    (.yv12, .i420)]

/-- Check whether a format converts to another one. -/
def isSupported (source target : Format) : Bool :=
  source == target || pairs.contains (source, target)

/-- Check whether a pair of formats may go through a bounce buffer. -/
def isBounced (source target : Format) : Bool :=
  (target == .i420 || target == .yv12) &&
    (source == .nv12 || source == .i420 || source == .yv12)

/-!
## Whole rows
-/

/-- Widen the visible extent of a plane by one component. -/
def widen (format : Format) (width height : Nat) (p : PlaneIndex) (extent : Extent)
    (entry : Component × Nat) : Checked Extent :=
  if entry.1.plane = p then do
    let (w, h) <- format.componentSize entry.2 width height
    return ⟨max extent.rows h, max extent.row (w * entry.1.stride)⟩
  else .ok extent

/-- The visible rows of a plane and the visible bytes of a row. -/
def visibleExtent (format : Format) (width height : Nat) (p : PlaneIndex) : Checked Extent :=
  format.components.zipIdx.foldlM (widen format width height p) ⟨0, 0⟩

def copyRow (target source : View) (origin : Memory) (p : PlaneIndex) (bytes : Nat)
    (memory : Memory) (y : Nat) : Checked Memory := do
  let into <- (target.planes.get p).sub (y * (target.planes.get p).pitch) bytes
  let span <- (source.planes.get p).sub (y * (source.planes.get p).pitch) bytes
  return Memory.write memory into.start (span.load origin)

/-- Copy the visible rows of a plane. -/
def copyPlane (target source : View) (origin : Memory) (memory : Memory) (p : PlaneIndex) :
    Checked Memory := do
  let extent <- visibleExtent source.format source.width source.height p
  (List.range extent.rows).foldlM (copyRow target source origin p extent.row) memory

/-- Copy the visible rows of all planes. -/
def copyPlanes (target source : View) (origin memory : Memory) : Checked Memory :=
  source.format.planes.foldlM (copyPlane target source origin) memory

/-!
## Samples
-/

/-- A row of samples: its addresses, and where the samples lie in it. -/
structure Row where
  span : Span
  component : Component
  deriving DecidableEq, Repr

def copySample (into source : Row) (origin : Memory) (memory : Memory) (x : Nat) :
    Checked Memory := do
  let bytes := source.component.bytes
  let target <- into.span.sub (x * into.component.stride) bytes
  let span <- source.span.sub (x * source.component.stride) bytes
  return Memory.write memory target.start (span.load origin)

/-- Copy the first `width` samples of a row, at once where both rows have no gaps. -/
def copySamples (into source : Row) (width : Nat) (origin memory : Memory) : Checked Memory :=
  if source.component.isContiguous && into.component.isContiguous then do
    let bytes := width * source.component.bytes
    let target <- into.span.sub 0 bytes
    let span <- source.span.sub 0 bytes
    return Memory.write memory target.start (span.load origin)
  else (List.range width).foldlM (copySample into source origin) memory

def rowOf (view : View) (c y : Nat) : Checked Row := do
  return ⟨<- view.rowSpan c y, <- view.format.component c⟩

def copyComponent (target source : View) (origin : Memory) (memory : Memory) (c : Nat) :
    Checked Memory := do
  let (w, h) <- source.componentSize c
  (List.range h).foldlM (fun memory y => do
    let into <- rowOf target c y
    let row <- rowOf source c y
    copySamples into row w origin memory) memory

def copyComponents (target source : View) (origin memory : Memory) : Checked Memory :=
  (List.range source.format.components.length).foldlM (copyComponent target source origin) memory

/-- Copy a picture without a bounce buffer. -/
def copyDirectly (target source : View) (origin memory : Memory) : Checked Memory :=
  if source.format = target.format then copyPlanes target source origin memory
  else copyComponents target source origin memory

end Conversion
end RawVideo

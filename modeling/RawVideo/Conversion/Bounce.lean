import RawVideo.Conversion.Basic
import RawVideo.Memory.Copy

/-!
# Bounce buffers

A source that is slow to read is read once, in order, by streaming loads: blocks
of its rows go to a buffer, and the samples are copied from there.  The rows of a
block start at multiples of the row length rounded up to sixteen bytes, and a
block has as many rows as the buffer holds.
-/

namespace RawVideo
namespace Conversion

/-- A buffer and the memory of the target. -/
structure Workspace where
  cache : Memory
  target : Memory

/-- The bytes that the buffer has at least. -/
def smallestCache : Nat := 4096

/-- The bytes from one row to the next in the buffer, for rows of `bytes` bytes. -/
def lineLength (bytes : Nat) : Nat :=
  roundUp bytes 16

/-- The rows of a block: what a buffer holds that was kept from before, or a single line. -/
def stepOf (cache : Memory) (extent : Extent) : Nat :=
  (Memory.reserve cache (lineLength extent.row)).size / lineLength extent.row

/-- The rows `start` up to `stop` in blocks of `step` rows: the first row and the count. -/
def rowBlocks (step start stop : Nat) : List (Nat × Nat) :=
  if 0 < step ∧ start < stop then
    (start, min step (stop - start)) :: rowBlocks step (start + min step (stop - start)) stop
  else []
termination_by stop - start
decreasing_by omega

/-- Fetch row `y + i` of a plane into line `i` of the buffer. -/
def fetchRow (features : Features) (source : View) (origin : Memory) (p : PlaneIndex)
    (bytes line y : Nat) (cache : Memory) (i : Nat) : Checked Memory := do
  let plane := source.planes.get p
  let span <- plane.sub ((y + i) * plane.pitch) bytes
  let free <- (Span.mk 0 cache.size).suffix (i * line)
  Memory.streamCopy features (Memory.boundaryDistance span.start) free (span.load origin) cache

/-- Copy the samples of a component from line `i` of the buffer to row `y + i`. -/
def spillRow (target : View) (comp : Component) (c width line y : Nat) (cache : Memory)
    (memory : Memory) (i : Nat) : Checked Memory := do
  let start := i * line + comp.offset
  let span <- (Span.mk 0 cache.size).sub start ((i + 1) * line - start)
  let into <- rowOf target c (y + i)
  copySamples into ⟨span, comp⟩ width cache memory

/-- Copy what the buffer holds of a component of plane `p`. -/
def spillComponent (target source : View) (p : PlaneIndex) (line y count : Nat) (cache : Memory)
    (memory : Memory) (entry : Component × Nat) : Checked Memory :=
  let (comp, c) := entry
  if comp.plane = p then do
    let (w, h) <- source.componentSize c
    (List.range (min count (h - y))).foldlM (spillRow target comp c w line y cache) memory
  else .ok memory

def bounceBlock (features : Features) (target source : View) (origin : Memory) (p : PlaneIndex)
    (bytes line : Nat) (work : Workspace) (block : Nat × Nat) : Checked Workspace := do
  let (y, count) := block
  let cache <-
    (List.range count).foldlM (fetchRow features source origin p bytes line y) work.cache
  let memory <-
    source.format.components.zipIdx.foldlM
      (spillComponent target source p line y count cache) work.target
  return ⟨cache, memory⟩

def bouncePlane (features : Features) (target source : View) (origin : Memory)
    (work : Workspace) (p : PlaneIndex) : Checked Workspace := do
  let extent <- visibleExtent source.format source.width source.height p
  let line := lineLength extent.row
  let cache := Memory.reserve work.cache line
  (rowBlocks (stepOf work.cache extent) 0 extent.rows).foldlM
    (bounceBlock features target source origin p extent.row line) ⟨cache, work.target⟩

/-- Copy a picture through a bounce buffer. -/
def bounce (features : Features) (target source : View) (origin : Memory) (work : Workspace) :
    Checked Workspace :=
  let cache := Memory.reserve work.cache (max smallestCache (roundUp target.width 16))
  source.format.planes.foldlM (bouncePlane features target source origin) ⟨cache, work.target⟩

end Conversion
end RawVideo

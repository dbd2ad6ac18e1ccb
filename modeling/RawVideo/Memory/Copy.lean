import RawVideo.Digest.Kernel
import RawVideo.Memory.Basic

/-!
# Copies

Copying bytes to the front of a span, plainly or by vectors of sixteen bytes.
The vector copy reads its source from sixteen-byte boundaries only: it first
copies the bytes in front of the first boundary one by one, then blocks of four
vectors, then single vectors, and the bytes that are left one by one.
-/

namespace RawVideo
namespace Memory

/-!
## Plans
-/

/-- The offsets from `start` on at which a block of `width` bytes ends within `stop`. -/
def blockOffsets (width start stop : Nat) : List Nat :=
  if 0 < width ∧ start + width ≤ stop then
    start :: blockOffsets width (start + width) stop
  else []
termination_by stop - start
decreasing_by omega

/-- The offset behind the last of the blocks of `width` bytes. -/
def behindBlocks (width start stop : Nat) : Nat :=
  start + width * (blockOffsets width start stop).length

/-- The offsets that a vector copy handles in different ways. -/
structure VectorPlan where
  /-- The bytes in front of the first boundary. -/
  head : Nat
  vectors : List Nat
  /-- The first byte behind the vectors. -/
  tail : Nat
  deriving DecidableEq, Repr

/-- The plan for `length` bytes whose first boundary is `distance` bytes away. -/
def vectorPlan (distance length : Nat) : VectorPlan :=
  let head := min distance length
  let single := behindBlocks 64 head length
  let quads := (blockOffsets 64 head length).flatMap fun i => [i, i + 16, i + 32, i + 48]
  ⟨head, quads ++ blockOffsets 16 single length, behindBlocks 16 single length⟩

/-!
## Copying
-/

/-- Copy `count` bytes of a source, from offset `offset` on, to the same offset behind `start`. -/
def move (source : List UInt8) (start : Nat) (memory : Memory) (offset count : Nat) : Memory :=
  write memory (start + offset) ((source.drop offset).take count)

def copyVectors (distance start : Nat) (source : List UInt8) (memory : Memory) : Memory :=
  let plan := vectorPlan distance source.length
  let headed := move source start memory 0 plan.head
  let middle :=
    plan.vectors.foldl (fun memory offset => move source start memory offset 16) headed
  move source start middle plan.tail (source.length - plan.tail)

/--
Copy a source to the front of a span.  With streaming loads the copy goes by
vectors, and `distance` bytes of the source lie in front of the first boundary.
-/
def streamCopy (features : Features) (distance : Nat) (target : Span) (source : List UInt8)
    (memory : Memory) : Checked Memory :=
  if target.length < source.length then
    .error (.shortDestination target.length source.length)
  else if features.sse41 then .ok (copyVectors distance target.start source memory)
  else .ok (write memory target.start source)

/-- The bytes from an address to the next sixteen-byte boundary. -/
def boundaryDistance (address : Nat) : Nat :=
  (16 - address % 16) % 16

end Memory
end RawVideo

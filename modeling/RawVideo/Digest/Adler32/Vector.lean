import RawVideo.Digest.Adler32.Basic

/-!
# Adler-32 in vector lanes

Blocks of 32 bytes are added up in four lanes of 32 bits.  Within a block the
second sum grows by 32 times the first sum and by the bytes weighted from 32 down
to 1.  The weighted sums and the byte sums are taken by vector instructions; the
first sums in front of the blocks are collected in lanes of their own and shifted
in once at the end of a run.
-/

namespace RawVideo
namespace Adler32

/-!
## Lanes
-/

/-- Four lanes of 32 bits. -/
structure Lanes where
  a : UInt32
  b : UInt32
  c : UInt32
  d : UInt32
  deriving DecidableEq, Repr

namespace Lanes

/-- No lane holds anything. -/
def zero : Lanes := ⟨0, 0, 0, 0⟩

def first (value : UInt32) : Lanes := ⟨value, 0, 0, 0⟩

/-- Add lane by lane. -/
def add (x y : Lanes) : Lanes :=
  ⟨x.a + y.a, x.b + y.b, x.c + y.c, x.d + y.d⟩

def shiftLeft (x : Lanes) (count : UInt32) : Lanes :=
  ⟨x.a <<< count, x.b <<< count, x.c <<< count, x.d <<< count⟩

def swapPairs (x : Lanes) : Lanes := ⟨x.b, x.a, x.d, x.c⟩

def swapHalves (x : Lanes) : Lanes := ⟨x.c, x.d, x.a, x.b⟩

/-- Add every lane to its neighbour, then every half to the other one. -/
def spread (x : Lanes) : Lanes :=
  let pairs := x.add x.swapPairs
  pairs.add pairs.swapHalves

end Lanes

/-!
## Instructions on sixteen bytes
-/

def byteSum (bytes : List UInt8) : UInt32 :=
  bytes.foldl (fun sum b => sum + b.toUInt32) 0

/-- The byte sums of both halves, in the first and the third lane. -/
def halfSums (bytes : List UInt8) : Lanes :=
  ⟨byteSum (bytes.take 8), 0, byteSum (bytes.drop 8), 0⟩

/-- The largest number of 16 bits with a sign. -/
def largest16 : Nat := 32767

/-- Products of bytes and weights, added in neighbouring pairs and cut off at 16 bits. -/
def weightedPairs : List UInt8 -> List Nat -> List Nat
  | x :: y :: bytes, v :: w :: weights =>
      min largest16 (x.toNat * v + y.toNat * w) :: weightedPairs bytes weights
  | _, _ => []

/-- Neighbouring pairs of 16-bit numbers added up, one sum for each lane. -/
def pairSums : List Nat -> Lanes
  | [p, q, r, s, t, u, v, w] =>
      ⟨UInt32.ofNat (p + q), UInt32.ofNat (r + s), UInt32.ofNat (t + u), UInt32.ofNat (v + w)⟩
  | _ => Lanes.zero

/-- The weights of the first sixteen bytes of a block. -/
def upperWeights : List Nat := [32, 31, 30, 29, 28, 27, 26, 25, 24, 23, 22, 21, 20, 19, 18, 17]

/-- The weights of the last sixteen bytes of a block. -/
def lowerWeights : List Nat := [16, 15, 14, 13, 12, 11, 10, 9, 8, 7, 6, 5, 4, 3, 2, 1]

/-!
## Runs of blocks
-/

/-- The bytes of a block. -/
def blockLength : Nat := 32

/-- The blocks of a run between two remainders. -/
def runBlocks : Nat := runLength / blockLength

/-- The lanes within a run. -/
structure Accumulators where
  /-- The first sums in front of the blocks. -/
  leads : Lanes
  /-- The sums of the bytes. -/
  low : Lanes
  /-- The weighted sums. -/
  high : Lanes
  deriving DecidableEq, Repr

def Accumulators.addBlock (acc : Accumulators) (block : List UInt8) : Accumulators :=
  let upper := block.take 16
  let lower := block.drop 16
  { leads := acc.leads.add acc.low
    low := (acc.low.add (halfSums upper)).add (halfSums lower)
    high :=
      (acc.high.add (pairSums (weightedPairs upper upperWeights))).add
        (pairSums (weightedPairs lower lowerWeights)) }

/-- The lanes in front of a run of `count` blocks. -/
def Accumulators.start (sums : Sums) (count : Nat) : Accumulators :=
  ⟨Lanes.first (sums.low * UInt32.ofNat count), Lanes.zero, Lanes.first sums.high⟩

/-- The sums after a run, from the first lanes. -/
def Accumulators.finish (acc : Accumulators) (sums : Sums) : Sums :=
  Sums.reduce
    ⟨sums.low + acc.low.spread.a, (acc.high.add (acc.leads.shiftLeft 5)).spread.a⟩

/-- The sums after a run of whole blocks. -/
def addBlocks (sums : Sums) (run : List UInt8) : Sums :=
  let parts := blocks blockLength run
  (parts.foldl Accumulators.addBlock (Accumulators.start sums parts.length)).finish sums

/-- The state after some bytes: whole blocks in lanes, and the rest in the deferred form. -/
def updateVector (state : UInt32) (bytes : List UInt8) : UInt32 :=
  let whole := bytes.length / blockLength * blockLength
  let sums :=
    (blocks (runBlocks * blockLength) (bytes.take whole)).foldl addBlocks (Sums.unpack state)
  updateChunked sums.pack (bytes.drop whole)

end Adler32
end RawVideo

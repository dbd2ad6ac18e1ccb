import RawVideo.Digest.Blocks

/-!
# Adler-32

Two sums modulo 65521: one of the bytes, and one of the first sum after each
byte.  A state packs the second sum above the first, and a digest starts from
the zero state.

The reference takes a remainder after every byte.  The deferred form takes one
after every run, which is short enough for the sums to fit 32 bits.
-/

namespace RawVideo
namespace Adler32

/-- The modulus, the largest prime below 65536. -/
def base : UInt32 := 65521

/-- The bytes of a run between two remainders. -/
def runLength : Nat := 5552

/-- The state before any byte. -/
def seed : UInt32 := 0

/-- The sum of the bytes and the sum of its values. -/
structure Sums where
  low : UInt32
  high : UInt32
  deriving DecidableEq, Repr

namespace Sums

/-- The sums that a state packs. -/
def unpack (state : UInt32) : Sums :=
  ⟨state &&& 0xffff, state >>> 16⟩

/-- The state that packs two sums. -/
def pack (sums : Sums) : UInt32 :=
  sums.high <<< 16 ||| sums.low

/-- Both sums after a byte. -/
def add (sums : Sums) (b : UInt8) : Sums :=
  ⟨sums.low + b.toUInt32, sums.high + (sums.low + b.toUInt32)⟩

/-- Both sums modulo the base. -/
def reduce (sums : Sums) : Sums :=
  ⟨sums.low % base, sums.high % base⟩

/-- Both sums after a byte, the first reduced before it is added to the second. -/
def addReduced (sums : Sums) (b : UInt8) : Sums :=
  let low := (sums.low + b.toUInt32) % base
  ⟨low, (sums.high + low) % base⟩

end Sums

/-- The state after some bytes, with a remainder after each of them. -/
def updateScalar (state : UInt32) (bytes : List UInt8) : UInt32 :=
  (bytes.foldl Sums.addReduced (Sums.unpack state)).pack

/-- The sums after a run, added up sixteen bytes at a time and then reduced. -/
def addRun (sums : Sums) (run : List UInt8) : Sums :=
  ((blocks 16 run).foldl (fun sums block => block.foldl Sums.add sums) sums).reduce

/-- The state after some bytes, with a remainder after each run. -/
def updateChunked (state : UInt32) (bytes : List UInt8) : UInt32 :=
  ((blocks runLength bytes).foldl addRun (Sums.unpack state)).pack

end Adler32
end RawVideo

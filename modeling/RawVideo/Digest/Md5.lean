import RawVideo.Digest.Blocks
import RawVideo.Memory.Number

/-!
# MD5

A message is padded to a multiple of 64 bytes, and a state of four words absorbs
it block by block.  A context does the same for a message that comes in pieces:
it keeps the bytes that do not fill a block yet.
-/

namespace RawVideo
namespace Md5

/-- The four words that absorb a message. -/
structure State where
  a : UInt32
  b : UInt32
  c : UInt32
  d : UInt32
  deriving DecidableEq, Repr

/-- The state before any block. -/
def State.initial : State :=
  ⟨0x67452301, 0xefcdab89, 0x98badcfe, 0x10325476⟩

/-!
## One block
-/

/-- The constant of each round. -/
def constants : Array UInt32 :=
  #[0xd76aa478, 0xe8c7b756, 0x242070db, 0xc1bdceee,
    0xf57c0faf, 0x4787c62a, 0xa8304613, 0xfd469501,
    0x698098d8, 0x8b44f7af, 0xffff5bb1, 0x895cd7be,
    0x6b901122, 0xfd987193, 0xa679438e, 0x49b40821,
    0xf61e2562, 0xc040b340, 0x265e5a51, 0xe9b6c7aa,
    0xd62f105d, 0x02441453, 0xd8a1e681, 0xe7d3fbc8,
    0x21e1cde6, 0xc33707d6, 0xf4d50d87, 0x455a14ed,
    0xa9e3e905, 0xfcefa3f8, 0x676f02d9, 0x8d2a4c8a,
    0xfffa3942, 0x8771f681, 0x6d9d6122, 0xfde5380c,
    0xa4beea44, 0x4bdecfa9, 0xf6bb4b60, 0xbebfbc70,
    0x289b7ec6, 0xeaa127fa, 0xd4ef3085, 0x04881d05,
    0xd9d4d039, 0xe6db99e5, 0x1fa27cf8, 0xc4ac5665,
    0xf4292244, 0x432aff97, 0xab9423a7, 0xfc93a039,
    0x655b59c3, 0x8f0ccc92, 0xffeff47d, 0x85845dd1,
    0x6fa87e4f, 0xfe2ce6e0, 0xa3014314, 0x4e0811a1,
    0xf7537e82, 0xbd3af235, 0x2ad7d2bb, 0xeb86d391]

/-- The rotations of each group of sixteen rounds, used in turn. -/
def rotations : List (List UInt32) :=
  [[7, 12, 17, 22], [5, 9, 14, 20], [4, 11, 16, 23], [6, 10, 15, 21]]

def rotateLeft (word count : UInt32) : UInt32 :=
  word <<< count ||| word >>> (32 - count)

def rotation (round : Nat) : UInt32 :=
  ((rotations.getD (round / 16) []).getD (round % 4) 0)

/-- How a round mixes three words. -/
def mix (round : Nat) (b c d : UInt32) : UInt32 :=
  match round / 16 with
  | 0 => (b &&& c) ||| (~~~b &&& d)
  | 1 => (d &&& b) ||| (~~~d &&& c)
  | 2 => b ^^^ c ^^^ d
  | _ => c ^^^ (b ||| ~~~d)

/-- The word of the block that a round takes. -/
def wordIndex (round : Nat) : Nat :=
  match round / 16 with
  | 0 => round % 16
  | 1 => (5 * round + 1) % 16
  | 2 => (3 * round + 5) % 16
  | _ => 7 * round % 16

/-- The words of a block, the low byte first. -/
def words (block : List UInt8) : Array UInt32 :=
  ((List.range 16).map fun i =>
    UInt32.ofNat (littleEndian ((block.drop (4 * i)).take 4))).toArray

def State.round (words : Array UInt32) (s : State) (round : Nat) : State :=
  let sum := s.a + mix round s.b s.c s.d + constants.getD round 0 + words.getD (wordIndex round) 0
  ⟨s.d, s.b + rotateLeft sum (rotation round), s.b, s.c⟩

/-- The state after a block. -/
def State.absorb (state : State) (block : List UInt8) : State :=
  let mixed := (List.range 64).foldl (State.round (words block)) state
  ⟨state.a + mixed.a, state.b + mixed.b, state.c + mixed.c, state.d + mixed.d⟩

/-- The bytes of a state, the low byte of each word first. -/
def State.toBytes (state : State) : List UInt8 :=
  [state.a, state.b, state.c, state.d].flatMap fun word => toLittleEndian 4 word.toNat

/-!
## Messages
-/

/-- The bytes of a block. -/
def blockLength : Nat := 64

/-- What is appended to a message of `length` bytes: a one bit, zeros, and the length in bits. -/
def padding (length : Nat) : List UInt8 :=
  0x80 :: List.replicate ((119 - length % blockLength) % blockLength) 0 ++
    toLittleEndian 8 (8 * length)

def digest (message : List UInt8) : List UInt8 :=
  ((blocks blockLength (message ++ padding message.length)).foldl State.absorb
    State.initial).toBytes

/-!
## Messages in pieces
-/

/-- A message so far. -/
structure Context where
  /-- The state after the full blocks. -/
  state : State
  /-- The bytes behind the full blocks. -/
  pending : List UInt8
  /-- The bytes in all. -/
  length : Nat
  deriving DecidableEq, Repr

namespace Context

/-- No message yet. -/
def initial : Context := ⟨State.initial, [], 0⟩

/-- Absorb the full blocks of some bytes and keep the rest. -/
def absorbAll (state : State) (bytes : List UInt8) : State × List UInt8 :=
  if blockLength ≤ bytes.length then
    absorbAll (state.absorb (bytes.take blockLength)) (bytes.drop blockLength)
  else (state, bytes)
termination_by bytes.length
decreasing_by
  simp only [List.length_drop, blockLength] at *
  omega

/-- Append bytes to the message. -/
def update (context : Context) (bytes : List UInt8) : Context :=
  let (state, pending) := absorbAll context.state (context.pending ++ bytes)
  ⟨state, pending, context.length + bytes.length⟩

/-- The digest of the message. -/
def finish (context : Context) : List UInt8 :=
  (absorbAll context.state (context.pending ++ padding context.length)).1.toBytes

end Context
end Md5
end RawVideo

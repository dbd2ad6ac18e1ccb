import RawVideo.Pixel.PerPlane

/-!
# Components

A pixel format stores up to four channels in up to four planes.  A component is
one channel together with the place of its samples: the plane, the offset of the
first sample, and the distance between two neighbouring samples of a row.
-/

namespace RawVideo

/-- What a component measures. -/
inductive Channel where
  | y | u | v | r | g | b | a
  deriving DecidableEq, Repr

namespace Channel

def name : Channel -> String
  | .y => "Y"
  | .u => "U"
  | .v => "V"
  | .r => "R"
  | .g => "G"
  | .b => "B"
  | .a => "A"

def isAlpha (channel : Channel) : Bool :=
  channel == .a

end Channel

/-- The chroma family of a format. -/
inductive Chroma where
  /-- Luma only. -/
  | yuv400
  /-- Chroma halved in both directions. -/
  | yuv420
  /-- Chroma halved horizontally. -/
  | yuv422
  /-- Chroma at full size. -/
  | yuv444
  /-- Packed red, green and blue. -/
  | rgb
  deriving DecidableEq, Repr

namespace Chroma

/-- The usual notation of a chroma family. -/
def name : Chroma -> String
  | .yuv400 => "YUV 4:0:0"
  | .yuv420 => "YUV 4:2:0"
  | .yuv422 => "YUV 4:2:2"
  | .yuv444 => "YUV 4:4:4"
  | .rgb => "RGB"

/-- How often chroma is halved horizontally and vertically. -/
def shifts : Chroma -> Nat × Nat
  | .yuv420 => (1, 1)
  | .yuv422 => (1, 0)
  | _ => (0, 0)

end Chroma

/-- Where the samples of one channel lie. -/
structure Component where
  channel : Channel
  /-- The plane that holds the samples. -/
  plane : PlaneIndex
  /-- The offset of the first sample of a row. -/
  offset : Nat
  /-- The bytes from one sample of a row to the next. -/
  stride : Nat
  /-- The significant bits of a sample. -/
  depth : Nat
  deriving DecidableEq, Repr

namespace Component

/-- The bytes of a sample: one up to eight bits, two beyond. -/
def bytes (comp : Component) : Nat :=
  if comp.depth ≤ 8 then 1 else 2

/-- How many values a sample can have. -/
def levels (comp : Component) : Nat :=
  1 <<< comp.depth

/-- The largest sample. -/
def maxValue (comp : Component) : Nat :=
  comp.levels - 1

/-- Check whether the samples of a row follow each other without gaps. -/
def isContiguous (comp : Component) : Bool :=
  comp.stride == comp.bytes

/-- The bytes from the first to the end of the last of `width` samples of a row. -/
def rowSpan (comp : Component) (width : Nat) : Nat :=
  if width = 0 then 0 else (width - 1) * comp.stride + comp.bytes

/-- The offset of a sample in its plane, whose rows lie `pitch` bytes apart. -/
def position (comp : Component) (pitch x y : Nat) : Nat :=
  y * pitch + x * comp.stride + comp.offset

end Component
end RawVideo

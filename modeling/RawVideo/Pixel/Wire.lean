/-!
# Wire formats

How a format is described outside: a four-character code, and for RGB formats
the byte order of the pixel word and the mask of each channel in it.
-/

namespace RawVideo

/-- The order of the bytes of a pixel word. -/
inductive ByteOrder where
  /-- Least significant byte first. -/
  | lsb
  /-- Most significant byte first. -/
  | msb
  deriving DecidableEq, Repr

def ByteOrder.name : ByteOrder -> String
  | .lsb => "Lsb"
  | .msb => "Msb"

/-- A four-character code, the first character in the lowest byte. -/
def fourCC (c₀ c₁ c₂ c₃ : UInt8) : UInt32 :=
  c₀.toUInt32 ||| c₁.toUInt32 <<< 8 ||| c₂.toUInt32 <<< 16 ||| c₃.toUInt32 <<< 24

/-- The masks of the channels of a pixel word. -/
structure Masks where
  red : UInt32
  green : UInt32
  blue : UInt32
  alpha : UInt32
  deriving DecidableEq, Repr

/-- The outside description of a format. -/
structure Wire where
  /-- The four-character code. -/
  code : UInt32
  /-- The byte order of the pixel word. -/
  order : ByteOrder
  /-- Bits per pixel, averaged over subsampled planes. -/
  bitsPerPixel : Nat
  /-- The colour depth of an RGB format, zero for the others. -/
  depth : Nat
  /-- The channel masks of an RGB format, zero for the others. -/
  masks : Masks
  deriving DecidableEq, Repr

namespace Wire

/-- The description of a YUV format. -/
def yuv (code : UInt32) (bitsPerPixel : Nat) : Wire :=
  ⟨code, .lsb, bitsPerPixel, 0, ⟨0, 0, 0, 0⟩⟩

/-- The description of a packed RGB format. -/
def rgb (code : UInt32) (depth : Nat) (masks : Masks) : Wire :=
  ⟨code, .lsb, 32, depth, masks⟩

/-- Check whether this describes an RGB format. -/
def isRgb (wire : Wire) : Bool :=
  wire.depth != 0

/--
Check whether a registered description answers a query.  The code decides for a
YUV format; RGB formats that share a code are told apart by order and masks.
-/
def answers (wire query : Wire) : Bool :=
  wire.code == query.code &&
    (!wire.isRgb || (wire.order == query.order && wire.masks == query.masks))

end Wire
end RawVideo

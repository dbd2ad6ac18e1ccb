import RawVideo.Fault
import RawVideo.Pixel.Component
import RawVideo.Pixel.Wire

/-!
# Pixel formats

The registry of pixel formats.  Every format has one descriptor: its names, its
chroma family, its outside description and its components in canonical order,
which is Y, U, V, A for YUV formats and R, G, B, A for RGB formats.

Lookups go through the registry in its own order and take the first match.
-/

namespace RawVideo

/-- A registered pixel format. -/
inductive Format where
  /-- Planar 4:2:0, a plane of luma and one of interleaved chroma. -/
  | nv12
  /-- Planar 4:2:0, planes Y, U, V. -/
  | i420
  /-- Planar 4:2:0, planes Y, V, U. -/
  | yv12
  /-- Luma only. -/
  | y800
  /-- Packed 4:4:4, bytes A, Y, U, V. -/
  | ayuv
  /-- Packed 4:2:2, bytes Y, U, Y, V. -/
  | yuy2
  /-- Packed 4:2:2, bytes U, Y, V, Y. -/
  | uyvy
  /-- Packed RGB, bytes x, R, G, B. -/
  | xrgb
  /-- Packed RGB, bytes x, B, G, R. -/
  | xbgr
  /-- Packed RGB, bytes R, G, B, x. -/
  | rgbx
  /-- Packed RGB, bytes B, G, R, x. -/
  | bgrx
  /-- Packed RGB, bytes A, R, G, B. -/
  | argb
  /-- Packed RGB, bytes A, B, G, R. -/
  | abgr
  /-- Packed RGB, bytes R, G, B, A. -/
  | rgba
  /-- Packed RGB, bytes B, G, R, A. -/
  | bgra
  /-- Planar 4:2:0, 10 bits a sample. -/
  | i420p10
  /-- Planar 4:2:0, 12 bits a sample. -/
  | i420p12
  /-- Planar 4:2:0, 16 bits a sample. -/
  | i420p16
  /-- Planar 4:2:2, 10 bits a sample. -/
  | i422p10
  /-- Planar 4:2:2, 12 bits a sample. -/
  | i422p12
  /-- Planar 4:2:2, 16 bits a sample. -/
  | i422p16
  /-- Planar 4:4:4, 10 bits a sample. -/
  | i444p10
  /-- Planar 4:4:4, 12 bits a sample. -/
  | i444p12
  /-- Planar 4:4:4, 16 bits a sample. -/
  | i444p16
  /-- Planar 4:2:2, planes Y, U, V. -/
  | i422
  /-- Planar 4:4:4, planes Y, U, V. -/
  | i444
  deriving DecidableEq, Repr

/-- What is known about a format. -/
structure Descriptor where
  name : String
  /-- The name that diagnostic texts use. -/
  label : String
  chroma : Chroma
  /-- The outside description. -/
  wire : Wire
  /-- The components, in canonical order. -/
  components : List Component
  deriving DecidableEq, Repr

/-!
## The registry
-/

namespace Descriptor

/-- The code of four letters. -/
def letters (c₀ c₁ c₂ c₃ : Char) : UInt32 :=
  fourCC c₀.toUInt8 c₁.toUInt8 c₂.toUInt8 c₃.toUInt8

/-- A YUV format. -/
def yuv (name label : String) (chroma : Chroma) (code : UInt32) (bitsPerPixel : Nat)
    (components : List Component) : Descriptor :=
  ⟨name, label, chroma, Wire.yuv code bitsPerPixel, components⟩

/-- A packed RGB format. -/
def rgb (name label : String) (code : UInt32) (depth : Nat) (masks : Masks)
    (components : List Component) : Descriptor :=
  ⟨name, label, .rgb, Wire.rgb code depth masks, components⟩

/-- Luma alone. -/
def luma : List Component :=
  [⟨.y, .first, 0, 1, 8⟩]

/-- Luma and interleaved chroma. -/
def biplanar : List Component :=
  [⟨.y, .first, 0, 1, 8⟩, ⟨.u, .second, 0, 2, 8⟩, ⟨.v, .second, 1, 2, 8⟩]

/-- One plane for each of Y, U, V. -/
def planar (stride depth : Nat) : List Component :=
  [⟨.y, .first, 0, stride, depth⟩, ⟨.u, .second, 0, stride, depth⟩,
    ⟨.v, .third, 0, stride, depth⟩]

/-- One plane for each of Y, V, U. -/
def swapped : List Component :=
  [⟨.y, .first, 0, 1, 8⟩, ⟨.u, .third, 0, 1, 8⟩, ⟨.v, .second, 0, 1, 8⟩]

/-- Two pixels in four bytes, with one chroma sample of each kind. -/
def packed422 (y u v : Nat) : List Component :=
  [⟨.y, .first, y, 2, 8⟩, ⟨.u, .first, u, 4, 8⟩, ⟨.v, .first, v, 4, 8⟩]

/-- A pixel in the four bytes A, Y, U, V. -/
def packedAyuv : List Component :=
  [⟨.y, .first, 1, 4, 8⟩, ⟨.u, .first, 2, 4, 8⟩, ⟨.v, .first, 3, 4, 8⟩,
    ⟨.a, .first, 0, 4, 8⟩]

/-- A pixel in three of four bytes. -/
def packedRgb (r g b : Nat) : List Component :=
  [⟨.r, .first, r, 4, 8⟩, ⟨.g, .first, g, 4, 8⟩, ⟨.b, .first, b, 4, 8⟩]

/-- A pixel in four bytes. -/
def packedRgba (r g b a : Nat) : List Component :=
  packedRgb r g b ++ [⟨.a, .first, a, 4, 8⟩]

def ofFormat : Format -> Descriptor
  | .nv12 => yuv "NV12" "Nv12" .yuv420 (letters 'N' 'V' '1' '2') 12 biplanar
  | .i420 => yuv "I420" "I420" .yuv420 (letters 'I' '4' '2' '0') 12 (planar 1 8)
  | .yv12 => yuv "YV12" "Yv12" .yuv420 (letters 'Y' 'V' '1' '2') 12 swapped
  | .y800 => yuv "Y800" "Y800" .yuv400 (letters 'Y' '8' '0' '0') 8 luma
  | .ayuv => yuv "AYUV" "Ayuv" .yuv444 (letters 'A' 'Y' 'U' 'V') 32 packedAyuv
  | .yuy2 => yuv "YUY2" "Yuy2" .yuv422 (letters 'Y' 'U' 'Y' '2') 16 (packed422 0 1 3)
  | .uyvy => yuv "UYVY" "Uyvy" .yuv422 (letters 'U' 'Y' 'V' 'Y') 16 (packed422 1 0 2)
  | .xrgb =>
      rgb "xRGB" "Xrgb" (letters 'B' 'G' 'R' 'X') 24
        ⟨0x00ff0000, 0x0000ff00, 0x000000ff, 0⟩ (packedRgb 1 2 3)
  | .xbgr =>
      rgb "xBGR" "Xbgr" (letters 'R' 'G' 'B' 'X') 24
        ⟨0x000000ff, 0x0000ff00, 0x00ff0000, 0⟩ (packedRgb 3 2 1)
  | .rgbx =>
      rgb "RGBx" "Rgbx" (letters 'X' 'B' 'G' 'R') 24
        ⟨0xff000000, 0x00ff0000, 0x0000ff00, 0⟩ (packedRgb 0 1 2)
  | .bgrx =>
      rgb "BGRx" "Bgrx" (letters 'X' 'R' 'G' 'B') 24
        ⟨0x0000ff00, 0x00ff0000, 0xff000000, 0⟩ (packedRgb 2 1 0)
  | .argb =>
      rgb "ARGB" "Argb" (letters 'B' 'G' 'R' 'A') 32
        ⟨0x00ff0000, 0x0000ff00, 0x000000ff, 0xff000000⟩ (packedRgba 1 2 3 0)
  | .abgr =>
      rgb "ABGR" "Abgr" (letters 'R' 'G' 'B' 'A') 32
        ⟨0x000000ff, 0x0000ff00, 0x00ff0000, 0xff000000⟩ (packedRgba 3 2 1 0)
  | .rgba =>
      rgb "RGBA" "Rgba" (letters 'A' 'B' 'G' 'R') 32
        ⟨0xff000000, 0x00ff0000, 0x0000ff00, 0x000000ff⟩ (packedRgba 0 1 2 3)
  | .bgra =>
      rgb "BGRA" "Bgra" (letters 'A' 'R' 'G' 'B') 32
        ⟨0x0000ff00, 0x00ff0000, 0xff000000, 0x000000ff⟩ (packedRgba 2 1 0 3)
  | .i420p10 => yuv "I420p10" "I420P10" .yuv420 (letters 'P' '0' '1' '0') 15 (planar 2 10)
  | .i420p12 => yuv "I420p12" "I420P12" .yuv420 (letters 'P' '0' '1' '2') 18 (planar 2 12)
  | .i420p16 => yuv "I420p16" "I420P16" .yuv420 (letters 'P' '0' '1' '6') 24 (planar 2 16)
  | .i422p10 => yuv "I422p10" "I422P10" .yuv422 (letters 'P' '2' '1' '0') 20 (planar 2 10)
  | .i422p12 => yuv "I422p12" "I422P12" .yuv422 (letters 'P' '2' '1' '2') 24 (planar 2 12)
  | .i422p16 => yuv "I422p16" "I422P16" .yuv422 (letters 'P' '2' '1' '6') 32 (planar 2 16)
  | .i444p10 => yuv "I444p10" "I444P10" .yuv444 (letters 'P' '4' '1' '0') 30 (planar 2 10)
  | .i444p12 => yuv "I444p12" "I444P12" .yuv444 (letters 'P' '4' '1' '2') 36 (planar 2 12)
  | .i444p16 => yuv "I444p16" "I444P16" .yuv444 (letters 'P' '4' '1' '6') 48 (planar 2 16)
  | .i422 => yuv "I422" "I422" .yuv422 (letters '4' '2' '2' 'H') 16 (planar 1 8)
  | .i444 => yuv "I444" "I444" .yuv444 (letters '4' '4' '4' 'P') 24 (planar 1 8)

end Descriptor

namespace Format

/-- Every format, in the order of the registry. -/
def all : List Format :=
  [.nv12, .i420, .yv12, .y800, .ayuv, .yuy2, .uyvy, .xrgb, .xbgr, .rgbx, .bgrx, .argb,
    .abgr, .rgba, .bgra, .i420p10, .i420p12, .i420p16, .i422p10, .i422p12, .i422p16,
    .i444p10, .i444p12, .i444p16, .i422, .i444]

/-- The 32-bit RGB format whose pixel word is native to a little-endian machine. -/
def rgb32 : Format := .bgrx

/-- The 32-bit RGB format with alpha that is native to a little-endian machine. -/
def argb32 : Format := .bgra

def descriptor (format : Format) : Descriptor :=
  Descriptor.ofFormat format

def name (format : Format) : String :=
  format.descriptor.name

def chroma (format : Format) : Chroma :=
  format.descriptor.chroma

/-- How often chroma is halved horizontally and vertically. -/
def shifts (format : Format) : Nat × Nat :=
  format.chroma.shifts

def components (format : Format) : List Component :=
  format.descriptor.components

/-- The outside description of a format. -/
def wire (format : Format) : Wire :=
  format.descriptor.wire

/-- The bit depth of the first component. -/
def depth (format : Format) : Nat :=
  (format.components.head?.map Component.depth).getD 0

/-- The number of planes. -/
def planeCount (format : Format) : Nat :=
  (format.components.map fun comp => comp.plane.val + 1).foldl max 0

def planes (format : Format) : List PlaneIndex :=
  (List.finRange 4).filter fun plane => plane.val < format.planeCount

/-- The number of a format.  Zero and one are kept for unknown and opaque data. -/
def id (format : Format) : Nat :=
  all.idxOf format + 2

/-!
## Predicates
-/

def isRgb (format : Format) : Bool :=
  format.wire.isRgb

def isYuv (format : Format) : Bool :=
  !format.isRgb

/-- Check whether the format holds luma alone. -/
def isGray (format : Format) : Bool :=
  format.chroma == .yuv400

/-- Check whether chroma is halved in some direction. -/
def isSubsampled (format : Format) : Bool :=
  format.shifts.1 > 0 || format.shifts.2 > 0

/-- Check whether the format has an alpha component. -/
def hasAlpha (format : Format) : Bool :=
  format.components.length == 4

/-!
## Lookups
-/

/-- The format with a number. -/
def ofId? (id : Nat) : Option Format :=
  all.find? fun format => format.id == id

def ofName? (name : String) : Option Format :=
  all.find? fun format => format.name == name

/-- The first format with a four-character code; zero is no code. -/
def ofCode? (code : UInt32) : Option Format :=
  if code = 0 then none else all.find? fun format => format.wire.code == code

/-- The first format whose outside description answers a query. -/
def ofWire? (query : Wire) : Option Format :=
  all.find? fun format => format.wire.answers query

/-!
## Component geometry

Chroma sizes round up, so an odd size keeps its last column and row.  Luma, the
first RGB channel and alpha always have full size.
-/

def component (format : Format) (c : Nat) : Checked Component :=
  match format.components[c]? with
  | some comp => .ok comp
  | none => .error .outOfRange

/-- How often a component is halved horizontally and vertically. -/
def componentShifts (format : Format) (c : Nat) : Checked (Nat × Nat) :=
  if c = 0 then .ok (0, 0)
  else
    match format.component c with
    | .error fault => .error fault
    | .ok comp => .ok (if comp.channel.isAlpha then (0, 0) else format.shifts)

/-- A length halved `shift` times, rounded up.  The sum has to fit 32 bits. -/
def halved (length shift : Nat) : Checked Nat :=
  match Checked.word32 (length + (1 <<< shift)) with
  | .error fault => .error fault
  | .ok sum => .ok ((sum - 1) >>> shift)

/-- The width and height of a component in an image of the given size. -/
def componentSize (format : Format) (c width height : Nat) : Checked (Nat × Nat) := do
  let (ws, hs) <- format.componentShifts c
  let w <- halved width ws
  let h <- halved height hs
  return (w, h)

end Format
end RawVideo

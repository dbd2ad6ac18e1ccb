import RawVideo.Digest.Context
import RawVideo.View.Sample

/-!
# Digests of frames

A frame is digested as its stored samples: Y, then U, then V, row by row from the
top, at true size.  Neither padding nor alpha takes part, so the layout of a
picture never shows in its digest.

A frame without chroma is digested as if neutral 4:2:0 chroma came behind its
luma, so it agrees with the same picture decoded into three planes.
-/

namespace RawVideo
namespace Context

/-- Feed the stored bytes of one sample after the other from the bytes of a row. -/
def updateSamples (context : Context) (comp : Component) (row : Span) (width : Nat)
    (memory : Memory) : Checked Context :=
  (List.range width).foldlM (fun context x => do
    let span <- row.sub (x * comp.stride) comp.bytes
    return context.update (span.load memory)) context

/-- Feed a row of a component, at once where its samples have no gaps. -/
def updateRow (context : Context) (picture : Picture) (c y : Nat) : Checked Context := do
  let comp <- picture.format.component c
  let (w, _) <- picture.view.componentSize c
  let row <- picture.view.rowSpan c y
  if comp.isContiguous then
    let span <- row.sub 0 (w * comp.bytes)
    return context.update (span.load picture.memory)
  else context.updateSamples comp row w picture.memory

/-- Feed all rows of a component. -/
def updateComponent (picture : Picture) (context : Context) (c : Nat) : Checked Context := do
  let (_, h) <- picture.view.componentSize c
  (List.range h).foldlM (fun context y => context.updateRow picture c y) context

/-- A row of neutral chroma, half as wide as the frame. -/
def neutralRow (comp : Component) (width : Nat) : List UInt8 :=
  (List.replicate ((width + 1) / 2) (toLittleEndian comp.bytes (comp.levels / 2))).flatten

/-- Feed two neutral chroma planes, half as wide and as high as the frame. -/
def updateNeutral (context : Context) (picture : Picture) : Checked Context := do
  let comp <- picture.format.component 0
  let row := neutralRow comp picture.view.width
  return (List.replicate (2 * ((picture.view.height + 1) / 2)) row).foldl update context

/-- Digest a frame.  Only YUV formats have digests. -/
def digestFrame (context : Context) (picture : Picture) : Attempt Error Context :=
  if !picture.format.isYuv then throw (.withoutDigest picture.format)
  else Attempt.ofChecked do
    let luma <- updateComponent picture context.restart 0
    let all <-
      if 1 < picture.format.components.length then [1, 2].foldlM (updateComponent picture) luma
      else luma.updateNeutral picture
    return all.finalize

end Context

/-- The hexadecimal digest of a frame. -/
def Picture.hexDigest (picture : Picture) (algorithm : Algorithm) : Attempt Error String := do
  let context <- (Context.best .full algorithm).digestFrame picture
  return context.hex

end RawVideo

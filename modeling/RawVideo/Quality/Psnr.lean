import RawVideo.Quality.Error
import RawVideo.View.Sample

/-!
# Peak signal-to-noise ratio

Two pictures of one size, chroma family and depth are compared sample by sample.
The squared differences are summed exactly; the ratio follows from their mean and
the largest sample.  Equal pictures score infinity.

All components that both formats have are compared, or luma alone.  Where just
one of the pictures has alpha, that alpha is compared with full opacity.
-/

namespace RawVideo

/-- The exact part of a comparison. -/
structure Comparison where
  /-- The sum of the squared differences. -/
  squaredError : Nat
  /-- How many samples were compared. -/
  samples : Nat
  /-- The largest sample. -/
  maxValue : Nat
  deriving DecidableEq, Repr

namespace Comparison

/-!
## The exact part
-/

/-- The square of the difference of two samples. -/
def squaredDifference (a b : Nat) : Nat :=
  (a - b) * (a - b) + (b - a) * (b - a)

/-- The sum of the squared differences in a row of `width` samples. -/
def rowError (width : Nat) (pair : Nat -> Checked (Nat × Nat)) : Checked Nat :=
  (List.range width).foldlM (fun sum x => do
    let (a, b) <- pair x
    return sum + squaredDifference a b) 0

/-- The sum of the squared differences in `height` rows. -/
def areaError (width height : Nat) (pair : Nat -> Nat -> Checked (Nat × Nat)) : Checked Nat :=
  (List.range height).foldlM (fun sum y => do
    return sum + (<- rowError width fun x => pair x y)) 0

/-- Add the samples of an area to a comparison. -/
def addArea (comparison : Comparison) (size : Nat × Nat)
    (pair : Nat -> Nat -> Checked (Nat × Nat)) : Checked Comparison := do
  let error <- areaError size.1 size.2 pair
  return { comparison with
    squaredError := comparison.squaredError + error
    samples := comparison.samples + size.1 * size.2 }

/-- Add a component of both pictures. -/
def addComponent (image reference : Picture) (comparison : Comparison) (c : Nat) :
    Checked Comparison := do
  let size <- image.view.componentSize c
  comparison.addArea size fun x y => do
    return (<- image.sample c x y, <- reference.sample c x y)

/-- Add the last component of a picture, compared with the largest sample. -/
def addOpacity (picture : Picture) (comparison : Comparison) : Checked Comparison := do
  let c := picture.format.components.length - 1
  let size <- picture.view.componentSize c
  comparison.addArea size fun x y => do
    return (<- picture.sample c x y, comparison.maxValue)

/-!
## What can be compared
-/

/-- Check that sizes and chroma families agree. -/
def checkShape (image reference : View) : Except ComparisonError Unit :=
  if image.width ≠ reference.width ∨ image.height ≠ reference.height then
    .error (.sizes image.width image.height reference.width reference.height)
  else if image.format.chroma ≠ reference.format.chroma then
    .error (.families image.format reference.format)
  else .ok ()

/-- How many components are compared. -/
def componentCount (lumaOnly : Bool) (image reference : Format) :
    Except ComparisonError Nat :=
  if lumaOnly then
    if image.isYuv then .ok 1 else .error (.metric "Y-PSNR" image)
  else .ok (min image.components.length reference.components.length)

def depthOf (format : Format) (c : Nat) : Nat :=
  (format.components[c]?.map Component.depth).getD 0

/-- Check that a component has the depth of the first one, in both pictures. -/
def checkDepth (image reference : Format) (c : Nat) : Except ComparisonError Unit :=
  if depthOf image c ≠ image.depth then
    .error (.depths image (depthOf image c) reference reference.depth)
  else if depthOf reference c ≠ reference.depth then
    .error (.depths image image.depth reference (depthOf reference c))
  else .ok ()

/-- The depth that all compared components have. -/
def commonDepth (image reference : Format) (count : Nat) : Except ComparisonError Nat := do
  ((List.range count).drop 1).forM (checkDepth image reference)
  if image.depth ≠ reference.depth then
    .error (.depths image image.depth reference reference.depth)
  else return image.depth

/-- The picture whose alpha has no counterpart. -/
def loneAlpha? (image reference : Picture) : Except ComparisonError (Option Picture) :=
  if !image.format.hasAlpha && !reference.format.hasAlpha then .ok none
  else
    match image.format.components.length, reference.format.components.length with
    | 4, 3 => .ok (some image)
    | 3, 4 => .ok (some reference)
    | 4, 4 => .ok none
    | _, _ => .error (.alphas image.format reference.format)

def compute (lumaOnly : Bool) (image reference : Picture) :
    Attempt ComparisonError Comparison := do
  Attempt.ofExcept (checkShape image.view reference.view)
  let count <- Attempt.ofExcept (componentCount lumaOnly image.format reference.format)
  let depth <- Attempt.ofExcept (commonDepth image.format reference.format count)
  let common <-
    Attempt.ofChecked
      ((List.range count).foldlM (addComponent image reference) ⟨0, 0, (1 <<< depth) - 1⟩)
  if lumaOnly then return common
  else
    match <- Attempt.ofExcept (loneAlpha? image reference) with
    | none => return common
    | some picture => Attempt.ofChecked (addOpacity picture common)

/-!
## The score
-/

def meanSquaredError (comparison : Comparison) : Float :=
  if comparison.samples = 0 then 0.0
  else comparison.squaredError.toUInt64.toFloat / comparison.samples.toUInt64.toFloat

def decibels (comparison : Comparison) : Float :=
  if comparison.squaredError = 0 then 1.0 / 0.0
  else
    20.0 * comparison.maxValue.toFloat.log10 - 10.0 * comparison.meanSquaredError.log10

/-- Check whether the ratio is above 40 dB. -/
def isExcellent (comparison : Comparison) : Bool :=
  comparison.decibels > 40.0

/-- Check whether the ratio is from 30 to 40 dB. -/
def isGood (comparison : Comparison) : Bool :=
  comparison.decibels ≥ 30.0 && comparison.decibels ≤ 40.0

/-- Check whether the ratio is from 20 up to 30 dB. -/
def isAcceptable (comparison : Comparison) : Bool :=
  comparison.decibels ≥ 20.0 && comparison.decibels < 30.0

end Comparison
end RawVideo

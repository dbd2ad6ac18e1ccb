import RawVideo.Pixel.Format
import RawVideo.Text.Quoted

/-!
# Comparison errors

Why two pictures cannot be compared.
-/

namespace RawVideo

/-- Why a comparison has no result. -/
inductive ComparisonError where
  /-- The pictures differ in size. -/
  | sizes (width height referenceWidth referenceHeight : Nat)
  /-- The pictures differ in chroma family. -/
  | families (image reference : Format)
  /-- Compared components differ in depth. -/
  | depths (image : Format) (depth : Nat) (reference : Format) (referenceDepth : Nat)
  /-- The alpha channels cannot be paired. -/
  | alphas (image reference : Format)
  /-- The metric is not defined for the format. -/
  | metric (name : String) (format : Format)
  /-- There is no metric with this name. -/
  | unknownMetric (name : String)
  deriving DecidableEq, Repr

namespace ComparisonError

def message : ComparisonError -> String
  | .sizes width height referenceWidth referenceHeight =>
      s!"Dimension mismatch: image {width}x{height}, " ++
        s!"reference {referenceWidth}x{referenceHeight}"
  | .families image reference =>
      s!"Chroma mismatch: image {image.name}, reference {reference.name}"
  | .depths image depth reference referenceDepth =>
      s!"Bit depth mismatch: image {image.name} ({depth} bits), " ++
        s!"reference {reference.name} ({referenceDepth} bits)"
  | .alphas image reference =>
      s!"Alpha mismatch: image {image.name}, reference {reference.name}"
  | .metric name format => s!"Metric {name} is not supported for {format.name}"
  | .unknownMetric name => "Unknown quality metric: " ++ Quoted.quote name

end ComparisonError
end RawVideo

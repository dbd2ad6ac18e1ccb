import RawVideo.Proofs.Conversion.Fields

/-!
# Conversions into a rectangle

A conversion into a rectangle of a picture writes rows of the rectangle.  Their visible
bytes are those of the samples of the rectangle, with two exceptions: a packed row of odd
width ends with chroma for one more luma sample, and the bottom field of a rectangle with
an odd number of chroma rows has the row below them.  All other samples stay.
-/

namespace RawVideo

/-- A line of a picture that a conversion takes, as part of the frame or of a field. -/
def ConversionFlags.Takes (flags : ConversionFlags) (line : Nat) : Prop :=
  flags.fields = [] ∨ exists field k, field ∈ flags.fields ∧ line = field.line k

/-!
## Samples of a rectangle
-/

namespace Rect

variable {rect : Rect} {format : Format} {c x y : Nat}

/-- A column of a component that a rectangle has. -/
def HasColumn (rect : Rect) (format : Format) (c x : Nat) : Prop :=
  rect.x >>> (format.shiftsOf c).1 ≤ x ∧
    x < (rect.x >>> (format.shiftsOf c).1) + format.columns c rect.width

/-- A line of a component that a rectangle has. -/
def HasLine (rect : Rect) (format : Format) (c y : Nat) : Prop :=
  rect.y >>> (format.shiftsOf c).2 ≤ y ∧
    y < (rect.y >>> (format.shiftsOf c).2) + format.lines c rect.height

/-- A sample of a rectangle. -/
def Holds (rect : Rect) (format : Format) (c x y : Nat) : Prop :=
  rect.HasColumn format c x ∧ rect.HasLine format c y

end Rect

namespace Conversion

variable {parent sub : View} {rect : Rect} {flags : ConversionFlags} {comp other : Component}
variable {c d x x' y k i size : Nat}

end Conversion

namespace Converter

open Conversion

variable {target parent sub : View} {source : Picture} {rect : Rect} {flags : ConversionFlags}
variable {job done : Job} {outcome : Except Error Unit}

end Converter
end RawVideo

/-!
# Regions of a picture

The two ways to take a part of a picture: a rectangle of it, or the lines of one
field of an interlaced frame.
-/

namespace RawVideo

/-- A rectangle, in luma pixels. -/
structure Rect where
  x : Nat
  y : Nat
  width : Nat
  height : Nat
  deriving DecidableEq, Repr

/-- The text of a rectangle in messages. -/
def Rect.describe (rect : Rect) : String :=
  "Rect \x7b " ++ s!"x: {rect.x}, y: {rect.y}, width: {rect.width}, height: {rect.height}" ++
    " \x7d"

/-- One field of an interlaced frame. -/
inductive Field where
  /-- The even lines. -/
  | top
  /-- The odd lines. -/
  | bottom
  deriving DecidableEq, Repr

namespace Field

def name : Field -> String
  | .top => "Top"
  | .bottom => "Bottom"

/-- The line of a frame that holds line `y` of a field. -/
def line (field : Field) (y : Nat) : Nat :=
  match field with
  | .top => 2 * y
  | .bottom => 2 * y + 1

end Field

/-- A step from a picture to a part of it. -/
inductive Step where
  /-- Take a rectangle. -/
  | crop (rect : Rect)
  | field (field : Field)
  deriving DecidableEq, Repr

end RawVideo

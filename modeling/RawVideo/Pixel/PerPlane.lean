/-!
# Values by plane

No format has more than four planes, so what is known about the planes of a
picture is kept as four values.  Planes that a format does not have carry a
neutral value.
-/

namespace RawVideo

/-- The number of a plane. -/
abbrev PlaneIndex := Fin 4

namespace PlaneIndex

def first : PlaneIndex := 0

def second : PlaneIndex := 1

def third : PlaneIndex := 2

def fourth : PlaneIndex := 3

end PlaneIndex

/-- A value for each of four planes. -/
abbrev PerPlane (α : Type) := Vector α 4

namespace PerPlane

variable {α : Type}

def get (values : PerPlane α) (p : PlaneIndex) : α :=
  getElem values p.val p.isLt

def set (values : PerPlane α) (p : PlaneIndex) (value : α) : PerPlane α :=
  Vector.set values p.val value p.isLt

/-- The same value for all planes. -/
def all (value : α) : PerPlane α :=
  Vector.replicate 4 value

/-- A value computed for each plane. -/
def ofFn (f : PlaneIndex -> α) : PerPlane α :=
  Vector.ofFn f

/-- A value computed for each plane, the first failure ending the computation. -/
def ofFnM {ε : Type} (f : PlaneIndex -> Except ε α) : Except ε (PerPlane α) := do
  let p0 <- f .first
  let p1 <- f .second
  let p2 <- f .third
  let p3 <- f .fourth
  return #v[p0, p1, p2, p3]

@[simp] theorem get_set (values : PerPlane α) (p q : PlaneIndex) (value : α) :
    (values.set p value).get q = if p = q then value else values.get q := by
  simp only [get, set, Vector.getElem_set, Fin.ext_iff]

@[simp] theorem get_all (value : α) (p : PlaneIndex) : (all value).get p = value := by
  simp [get, all]

@[simp] theorem get_ofFn (f : PlaneIndex -> α) (p : PlaneIndex) : (ofFn f).get p = f p := by
  simp [get, ofFn]

end PerPlane
end RawVideo

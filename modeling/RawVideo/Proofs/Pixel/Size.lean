import RawVideo.Proofs.Pixel.Registry

/-!
# Component sizes

Chroma sizes as plain numbers.  A size is answered exactly where the sums behind
it fit their machine word, and two formats of one chroma family with equally many
components agree on all sizes.
-/

namespace RawVideo

/-- A length halved `shift` times, rounded up. -/
def shrunk (length shift : Nat) : Nat :=
  (length + (1 <<< shift) - 1) >>> shift

theorem shrunk_zero (length : Nat) : shrunk length 0 = length := by
  simp [shrunk]

theorem shrunk_one (length : Nat) : shrunk length 1 = (length + 1) / 2 := by
  simp [shrunk, Nat.shiftRight_eq_div_pow]

theorem shrunk_le (length : Nat) {shift : Nat} (h : shift ≤ 1) : shrunk length shift ≤ length := by
  rcases Nat.le_one_iff_eq_zero_or_eq_one.mp h with rfl | rfl
  · exact Nat.le_of_eq (shrunk_zero length)
  · rw [shrunk_one]
    omega

theorem shrunk_pos {length shift : Nat} (h : shift ≤ 1) (hpos : 0 < length) :
    0 < shrunk length shift := by
  rcases Nat.le_one_iff_eq_zero_or_eq_one.mp h with rfl | rfl
  · rw [shrunk_zero]
    exact hpos
  · rw [shrunk_one]
    omega

theorem shrunk_mono {length other : Nat} (h : length ≤ other) (shift : Nat) :
    shrunk length shift ≤ shrunk other shift := by
  unfold shrunk
  rw [Nat.shiftRight_eq_div_pow, Nat.shiftRight_eq_div_pow]
  exact Nat.div_le_div_right (Nat.sub_le_sub_right (Nat.add_le_add_right h _) 1)

/-- Nothing is rounded where a length can be halved twice. -/
theorem two_mul_shrunk_half {length shift : Nat} (h : shift ≤ 1) (hlength : 4 ∣ length) :
    2 * shrunk (length / 2) shift = shrunk length shift := by
  rcases Nat.le_one_iff_eq_zero_or_eq_one.mp h with rfl | rfl
  · rw [shrunk_zero, shrunk_zero]
    omega
  · rw [shrunk_one, shrunk_one]
    omega

/-- A part that starts on the grid ends with the whole at the latest. -/
theorem shift_add_shrunk_le {start length whole shift : Nat} (h : shift ≤ 1)
    (hgrid : start % (1 <<< shift) = 0) (hle : start + length ≤ whole) :
    start >>> shift + shrunk length shift ≤ shrunk whole shift := by
  rcases Nat.le_one_iff_eq_zero_or_eq_one.mp h with rfl | rfl
  · rw [shrunk_zero, shrunk_zero]
    exact hle
  · rw [shrunk_one, shrunk_one, Nat.shiftRight_succ, Nat.shiftRight_zero]
    have hmod : start % 2 = 0 := hgrid
    omega

namespace Format

variable {format : Format} {comp : Component} {c : Nat}

/-!
## Sizes without the machine word
-/

/-- How often the component with an index is halved horizontally and vertically. -/
def shiftsOf (format : Format) (c : Nat) : Nat × Nat :=
  if c = 0 ∨ c = 3 then (0, 0) else format.shifts

/-- The samples of a row of a component. -/
def columns (format : Format) (c width : Nat) : Nat :=
  shrunk width (format.shiftsOf c).1

/-- The rows of a component. -/
def lines (format : Format) (c height : Nat) : Nat :=
  shrunk height (format.shiftsOf c).2

theorem shiftsOf_le_one (format : Format) (c : Nat) :
    (format.shiftsOf c).1 ≤ 1 ∧ (format.shiftsOf c).2 ≤ 1 := by
  unfold shiftsOf
  split
  · exact ⟨Nat.zero_le 1, Nat.zero_le 1⟩
  · exact format.shifts_le_one

theorem lines_le (format : Format) (c height : Nat) : format.lines c height ≤ height :=
  shrunk_le height (format.shiftsOf_le_one c).right

theorem columns_pos (format : Format) (c : Nat) {width : Nat} (h : 0 < width) :
    0 < format.columns c width :=
  shrunk_pos (format.shiftsOf_le_one c).left h

theorem lines_pos (format : Format) (c : Nat) {height : Nat} (h : 0 < height) :
    0 < format.lines c height :=
  shrunk_pos (format.shiftsOf_le_one c).right h

/--
Components on one plane have the same rows, and columns of the same stride, but for
packed chroma: there luma takes half of the bytes of a halved sample.
-/
theorem shifts_of_plane {other : Component} {d : Nat} (hcomp : format.component c = .ok comp)
    (hother : format.component d = .ok other) (hplane : other.plane = comp.plane) :
    (format.shiftsOf c).2 = (format.shiftsOf d).2 ∧
      (((format.shiftsOf c).1 = (format.shiftsOf d).1 ∧ comp.stride = other.stride) ∨
        ((format.shiftsOf c).1 = 1 ∧ (format.shiftsOf d).1 = 0 ∧
          comp.stride = 2 * other.stride) ∨
        ((format.shiftsOf c).1 = 0 ∧ (format.shiftsOf d).1 = 1 ∧
          other.stride = 2 * comp.stride ∧ c = 0 ∧ format ∈ [Format.yuy2, Format.uyvy])) := by
  have hpair : forall format, format ∈ all -> forall entry, entry ∈ format.components.zipIdx ->
      forall second, second ∈ format.components.zipIdx -> second.1.plane = entry.1.plane ->
        (format.shiftsOf entry.2).2 = (format.shiftsOf second.2).2 ∧
          (((format.shiftsOf entry.2).1 = (format.shiftsOf second.2).1 ∧
              entry.1.stride = second.1.stride) ∨
            ((format.shiftsOf entry.2).1 = 1 ∧ (format.shiftsOf second.2).1 = 0 ∧
              entry.1.stride = 2 * second.1.stride) ∨
            ((format.shiftsOf entry.2).1 = 0 ∧ (format.shiftsOf second.2).1 = 1 ∧
              second.1.stride = 2 * entry.1.stride ∧ entry.2 = 0 ∧
              format ∈ [Format.yuy2, Format.uyvy])) := by
    decide +kernel
  exact hpair format (mem_all format) (comp, c) (mem_zipIdx_components.mpr hcomp) (other, d)
    (mem_zipIdx_components.mpr hother) hplane

theorem lines_eq_of_plane {other : Component} {d : Nat} (hcomp : format.component c = .ok comp)
    (hother : format.component d = .ok other) (hplane : comp.plane = other.plane)
    (height : Nat) : format.lines c height = format.lines d height := by
  unfold lines
  rw [(shifts_of_plane hother hcomp hplane).left]

theorem shiftsOf_zero (format : Format) : format.shiftsOf 0 = (0, 0) := by
  unfold shiftsOf
  exact if_pos (Or.inl rfl)

theorem shiftsOf_congr {other : Format} (h : format.chroma = other.chroma) (c : Nat) :
    format.shiftsOf c = other.shiftsOf c := by
  unfold shiftsOf shifts
  rw [h]

/-!
## Answered sizes
-/

theorem componentShifts_eq (hcomp : format.component c = .ok comp) :
    format.componentShifts c = .ok (format.shiftsOf c) := by
  unfold componentShifts shiftsOf
  by_cases hzero : c = 0
  · rw [if_pos hzero, if_pos (Or.inl hzero)]
  · rw [if_neg hzero, hcomp]
    by_cases hthree : c = 3
    · rw [if_pos (Or.inr hthree)]
      show Except.ok (if comp.channel.isAlpha = true then _ else _) = _
      rw [if_pos ((isAlpha_iff hcomp).mpr hthree)]
    · rw [if_neg (not_or.mpr ⟨hzero, hthree⟩)]
      show Except.ok (if comp.channel.isAlpha = true then _ else _) = _
      rw [if_neg fun halpha => hthree ((isAlpha_iff hcomp).mp halpha)]

theorem halved_eq_ok {length shift n : Nat} :
    halved length shift = .ok n ↔
      length + (1 <<< shift) < UInt32.size ∧ n = shrunk length shift := by
  unfold halved Checked.word32 shrunk
  by_cases hlt : length + (1 <<< shift) < UInt32.size
  · rw [if_pos hlt]
    constructor
    · intro h
      cases h
      exact ⟨hlt, rfl⟩
    · intro h'
      rcases h' with ⟨_, rfl⟩
      rfl
  · rw [if_neg hlt]
    constructor
    · intro h
      cases h
    · intro h
      exact absurd h.left hlt

theorem componentSize_eq_ok {width height : Nat} {size : Nat × Nat}
    (hcomp : format.component c = .ok comp) :
    format.componentSize c width height = .ok size ↔
      width + (1 <<< (format.shiftsOf c).1) < UInt32.size ∧
        height + (1 <<< (format.shiftsOf c).2) < UInt32.size ∧
        size = (format.columns c width, format.lines c height) := by
  unfold componentSize
  rw [componentShifts_eq hcomp, Checked.ok_bind]
  simp only [Checked.bind_eq_ok, halved_eq_ok]
  constructor
  · intro h
    rcases h with ⟨w, ⟨hwidth, rfl⟩, h, ⟨hheight, rfl⟩, hsize⟩
    cases hsize
    exact ⟨hwidth, hheight, rfl⟩
  · intro h
    rcases h with ⟨hwidth, hheight, rfl⟩
    exact ⟨_, ⟨hwidth, rfl⟩, _, ⟨hheight, rfl⟩, rfl⟩

theorem componentSize_of_lt {width height : Nat} (hcomp : format.component c = .ok comp)
    (hwidth : width + 2 < UInt32.size) (hheight : height + 2 < UInt32.size) :
    format.componentSize c width height =
      .ok (format.columns c width, format.lines c height) := by
  have hunit : forall {shift : Nat}, shift ≤ 1 -> 1 <<< shift ≤ 2 := by
    intro shift hshift
    rcases Nat.le_one_iff_eq_zero_or_eq_one.mp hshift with rfl | rfl <;> decide
  have hws := hunit (format.shiftsOf_le_one c).left
  have hhs := hunit (format.shiftsOf_le_one c).right
  exact (componentSize_eq_ok hcomp).mpr ⟨by omega, by omega, rfl⟩

/-!
## Formats with the same components
-/

/-- Two formats of one chroma family with the same components at the same depth. -/
structure Alike (format other : Format) : Prop where
  chroma : format.chroma = other.chroma
  components : format.components.length = other.components.length
  depth : format.depth = other.depth

theorem Alike.refl (format : Format) : format.Alike format :=
  ⟨rfl, rfl, rfl⟩

theorem Alike.symm {other : Format} (h : format.Alike other) : other.Alike format :=
  ⟨h.chroma.symm, h.components.symm, h.depth.symm⟩

theorem Alike.trans {other third : Format} (h : format.Alike other) (h' : other.Alike third) :
    format.Alike third :=
  ⟨h.chroma.trans h'.chroma, h.components.trans h'.components, h.depth.trans h'.depth⟩

theorem Alike.columns_eq {other : Format} (h : format.Alike other) (c width : Nat) :
    format.columns c width = other.columns c width := by
  unfold columns
  rw [shiftsOf_congr h.chroma]

theorem Alike.lines_eq {other : Format} (h : format.Alike other) (c height : Nat) :
    format.lines c height = other.lines c height := by
  unfold lines
  rw [shiftsOf_congr h.chroma]

theorem Alike.depth_eq {other : Format} {second : Component} (h : format.Alike other)
    (hcomp : format.component c = .ok comp) (hsecond : other.component c = .ok second) :
    comp.depth = second.depth := by
  rw [Format.depth_eq hcomp, Format.depth_eq hsecond, h.depth]

theorem Alike.bytes_eq {other : Format} {second : Component} (h : format.Alike other)
    (hcomp : format.component c = .ok comp) (hsecond : other.component c = .ok second) :
    comp.bytes = second.bytes :=
  Component.bytes_eq_of_depth_eq (h.depth_eq hcomp hsecond)

theorem Alike.exists_component {other : Format} (h : format.Alike other)
    (hcomp : format.component c = .ok comp) : exists second, other.component c = .ok second :=
  Format.exists_component (h.components ▸ lt_of_component hcomp)

end Format
end RawVideo

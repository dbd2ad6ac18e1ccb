import RawVideo.Proofs.Outcome
import RawVideo.Pixel.Format

/-!
# The registry of formats

What all registered formats have in common.  A sample lies between the offset of
its component and the next sample, the components of a format have one depth,
alpha is always the fourth of them, and two components on one plane never meet.
-/

namespace RawVideo

/-!
## Components
-/

namespace Component

theorem bytes_pos (comp : Component) : 0 < comp.bytes := by
  unfold bytes
  split <;> decide

theorem bytes_eq_of_depth_eq {comp other : Component} (h : comp.depth = other.depth) :
    comp.bytes = other.bytes := by
  unfold bytes
  rw [h]

theorem bytes_of_depth_eight {comp : Component} (h : comp.depth = 8) : comp.bytes = 1 := by
  unfold bytes
  rw [h]
  rfl

theorem levels_of_depth_eight {comp : Component} (h : comp.depth = 8) : comp.levels = 256 := by
  unfold levels
  rw [h]
  rfl

theorem levels_pos (comp : Component) : 0 < comp.levels := by
  unfold levels
  rw [Nat.one_shiftLeft]
  exact Nat.two_pow_pos comp.depth

theorem isContiguous_iff {comp : Component} :
    comp.isContiguous = true ↔ comp.stride = comp.bytes := by
  unfold isContiguous
  exact beq_iff_eq

end Component

/-!
## Looking components up
-/

namespace Format

variable {format : Format} {comp : Component} {c : Nat}

theorem component_eq_ok : format.component c = .ok comp ↔ format.components[c]? = some comp := by
  unfold component
  cases format.components[c]? with
  | none =>
      constructor
      · intro h
        cases h
      · intro h
        cases h
  | some other =>
      constructor
      · intro h
        cases h
        rfl
      · intro h
        cases h
        rfl

theorem mem_zipIdx_components :
    (comp, c) ∈ format.components.zipIdx ↔ format.component c = .ok comp := by
  rw [component_eq_ok]
  exact List.mk_mem_zipIdx_iff_getElem?

theorem lt_of_component (h : format.component c = .ok comp) : c < format.components.length := by
  rcases List.getElem?_eq_some_iff.mp (component_eq_ok.mp h) with ⟨hlt, _⟩
  exact hlt

theorem exists_component (h : c < format.components.length) :
    exists comp, format.component c = .ok comp :=
  ⟨format.components[c], component_eq_ok.mpr (List.getElem?_eq_getElem h)⟩

theorem mem_planes {p : PlaneIndex} : p ∈ format.planes ↔ p.val < format.planeCount := by
  simp [planes]

/-!
## Facts about every component

Each fact is checked for the components of every registered format.
-/

theorem mem_all (format : Format) : format ∈ all := by
  cases format <;> decide

/-- What holds for every entry of the registry holds for every component. -/
theorem forall_component {P : Format -> Component -> Nat -> Prop}
    (h : forall format, format ∈ all -> forall entry, entry ∈ format.components.zipIdx ->
      P format entry.1 entry.2)
    (hcomp : format.component c = .ok comp) : P format comp c :=
  h format (mem_all format) (comp, c) (mem_zipIdx_components.mpr hcomp)

theorem components_length_pos (format : Format) : 0 < format.components.length := by
  cases format <;> decide

theorem shifts_le_one (format : Format) : format.shifts.1 ≤ 1 ∧ format.shifts.2 ≤ 1 := by
  cases format <;> decide

theorem depth_le (format : Format) : format.depth ≤ 16 := by
  cases format <;> decide

theorem isYuv_iff (format : Format) : format.isYuv = true ↔ format.chroma ≠ .rgb := by
  cases format <;> decide

/-- What the registry keeps for the component with an index. -/
structure Registered (format : Format) (comp : Component) (c : Nat) : Prop where
  fits : comp.offset + comp.bytes ≤ comp.stride
  placed : comp.plane ∈ format.planes
  depth : comp.depth = format.depth
  alpha : comp.channel.isAlpha = true ↔ c = 3
  gapless : comp.isContiguous = true ∨ comp.depth = 8

instance (format : Format) (comp : Component) (c : Nat) :
    Decidable (Registered format comp c) :=
  decidable_of_iff
    (comp.offset + comp.bytes ≤ comp.stride ∧ comp.plane ∈ format.planes ∧
      comp.depth = format.depth ∧ (comp.channel.isAlpha = true ↔ c = 3) ∧
      (comp.isContiguous = true ∨ comp.depth = 8))
    ⟨fun ⟨fits, placed, depth, alpha, gapless⟩ => ⟨fits, placed, depth, alpha, gapless⟩,
      fun ⟨fits, placed, depth, alpha, gapless⟩ => ⟨fits, placed, depth, alpha, gapless⟩⟩

theorem registered (h : format.component c = .ok comp) : Registered format comp c :=
  forall_component (P := Registered) (by decide +kernel) h

theorem exists_component_on {p : PlaneIndex} (h : p ∈ format.planes) :
    exists c comp, format.component c = .ok comp ∧ comp.plane = p := by
  have hentry : forall format, format ∈ all -> forall p, p ∈ format.planes ->
      exists entry, entry ∈ format.components.zipIdx ∧ entry.1.plane = p := by
    decide +kernel
  rcases hentry format (mem_all format) p h with ⟨⟨comp, c⟩, hmem, hplane⟩
  exact ⟨c, comp, mem_zipIdx_components.mp hmem, hplane⟩

theorem offset_add_bytes_le (h : format.component c = .ok comp) :
    comp.offset + comp.bytes ≤ comp.stride :=
  (registered h).fits

theorem bytes_le_stride (h : format.component c = .ok comp) : comp.bytes ≤ comp.stride :=
  Nat.le_of_add_left_le (offset_add_bytes_le h)

theorem stride_pos (h : format.component c = .ok comp) : 0 < comp.stride :=
  Nat.lt_of_lt_of_le comp.bytes_pos (bytes_le_stride h)

theorem stride_le (h : format.component c = .ok comp) : comp.stride ≤ 8 :=
  forall_component (P := fun _ comp _ => comp.stride ≤ 8) (by decide +kernel) h

theorem plane_mem_planes (h : format.component c = .ok comp) : comp.plane ∈ format.planes :=
  (registered h).placed

theorem depth_eq (h : format.component c = .ok comp) : comp.depth = format.depth :=
  (registered h).depth

theorem isAlpha_iff (h : format.component c = .ok comp) :
    comp.channel.isAlpha = true ↔ c = 3 :=
  (registered h).alpha

theorem isContiguous_or_depth_eight (h : format.component c = .ok comp) :
    comp.isContiguous = true ∨ comp.depth = 8 :=
  (registered h).gapless

/-- Two components on one plane have samples of one byte on different residues. -/
theorem offsets_apart {other : Component} {d : Nat} (h : format.component c = .ok comp)
    (hother : format.component d = .ok other) (hne : c ≠ d) (hplane : comp.plane = other.plane) :
    comp.bytes = 1 ∧ other.bytes = 1 ∧
      comp.offset % comp.stride.gcd other.stride ≠
        other.offset % comp.stride.gcd other.stride := by
  have hpair : forall format, format ∈ all -> forall entry, entry ∈ format.components.zipIdx ->
      forall second, second ∈ format.components.zipIdx -> entry.2 ≠ second.2 ->
        entry.1.plane = second.1.plane -> entry.1.bytes = 1 ∧ second.1.bytes = 1 ∧
          entry.1.offset % entry.1.stride.gcd second.1.stride ≠
            second.1.offset % entry.1.stride.gcd second.1.stride := by
    decide +kernel
  exact hpair format (mem_all format) (comp, c) (mem_zipIdx_components.mpr h) (other, d)
    (mem_zipIdx_components.mpr hother) hne hplane

/-!
## Formats of one chroma family

The components of two formats of one family stand for the same channels, in order, as far
as both formats have them.
-/

/-- What holds for any two entries of the registry holds for any two formats. -/
theorem forall_pair {P : Format -> Format -> Prop}
    (h : forall format, format ∈ all -> forall other, other ∈ all -> P format other)
    (format other : Format) : P format other :=
  h format (mem_all format) other (mem_all other)

theorem isYuv_congr {other : Format} (h : format.chroma = other.chroma) :
    format.isYuv = other.isYuv := by
  rw [Bool.eq_iff_iff, isYuv_iff, isYuv_iff, h]

theorem registered_pair : forall format other : Format, format.chroma = other.chroma ->
    (format.hasAlpha = true -> other.components.length = if other.hasAlpha then 4 else 3) ∧
      forall entry, entry ∈ format.components.zipIdx -> forall second,
        second ∈ other.components.zipIdx ->
          (entry.1.channel = second.1.channel ↔ entry.2 = second.2) :=
  forall_pair (by decide +kernel)

theorem length_of_hasAlpha {other : Format} (h : format.chroma = other.chroma)
    (halpha : format.hasAlpha = true) :
    other.components.length = if other.hasAlpha then 4 else 3 :=
  (registered_pair format other h).left halpha

theorem channel_eq_iff {other : Format} {second : Component} {d : Nat}
    (h : format.chroma = other.chroma) (hcomp : format.component c = .ok comp)
    (hsecond : other.component d = .ok second) : comp.channel = second.channel ↔ c = d :=
  (registered_pair format other h).right (comp, c) (mem_zipIdx_components.mpr hcomp) (second, d)
    (mem_zipIdx_components.mpr hsecond)

end Format
end RawVideo

import RawVideo.Proofs.Memory.Painted
import RawVideo.Proofs.View.Derived

/-!
# Separate samples

No two visible samples of a covered view share a byte, when its planes lie apart.
So a picture is given by its content, the bytes of each sample, and a memory painted
with a content holds it sample by sample.
-/

namespace RawVideo

theorem mul_add_inj {n a b x y : Nat} (ha : a < n) (hb : b < n)
    (h : x * n + a = y * n + b) : x = y ∧ a = b := by
  have hpos : 0 < n := Nat.lt_of_le_of_lt (Nat.zero_le a) ha
  have hmod := congrArg (· % n) h
  have hdiv := congrArg (· / n) h
  simp only [Nat.mul_add_mod_self_right, Nat.mod_eq_of_lt ha, Nat.mod_eq_of_lt hb] at hmod
  simp only [Nat.add_comm (_ * n), Nat.add_mul_div_right _ _ hpos, Nat.div_eq_of_lt ha,
    Nat.div_eq_of_lt hb, Nat.zero_add] at hdiv
  exact ⟨hdiv, hmod⟩

namespace View

variable {view : View} {comp other : Component} {c d x y x' y' i j size : Nat}

/-!
## Addresses
-/

theorem Covered.offset_lt_pitch (h : view.Covered) (hcomp : view.format.component c = .ok comp)
    (hx : x < view.columns c) (hi : i < comp.bytes) :
    x * comp.stride + comp.offset + i < (view.planes.get comp.plane).pitch := by
  have hrow := Component.sample_le_row (Format.offset_add_bytes_le hcomp) hx
  have hpitch := h.row_le_pitch hcomp
  omega

theorem Covered.address_within (h : view.Covered) (hcomp : view.format.component c = .ok comp)
    (hx : x < view.columns c) (hy : y < view.lines c) (hi : i < comp.bytes) :
    (view.planes.get comp.plane).start ≤ view.address comp x y + i ∧
      view.address comp x y + i < (view.planes.get comp.plane).stop := by
  have hposition := h.position_le hcomp hx hy
  unfold address Span.stop
  omega

/-- In a row, the sample and the component are read off an offset. -/
theorem offset_inj (hcomp : view.format.component c = .ok comp)
    (hother : view.format.component d = .ok other) (hplane : comp.plane = other.plane)
    (hi : i < comp.bytes) (hj : j < other.bytes)
    (heq : x * comp.stride + comp.offset + i = x' * other.stride + other.offset + j) :
    c = d ∧ x = x' ∧ i = j := by
  by_cases hcd : c = d
  · subst hcd
    rw [hcomp] at hother
    cases hother
    have hbytes := Format.bytes_le_stride hcomp
    have hinj := mul_add_inj (n := comp.stride) (a := i) (b := j) (x := x) (y := x')
      (by omega) (by omega) (by omega)
    exact ⟨rfl, hinj⟩
  · rcases Format.offsets_apart hcomp hother hcd hplane with ⟨hone, hone', hmod⟩
    have hsum : x * comp.stride + comp.offset = x' * other.stride + other.offset := by omega
    have hdvd := Nat.dvd_mul_left_of_dvd (Nat.gcd_dvd_left comp.stride other.stride) x
    have hdvd' := Nat.dvd_mul_left_of_dvd (Nat.gcd_dvd_right comp.stride other.stride) x'
    have hrest := congrArg (· % comp.stride.gcd other.stride) hsum
    simp only [Nat.add_mod _ comp.offset, Nat.add_mod _ other.offset,
      Nat.mod_eq_zero_of_dvd hdvd, Nat.mod_eq_zero_of_dvd hdvd', Nat.zero_add,
      Nat.mod_mod] at hrest
    exact (hmod hrest).elim

/-- A visible byte belongs to a single sample. -/
theorem Covered.address_inj (h : view.Covered) (hwritable : view.Writable size)
    (hcomp : view.format.component c = .ok comp) (hother : view.format.component d = .ok other)
    (hx : x < view.columns c) (hy : y < view.lines c) (hi : i < comp.bytes)
    (hx' : x' < view.columns d) (hy' : y' < view.lines d) (hj : j < other.bytes)
    (heq : view.address comp x y + i = view.address other x' y' + j) :
    c = d ∧ x = x' ∧ y = y' ∧ i = j := by
  have hwithin := h.address_within hcomp hx hy hi
  have hwithin' := h.address_within hother hx' hy' hj
  by_cases hplane : comp.plane = other.plane
  -- On one plane the pitch separates the rows, and the stride the samples of a row.
  · have hlt := h.offset_lt_pitch hcomp hx hi
    have hlt' := h.offset_lt_pitch hother hx' hj
    unfold address Component.position at heq
    rw [hplane] at heq hlt
    have hrows := mul_add_inj (n := (view.planes.get other.plane).pitch) (x := y) (y := y')
      hlt hlt' (by omega)
    have hsamples := offset_inj hcomp hother hplane hi hj hrows.right
    exact ⟨hsamples.left, hsamples.right.left, hrows.left, hsamples.right.right⟩
  · rcases hwritable.apart comp.plane other.plane (Format.plane_mem_planes hcomp)
      (Format.plane_mem_planes hother) hplane with hle | hle <;> omega

/-!
## Contents
-/

/-- A byte of a sample, zero where the format has no such component. -/
def content (view : View) (memory : Memory) (c x y i : Nat) : UInt8 :=
  match view.format.component c with
  | .ok comp => memory.byte (view.address comp x y + i)
  | .error _ => 0

/-- The ink that draws a content on the visible samples of a view. -/
def ink (view : View) (content : Nat -> Nat -> Nat -> Nat -> UInt8) : Ink := fun address b =>
  exists c comp x y i, view.format.component c = .ok comp ∧ x < view.columns c ∧
    y < view.lines c ∧ i < comp.bytes ∧ address = view.address comp x y + i ∧
    b = content c x y i

/-- The part of the ink that lies on one row. -/
def lineInk (view : View) (content : Nat -> Nat -> Nat -> Nat -> UInt8) (c y : Nat) : Ink :=
  fun address b => exists comp x i, view.format.component c = .ok comp ∧ x < view.columns c ∧
    i < comp.bytes ∧ address = view.address comp x y + i ∧ b = content c x y i

theorem ink_iff_line {content : Nat -> Nat -> Nat -> Nat -> UInt8} {address : Nat} {b : UInt8} :
    view.ink content address b ↔
      exists c y, y < view.lines c ∧ view.lineInk content c y address b := by
  constructor
  · intro hdrawn
    rcases hdrawn with ⟨c, comp, x, y, i, hcomp, hx, hy, hi, haddress, hb⟩
    exact ⟨c, y, hy, comp, x, i, hcomp, hx, hi, haddress, hb⟩
  · intro hdrawn
    rcases hdrawn with ⟨c, y, hy, comp, x, i, hcomp, hx, hi, haddress, hb⟩
    exact ⟨c, comp, x, y, i, hcomp, hx, hy, hi, haddress, hb⟩

theorem content_eq (hcomp : view.format.component c = .ok comp) (memory : Memory) :
    view.content memory c x y i = memory.byte (view.address comp x y + i) := by
  unfold content
  rw [hcomp]

theorem Covered.stored_eq (h : view.Covered) (hcomp : view.format.component c = .ok comp)
    (hx : x < view.columns c) (hy : y < view.lines c) (memory : Memory) :
    view.stored memory c x y =
      .ok ((List.range comp.bytes).map (view.content memory c x y)) := by
  rw [h.stored hcomp hx hy]
  unfold Memory.read
  refine congrArg Except.ok (List.map_congr_left fun i _ => ?_)
  exact (content_eq hcomp memory).symm

theorem Covered.ink_functional {content : Nat -> Nat -> Nat -> Nat -> UInt8} (h : view.Covered)
    (hwritable : view.Writable size) : (view.ink content).Functional := by
  intro address b b' hb hb'
  rcases hb with ⟨c, comp, x, y, i, hcomp, hx, hy, hi, haddress, rfl⟩
  rcases hb' with ⟨d, other, x', y', j, hother, hx', hy', hj, haddress', rfl⟩
  rcases h.address_inj hwritable hcomp hother hx hy hi hx' hy' hj
    (haddress.symm.trans haddress') with ⟨rfl, rfl, rfl, rfl⟩
  rfl

theorem Covered.content_of_painted {content : Nat -> Nat -> Nat -> Nat -> UInt8}
    {before after : Memory} (h : view.Covered) (hwritable : view.Writable before.size)
    (hpainted : Painted (view.ink content) before after)
    (hcomp : view.format.component c = .ok comp) (hx : x < view.columns c)
    (hy : y < view.lines c) (hi : i < comp.bytes) :
    view.content after c x y i = content c x y i := by
  rw [content_eq hcomp]
  exact hpainted.byte_of_ink (h.ink_functional hwritable)
    ⟨c, comp, x, y, i, hcomp, hx, hy, hi, rfl, rfl⟩

/-!
## Equal pictures
-/

/-- Two views of one size have the same components and hold the same bytes in every sample. -/
structure Matches (view : View) (memory : Memory) (source : View) (origin : Memory) : Prop where
  width : view.width = source.width
  height : view.height = source.height
  format : view.format.Alike source.format
  stored : forall c x y, source.Visible c x y ->
    view.Visible c x y ∧ exists bytes, view.stored memory c x y = .ok bytes ∧
      source.stored origin c x y = .ok bytes

theorem columns_eq_of_alike {source : View} (hformat : view.format.Alike source.format)
    (hwidth : view.width = source.width) (c : Nat) : view.columns c = source.columns c := by
  unfold columns
  rw [hwidth, hformat.columns_eq]

theorem lines_eq_of_alike {source : View} (hformat : view.format.Alike source.format)
    (hheight : view.height = source.height) (c : Nat) : view.lines c = source.lines c := by
  unfold lines
  rw [hheight, hformat.lines_eq]

theorem Covered.matches_of_bytes {source : View} {origin memory : Memory}
    (h : view.Covered) (hsource : source.Covered) (hformat : view.format.Alike source.format)
    (hwidth : view.width = source.width) (hheight : view.height = source.height)
    (hbytes : forall c comp into x y i, source.format.component c = .ok comp ->
      view.format.component c = .ok into -> x < source.columns c -> y < source.lines c ->
      i < comp.bytes ->
        memory.byte (view.address into x y + i) = origin.byte (source.address comp x y + i)) :
    view.Matches memory source origin := by
  refine ⟨hwidth, hheight, hformat, fun c x y hvisible => ?_⟩
  rcases hsource.visible_iff.mp hvisible with ⟨⟨comp, hcomp⟩, hx, hy⟩
  rcases hformat.symm.exists_component hcomp with ⟨into, hinto⟩
  have hcount := hformat.bytes_eq hinto hcomp
  have hx' : x < view.columns c := columns_eq_of_alike hformat hwidth c ▸ hx
  have hy' : y < view.lines c := lines_eq_of_alike hformat hheight c ▸ hy
  refine ⟨h.visible_iff.mpr ⟨⟨into, hinto⟩, hx', hy'⟩, _, h.stored hinto hx' hy' memory, ?_⟩
  rw [hsource.stored hcomp hx hy, hcount]
  refine congrArg Except.ok (Memory.read_congr fun i hi => ?_)
  exact (hbytes c comp into x y i hcomp hinto hx hy hi).symm

theorem Covered.matches_of_painted {source : View} {origin before after : Memory}
    (h : view.Covered) (hsource : source.Covered) (hwritable : view.Writable before.size)
    (hformat : view.format.Alike source.format) (hwidth : view.width = source.width)
    (hheight : view.height = source.height)
    (hpainted : Painted (view.ink (source.content origin)) before after) :
    view.Matches after source origin := by
  apply h.matches_of_bytes hsource hformat hwidth hheight
  intro c comp into x y i hcomp hinto hx hy hi
  have hx' : x < view.columns c := columns_eq_of_alike hformat hwidth c ▸ hx
  have hy' : y < view.lines c := lines_eq_of_alike hformat hheight c ▸ hy
  have hi' : i < into.bytes := hformat.bytes_eq hinto hcomp ▸ hi
  rw [← content_eq hinto, ← content_eq hcomp]
  exact h.content_of_painted hwritable hpainted hinto hx' hy' hi'

theorem Matches.sample_eq {source : View} {memory origin : Memory}
    (h : view.Matches memory source origin) (hvisible : source.Visible c x y) :
    exists value, view.sample memory c x y = .ok value ∧
      source.sample origin c x y = .ok value := by
  rcases h.stored c x y hvisible with ⟨_, bytes, hstored, hstored'⟩
  unfold View.stored at hstored hstored'
  rcases Checked.bind_eq_ok.mp hstored with ⟨into, hinto, hspan⟩
  rcases Checked.bind_eq_ok.mp hspan with ⟨span, hspan, hbytes⟩
  rcases Checked.bind_eq_ok.mp hstored' with ⟨comp, hcomp, hspan'⟩
  rcases Checked.bind_eq_ok.mp hspan' with ⟨span', hspan', hbytes'⟩
  have hload : span.load memory = bytes := by
    injection hbytes
  have hload' : span'.load origin = bytes := by
    injection hbytes'
  have hlevels : into.levels = comp.levels := by
    unfold Component.levels
    rw [h.format.depth_eq hinto hcomp]
  refine ⟨littleEndian bytes % comp.levels, ?_, ?_⟩
  · unfold View.sample
    rw [hinto, Checked.ok_bind, hspan, Checked.ok_bind, hload, hlevels]
    rfl
  · unfold View.sample
    rw [hcomp, Checked.ok_bind, hspan', Checked.ok_bind, hload']
    rfl

theorem Matches.trans {middle source : View} {memory between origin : Memory}
    (h : view.Matches memory middle between) (h' : middle.Matches between source origin) :
    view.Matches memory source origin := by
  refine ⟨h.width.trans h'.width, h.height.trans h'.height, h.format.trans h'.format, ?_⟩
  intro c x y hvisible
  rcases h'.stored c x y hvisible with ⟨hmiddle, bytes, hstored, hsource⟩
  rcases h.stored c x y hmiddle with ⟨hview, bytes', hstored', hmiddle'⟩
  rw [hstored] at hmiddle'
  cases hmiddle'
  exact ⟨hview, bytes, hstored', hsource⟩

theorem Covered.matches_self (h : view.Covered) (memory : Memory) :
    view.Matches memory view memory := by
  refine ⟨rfl, rfl, Format.Alike.refl _, fun c x y hvisible => ⟨hvisible, ?_⟩⟩
  rcases h.visible_iff.mp hvisible with ⟨⟨comp, hcomp⟩, hx, hy⟩
  exact ⟨_, h.stored_eq hcomp hx hy memory, h.stored_eq hcomp hx hy memory⟩

end View
end RawVideo

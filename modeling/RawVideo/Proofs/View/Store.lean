import Mathlib.Algebra.Group.Nat.Defs
import RawVideo.Proofs.View.Separate

/-!
# Stored values

A write leaves the low bits of a value in the bytes of one sample.  The samples of a
covered view share no byte, so all other samples keep theirs, and a component that is
filled with a value leaves the other components alone.
-/

namespace RawVideo

/-!
## Values in bytes
-/

theorem littleEndian_toLittleEndian (count n : Nat) :
    littleEndian (toLittleEndian count n) = n % 256 ^ count := by
  induction count generalizing n with
  | zero =>
      rw [Nat.pow_zero, Nat.mod_one]
      rfl
  | succ count ih =>
      show n % 256 + 256 * littleEndian (toLittleEndian count (n / 256)) = _
      rw [ih, Nat.pow_succ', Nat.mod_mul]

namespace Component

/-- The bytes that stand for a value in a sample. -/
def encoded (comp : Component) (value : Nat) : List UInt8 :=
  toLittleEndian comp.bytes (value % comp.levels)

theorem length_encoded (comp : Component) (value : Nat) :
    (comp.encoded value).length = comp.bytes :=
  length_toLittleEndian _ _

theorem and_maxValue (comp : Component) (value : Nat) :
    value &&& comp.maxValue = value % comp.levels := by
  unfold maxValue levels
  rw [Nat.one_shiftLeft]
  exact Nat.and_two_pow_sub_one_eq_mod value comp.depth

theorem levels_le_bytes {comp : Component} (h : comp.depth ≤ 16) :
    comp.levels ≤ 256 ^ comp.bytes := by
  unfold levels bytes
  rw [Nat.one_shiftLeft]
  split
  next hshort => exact Nat.pow_le_pow_right Nat.two_pos hshort
  next => exact Nat.pow_le_pow_right Nat.two_pos h

/-- A stored value reads back without the bits above the depth. -/
theorem littleEndian_encoded {comp : Component} (h : comp.depth ≤ 16) (value : Nat) :
    littleEndian (comp.encoded value) % comp.levels = value &&& comp.maxValue := by
  have hlt := Nat.lt_of_lt_of_le (Nat.mod_lt value comp.levels_pos) (levels_le_bytes h)
  unfold encoded
  rw [littleEndian_toLittleEndian, Nat.mod_eq_of_lt hlt, Nat.mod_mod, and_maxValue]

end Component

/-- An address of a span. -/
def Span.Holds (span : Span) (address : Nat) : Prop :=
  span.start ≤ address ∧ address < span.stop

namespace View

variable {view : View} {comp : Component} {c x y size value : Nat}
variable {Target : Nat -> Nat -> Nat -> Prop} {before after : Memory}

/-!
## Writing samples
-/

theorem put_eq {span : Span} (hcomp : view.format.component c = .ok comp)
    (hspan : view.sampleSpan comp x y = .ok span) (value : Nat) (memory : Memory) :
    view.put c x y value memory = .ok (memory.write span.start (comp.encoded value)) := by
  unfold put
  rw [hcomp, Checked.ok_bind, hspan]
  rfl

theorem paints_put (h : view.Covered) (hwritable : view.Writable size)
    (hcomp : view.format.component c = .ok comp) (hx : x < view.columns c)
    (hy : y < view.lines c) (value : Nat) :
    Paints size (view.put c x y value)
      (Ink.laid (view.address comp x y) (comp.encoded value)) := by
  intro before hsize
  have hlast := h.position_le hcomp hx hy
  have hinside := hwritable.inside comp.plane (Format.plane_mem_planes hcomp)
  refine ⟨_, put_eq hcomp (h.sampleSpan hcomp hx hy) value before, Painted.write ?_⟩
  rw [Component.length_encoded, hsize]
  unfold address
  unfold Span.stop at hinside
  omega

/-!
## Samples that are written

The ink of a set of samples gives each of them the bytes of one value.
-/

def valueInk (view : View) (Target : Nat -> Nat -> Nat -> Prop) (value : Nat) : Ink :=
  fun address b => exists c comp x y, view.format.component c = .ok comp ∧
    x < view.columns c ∧ y < view.lines c ∧ Target c x y ∧
    Ink.laid (view.address comp x y) (comp.encoded value) address b

/-- What a memory holds after a value has been written to some of the visible samples. -/
structure Stores (view : View) (Target : Nat -> Nat -> Nat -> Prop) (value : Nat)
    (before after : Memory) : Prop where
  size : after.size = before.size
  /-- Written samples read as the value. -/
  written : forall c comp x y, view.format.component c = .ok comp -> view.Visible c x y ->
    Target c x y -> view.sample after c x y = .ok (value &&& comp.maxValue)
  /-- No byte outside of the written samples changes. -/
  bytes : forall address,
    (forall c comp x y span, view.format.component c = .ok comp -> view.Visible c x y ->
      Target c x y -> view.sampleSpan comp x y = .ok span -> ¬ span.Holds address) ->
    after.byte address = before.byte address
  /-- The other samples keep their bytes and their values. -/
  kept : forall c x y, view.Visible c x y -> ¬ Target c x y ->
    (exists bytes, view.stored before c x y = .ok bytes ∧
      view.stored after c x y = .ok bytes) ∧
    exists v, view.sample before c x y = .ok v ∧ view.sample after c x y = .ok v

theorem laid_encoded {address : Nat} {b : UInt8}
    (h : Ink.laid (view.address comp x y) (comp.encoded value) address b) :
    exists i, i < comp.bytes ∧ address = view.address comp x y + i ∧
      (comp.encoded value)[i]? = some b := by
  rcases h with ⟨i, haddress, hb⟩
  rcases List.getElem?_eq_some_iff.mp hb with ⟨hlt, _⟩
  exact ⟨i, comp.length_encoded value ▸ hlt, haddress, hb⟩

theorem Covered.valueInk_functional (h : view.Covered) (hwritable : view.Writable size) :
    (view.valueInk Target value).Functional := by
  intro address b b' hb hb'
  rcases hb with ⟨c, comp, x, y, hcomp, hx, hy, _, hlaid⟩
  rcases hb' with ⟨d, other, x', y', hother, hx', hy', _, hlaid'⟩
  rcases laid_encoded hlaid with ⟨i, hi, haddress, hbyte⟩
  rcases laid_encoded hlaid' with ⟨j, hj, haddress', hbyte'⟩
  rcases h.address_inj hwritable hcomp hother hx hy hi hx' hy' hj
    (haddress.symm.trans haddress') with ⟨rfl, rfl, rfl, rfl⟩
  rw [hcomp] at hother
  cases hother
  rw [hbyte] at hbyte'
  cases hbyte'
  rfl

/-- No byte of another sample has ink. -/
theorem Covered.free_of_other (h : view.Covered) (hwritable : view.Writable size)
    (hcomp : view.format.component c = .ok comp) (hx : x < view.columns c)
    (hy : y < view.lines c) (hother : ¬ Target c x y) {i : Nat} (hi : i < comp.bytes)
    (b : UInt8) : ¬ view.valueInk Target value (view.address comp x y + i) b := by
  intro hink
  rcases hink with ⟨d, second, x', y', hsecond, hx', hy', htarget, hlaid⟩
  rcases laid_encoded hlaid with ⟨j, hj, haddress, _⟩
  rcases h.address_inj hwritable hcomp hsecond hx hy hi hx' hy' hj haddress with
    ⟨rfl, rfl, rfl, _⟩
  exact hother htarget

/-- Reading and sampling depend on the bytes of a sample only. -/
theorem Covered.sample_of_read (h : view.Covered) (hcomp : view.format.component c = .ok comp)
    (hx : x < view.columns c) (hy : y < view.lines c) {bytes : List UInt8}
    (hread : after.read (view.address comp x y) comp.bytes = bytes) :
    view.stored after c x y = .ok bytes ∧
      view.sample after c x y = .ok (littleEndian bytes % comp.levels) := by
  subst hread
  exact ⟨h.stored hcomp hx hy after, h.sample hcomp hx hy after⟩

theorem Covered.stores_of_painted (h : view.Covered) (hwritable : view.Writable before.size)
    (hpainted : Painted (view.valueInk Target value) before after) :
    view.Stores Target value before after := by
  have hfunctional : (view.valueInk Target value).Functional := h.valueInk_functional hwritable
  refine ⟨hpainted.size, ?_, ?_, ?_⟩
  · intro c comp x y hcomp hvisible htarget
    rcases h.visible_iff.mp hvisible with ⟨_, hx, hy⟩
    have hread : after.read (view.address comp x y) (comp.encoded value).length =
        comp.encoded value := by
      apply Memory.read_of_bytes
      intro i b hb
      exact hpainted.byte_of_ink hfunctional
        ⟨c, comp, x, y, hcomp, hx, hy, htarget, i, rfl, hb⟩
    rw [Component.length_encoded] at hread
    rw [(h.sample_of_read hcomp hx hy hread).right, Component.littleEndian_encoded]
    exact Nat.le_trans (Nat.le_of_eq (Format.depth_eq hcomp)) view.format.depth_le
  · intro address houtside
    apply hpainted.byte_of_free
    intro b hink
    rcases hink with ⟨c, comp, x, y, hcomp, hx, hy, htarget, hlaid⟩
    rcases laid_encoded hlaid with ⟨i, hi, rfl, _⟩
    refine houtside c comp x y _ hcomp (h.visible_iff.mpr ⟨⟨comp, hcomp⟩, hx, hy⟩) htarget
      (h.sampleSpan hcomp hx hy) ⟨Nat.le_add_right _ i, ?_⟩
    exact Nat.add_lt_add_left hi _
  · intro c x y hvisible hother
    rcases h.visible_iff.mp hvisible with ⟨⟨comp, hcomp⟩, hx, hy⟩
    have hread : after.read (view.address comp x y) comp.bytes =
        before.read (view.address comp x y) comp.bytes := by
      apply Memory.read_congr
      intro i hi
      exact hpainted.byte_of_free fun b => h.free_of_other hwritable hcomp hx hy hother hi b
    have hbefore := h.sample_of_read hcomp hx hy (Eq.refl (before.read _ _))
    have hafter := h.sample_of_read hcomp hx hy hread
    exact ⟨⟨_, hbefore.left, hafter.left⟩, _, hbefore.right, hafter.right⟩

/-!
## Filling a component
-/

theorem paints_fill (h : view.Covered) (hwritable : view.Writable size)
    (hcomp : view.format.component c = .ok comp) (value : Nat) :
    Paints size (view.fill c value)
      (view.valueInk (fun d _ _ => d = c) value) := by
  -- A row is a run of writes, and the component a run of rows.
  have hrow : forall y, y ∈ List.range (view.lines c) ->
      Paints size (fun memory =>
          (List.range (view.columns c)).foldlM (fun memory x => view.put c x y value memory) memory)
        (fun address b => exists x, x ∈ List.range (view.columns c) ∧
          Ink.laid (view.address comp x y) (comp.encoded value) address b) := by
    intro y hy
    apply Paints.foldlM
    intro x hx
    exact paints_put h hwritable hcomp (List.mem_range.mp hx) (List.mem_range.mp hy) value
  have hfill : view.fill c value = fun memory =>
      (List.range (view.lines c)).foldlM (fun memory y =>
        (List.range (view.columns c)).foldlM (fun memory x => view.put c x y value memory) memory)
        memory := by
    funext memory
    unfold fill
    rw [h.componentSize hcomp]
    rfl
  rw [hfill]
  apply (Paints.foldlM hrow).congr
  intro address b
  constructor
  · intro hink
    rcases hink with ⟨y, hy, x, hx, hlaid⟩
    exact ⟨c, comp, x, y, hcomp, List.mem_range.mp hx, List.mem_range.mp hy, rfl, hlaid⟩
  · intro hink
    rcases hink with ⟨d, second, x, y, hsecond, hx, hy, rfl, hlaid⟩
    rw [hcomp] at hsecond
    cases hsecond
    exact ⟨y, List.mem_range.mpr hy, x, List.mem_range.mpr hx, hlaid⟩

theorem paints_put_target (h : view.Covered) (hwritable : view.Writable size)
    (hcomp : view.format.component c = .ok comp) (hx : x < view.columns c)
    (hy : y < view.lines c) (value : Nat) :
    Paints size (view.put c x y value)
      (view.valueInk (fun d x' y' => d = c ∧ x' = x ∧ y' = y) value) := by
  apply (paints_put h hwritable hcomp hx hy value).congr
  intro address b
  constructor
  · intro hlaid
    exact ⟨c, comp, x, y, hcomp, hx, hy, ⟨rfl, rfl, rfl⟩, hlaid⟩
  · intro hink
    rcases hink with ⟨d, second, x', y', hsecond, _, _, ⟨rfl, rfl, rfl⟩, hlaid⟩
    rw [hcomp] at hsecond
    cases hsecond
    exact hlaid

/--
On a covered view whose planes lie apart, a write to a visible sample stores the value
without the bits above its depth and changes nothing else, and filling a component
does so for its visible samples.
-/
theorem sample_stores_independent (view : View) (memory : Memory) (h : view.Covered)
    (hwritable : view.Writable memory.size) (value : Nat) :
    (forall c x y, view.Visible c x y ->
      exists next, view.put c x y value memory = .ok next ∧
        view.Stores (fun d x' y' => d = c ∧ x' = x ∧ y' = y) value memory next) ∧
    forall c, c < view.format.components.length ->
      exists next, view.fill c value memory = .ok next ∧
        view.Stores (fun d _ _ => d = c) value memory next := by
  constructor
  · intro c x y hvisible
    rcases h.visible_iff.mp hvisible with ⟨⟨comp, hcomp⟩, hx, hy⟩
    rcases paints_put_target h hwritable hcomp hx hy value memory rfl with
      ⟨next, hnext, hpainted⟩
    exact ⟨next, hnext, h.stores_of_painted hwritable hpainted⟩
  · intro c hc
    rcases Format.exists_component hc with ⟨comp, hcomp⟩
    rcases paints_fill h hwritable hcomp value memory rfl with ⟨next, hnext, hpainted⟩
    exact ⟨next, hnext, h.stores_of_painted hwritable hpainted⟩

/-- A chroma sample between luma samples, on rows that touch, and a filled component of ten bits. -/
theorem sample_stores_independent_packed :
    (exists view next, Attempt.Answers (ofPlanes .yuy2 3 2 [16] [8]) view ∧
      view.put 2 1 0 300 (Memory.zeros 16) = .ok next ∧ view.sample next 2 1 0 = .ok 44 ∧
        view.sample next 0 0 1 = .ok 0) ∧
    exists view next, Attempt.Answers (ofPlanes .i420p10 2 2 [8, 2, 2] [4, 2, 2]) view ∧
      view.fill 1 5000 (Memory.zeros 12) = .ok next ∧ view.sample next 1 0 0 = .ok 904 ∧
        view.sample next 0 1 1 = .ok 0 := by
  constructor
  · have hview : Attempt.Answers (ofPlanes .yuy2 3 2 [16] [8])
        ⟨.yuy2, 3, 2, #v[⟨⟨0, 16⟩, 8⟩, Plane.none, Plane.none, Plane.none]⟩ := rfl
    have hcovered := covered_of_ofPlanes hview
    have hwritable : Writable
        ⟨.yuy2, 3, 2, #v[⟨⟨0, 16⟩, 8⟩, Plane.none, Plane.none, Plane.none]⟩
        (Memory.zeros 16).size := ⟨by decide, by decide⟩
    have hcomp : Format.yuy2.component 2 = .ok ⟨.v, 0, 3, 4, 8⟩ := rfl
    have hluma : Format.yuy2.component 0 = .ok ⟨.y, 0, 0, 2, 8⟩ := rfl
    have hvisible := hcovered.visible_iff.mpr
      (⟨⟨_, hcomp⟩, by decide, by decide⟩ : _ ∧ 1 < columns _ 2 ∧ 0 < lines _ 2)
    have hother := hcovered.visible_iff.mpr
      (⟨⟨_, hluma⟩, by decide, by decide⟩ : _ ∧ 0 < columns _ 0 ∧ 1 < lines _ 0)
    rcases (sample_stores_independent _ _ hcovered hwritable 300).left 2 1 0 hvisible with
      ⟨next, hnext, hstores⟩
    refine ⟨_, next, hview, hnext, hstores.written _ _ _ _ hcomp hvisible ⟨rfl, rfl, rfl⟩, ?_⟩
    rcases (hstores.kept 0 0 1 hother (by decide)).right with ⟨v, hbefore, hafter⟩
    cases hbefore
    exact hafter
  · have hview : Attempt.Answers (ofPlanes .i420p10 2 2 [8, 2, 2] [4, 2, 2])
        ⟨.i420p10, 2, 2, #v[⟨⟨0, 8⟩, 4⟩, ⟨⟨8, 2⟩, 2⟩, ⟨⟨10, 2⟩, 2⟩, Plane.none]⟩ := rfl
    have hcovered := covered_of_ofPlanes hview
    have hwritable : Writable
        ⟨.i420p10, 2, 2, #v[⟨⟨0, 8⟩, 4⟩, ⟨⟨8, 2⟩, 2⟩, ⟨⟨10, 2⟩, 2⟩, Plane.none]⟩
        (Memory.zeros 12).size := ⟨by decide, by decide⟩
    have hcomp : Format.i420p10.component 1 = .ok ⟨.u, 1, 0, 2, 10⟩ := rfl
    have hluma : Format.i420p10.component 0 = .ok ⟨.y, 0, 0, 2, 10⟩ := rfl
    have hvisible := hcovered.visible_iff.mpr
      (⟨⟨_, hcomp⟩, by decide, by decide⟩ : _ ∧ 0 < columns _ 1 ∧ 0 < lines _ 1)
    have hother := hcovered.visible_iff.mpr
      (⟨⟨_, hluma⟩, by decide, by decide⟩ : _ ∧ 1 < columns _ 0 ∧ 1 < lines _ 0)
    rcases (sample_stores_independent _ _ hcovered hwritable 5000).right 1 (by decide) with
      ⟨next, hnext, hstores⟩
    refine ⟨_, next, hview, hnext, hstores.written _ _ _ _ hcomp hvisible rfl, ?_⟩
    rcases (hstores.kept 0 1 1 hother (by decide)).right with ⟨v, hbefore, hafter⟩
    cases hbefore
    exact hafter

end View
end RawVideo

import RawVideo.Proofs.View.Separate
import RawVideo.Proofs.View.Origin

/-!
# Copies without a buffer

Copying the samples of all components draws the content of the source on the target,
and nothing else.  Copying whole rows also takes the bytes between the samples along;
what it draws is the rows themselves, in which every sample lies.  Either way nothing
changes outside the rows of the target.
-/

namespace RawVideo
namespace Conversion

variable {target source : View} {origin : Memory} {comp into : Component} {c size : Nat}

/-- Two covered views of one size and family, the planes of the target apart in a memory. -/
structure Paired (target source : View) (size : Nat) : Prop where
  targetCovered : target.Covered
  sourceCovered : source.Covered
  writable : target.Writable size
  width : target.width = source.width
  height : target.height = source.height
  alike : target.format.Alike source.format

namespace Paired

theorem columns_eq (h : Paired target source size) (c : Nat) :
    target.columns c = source.columns c :=
  View.columns_eq_of_alike h.alike h.width c

theorem lines_eq (h : Paired target source size) (c : Nat) : target.lines c = source.lines c :=
  View.lines_eq_of_alike h.alike h.height c

theorem bytes_eq (h : Paired target source size) (hcomp : source.format.component c = .ok comp)
    (hinto : target.format.component c = .ok into) : into.bytes = comp.bytes :=
  h.alike.bytes_eq hinto hcomp

theorem exists_into (h : Paired target source size)
    (hcomp : source.format.component c = .ok comp) :
    exists into, target.format.component c = .ok into :=
  h.alike.symm.exists_component hcomp

theorem visible_iff {x y : Nat} (h : Paired target source size) :
    target.Visible c x y ↔ source.Visible c x y := by
  rw [h.targetCovered.visible_iff, h.sourceCovered.visible_iff, h.columns_eq, h.lines_eq]
  refine and_congr_left fun _ => ⟨?_, ?_⟩
  · intro hcomp
    rcases hcomp with ⟨into, hinto⟩
    exact h.alike.exists_component hinto
  · intro hcomp
    rcases hcomp with ⟨comp, hcomp⟩
    exact h.exists_into hcomp

end Paired

/-!
## Rows of samples
-/

/-- A row has room for its samples. -/
def Row.Holds (row : Row) (width : Nat) : Prop :=
  forall x, x < width -> x * row.component.stride + row.component.bytes ≤ row.span.length

/-- The samples of a row drawn at the places that another row has for them. -/
def rowInk (into source : Row) (width : Nat) (origin : Memory) : Ink := fun address b =>
  exists x i, x < width ∧ i < source.component.bytes ∧
    address = into.span.start + x * into.component.stride + i ∧
    b = origin.byte (source.span.start + x * source.component.stride + i)

theorem paints_copySample {into source : Row} {width x : Nat} (hinto : into.Holds width)
    (hsource : source.Holds width) (hbytes : into.component.bytes = source.component.bytes)
    (hfits : into.span.stop ≤ size) (hx : x < width) :
    Paints size (fun memory => copySample into source origin memory x)
      (Ink.copied origin (into.span.start + x * into.component.stride)
        (source.span.start + x * source.component.stride) source.component.bytes) := by
  intro before hsize
  have hroom := hinto x hx
  have hroom' := hsource x hx
  rw [hbytes] at hroom
  unfold Span.stop at hfits
  dsimp only [copySample]
  rw [Span.sub_of_le hroom, Checked.ok_bind, Span.sub_of_le hroom', Checked.ok_bind]
  exact ⟨_, rfl, Painted.write_read (by omega)⟩

theorem copied_of_contiguous {into source : Row} {width address : Nat} {b : UInt8}
    (hinto : into.component.stride = source.component.bytes)
    (hsource : source.component.stride = source.component.bytes) :
    Ink.copied origin into.span.start source.span.start (width * source.component.bytes)
        address b ↔ rowInk into source width origin address b := by
  have hpos := source.component.bytes_pos
  unfold Ink.copied rowInk
  rw [hinto, hsource]
  constructor
  · intro hdrawn
    rcases hdrawn with ⟨k, hk, haddress, hb⟩
    have hsplit := Nat.div_add_mod' k source.component.bytes
    refine ⟨k / source.component.bytes, k % source.component.bytes, ?_, Nat.mod_lt k hpos, ?_, ?_⟩
    · exact (Nat.div_lt_iff_lt_mul hpos).mpr hk
    · rw [Nat.add_assoc, hsplit]
      exact haddress
    · rw [Nat.add_assoc, hsplit]
      exact hb
  · intro hdrawn
    rcases hdrawn with ⟨x, i, hx, hi, haddress, hb⟩
    have hnext : (x + 1) * source.component.bytes ≤ width * source.component.bytes :=
      Nat.mul_le_mul_right _ hx
    rw [Nat.succ_mul] at hnext
    refine ⟨x * source.component.bytes + i, by omega, ?_, ?_⟩
    · rw [← Nat.add_assoc]
      exact haddress
    · rw [← Nat.add_assoc]
      exact hb

theorem Row.Holds.length_le {row : Row} {width bytes : Nat} (h : row.Holds width)
    (hstride : row.component.stride = bytes) (hbytes : row.component.bytes = bytes) :
    width * bytes ≤ row.span.length := by
  cases width with
  | zero =>
      rw [Nat.zero_mul]
      exact Nat.zero_le _
  | succ last =>
      have hlast := h last (Nat.lt_succ_self last)
      rw [hstride, hbytes, ← Nat.succ_mul] at hlast
      exact hlast

theorem paints_copySamples {into source : Row} {width : Nat} (hinto : into.Holds width)
    (hsource : source.Holds width) (hbytes : into.component.bytes = source.component.bytes)
    (hfits : into.span.stop ≤ size) :
    Paints size (fun memory => copySamples into source width origin memory)
      (rowInk into source width origin) := by
  unfold copySamples
  split
  next hcontiguous =>
    rw [Bool.and_eq_true, Component.isContiguous_iff, Component.isContiguous_iff]
      at hcontiguous
    rcases hcontiguous with ⟨hstride, hstride'⟩
    rw [hbytes] at hstride'
    have hroom := hinto.length_le hstride' hbytes
    have hroom' := hsource.length_le hstride rfl
    unfold Span.stop at hfits
    intro before hsize
    dsimp only
    rw [Span.sub_of_le (by omega), Checked.ok_bind, Span.sub_of_le (by omega), Checked.ok_bind]
    refine ⟨_, rfl, (Painted.write_read ?_).congr fun address b => ?_⟩
    · show into.span.start + 0 + width * source.component.bytes ≤ before.size
      omega
    · exact copied_of_contiguous hstride' hstride
  next =>
    refine (Paints.foldlM fun x hx => paints_copySample hinto hsource hbytes hfits
      (List.mem_range.mp hx)).congr fun address b => ?_
    unfold Ink.copied rowInk
    constructor
    · intro hdrawn
      rcases hdrawn with ⟨x, hx, i, hi, haddress, hb⟩
      exact ⟨x, i, List.mem_range.mp hx, hi, haddress, hb⟩
    · intro hdrawn
      rcases hdrawn with ⟨x, i, hx, hi, haddress, hb⟩
      exact ⟨x, List.mem_range.mpr hx, i, hi, haddress, hb⟩

/-!
## Components
-/

theorem rowOf_eq {view : View} {y : Nat} (h : view.Covered)
    (hcomp : view.format.component c = .ok comp) (hy : y < view.lines c) :
    rowOf view c y = .ok ⟨⟨view.address comp 0 y, comp.rowSpan (view.columns c)⟩, comp⟩ := by
  unfold rowOf
  rw [h.rowSpan hcomp hy, Checked.ok_bind, hcomp]
  rfl

theorem holds_row (comp : Component) (start width : Nat) :
    Row.Holds ⟨⟨start, comp.rowSpan width⟩, comp⟩ width := by
  intro x hx
  exact comp.sample_le_rowSpan hx

theorem row_stop_le {view : View} {y : Nat} (h : view.Covered) (hwritable : view.Writable size)
    (hcomp : view.format.component c = .ok comp) (hy : y < view.lines c) :
    view.address comp 0 y + comp.rowSpan (view.columns c) ≤ size := by
  have hinside := hwritable.inside comp.plane (Format.plane_mem_planes hcomp)
  have hcolumns := view.columns_pos h.width_pos c
  have hlast := h.position_le hcomp (Nat.sub_lt hcolumns Nat.one_pos) hy
  rw [Component.rowSpan_of_pos comp hcolumns]
  unfold View.address
  unfold Span.stop at hinside
  unfold Component.position at hlast ⊢
  omega

theorem rowInk_iff_line {memory : Memory} {start room room' y address : Nat} {b : UInt8}
    (h : Paired target source size) (hcomp : source.format.component c = .ok comp)
    (hinto : target.format.component c = .ok into)
    (hcontent : forall x i, x < source.columns c -> i < comp.bytes ->
      memory.byte (start + x * comp.stride + i) = source.content origin c x y i) :
    rowInk ⟨⟨target.address into 0 y, room⟩, into⟩ ⟨⟨start, room'⟩, comp⟩ (source.columns c)
        memory address b ↔ target.lineInk (source.content origin) c y address b := by
  have hbytes := h.bytes_eq hcomp hinto
  unfold rowInk View.lineInk
  rw [h.columns_eq c]
  constructor
  · intro hdrawn
    rcases hdrawn with ⟨x, i, hx, hi, haddress, hb⟩
    refine ⟨into, x, i, hinto, hx, hbytes.symm ▸ hi, ?_, ?_⟩
    · rw [View.address_eq_row]
      exact haddress
    · rw [← hcontent x i hx hi]
      exact hb
  · intro hdrawn
    rcases hdrawn with ⟨second, x, i, hsecond, hx, hi, haddress, hb⟩
    rw [hinto] at hsecond
    cases hsecond
    rw [hbytes] at hi
    refine ⟨x, i, hx, hi, ?_, ?_⟩
    · rw [← View.address_eq_row]
      exact haddress
    · rw [hcontent x i hx hi]
      exact hb

theorem paints_copyLine {memory : Memory} {row : Row} {y : Nat} (h : Paired target source size)
    (hcomp : source.format.component c = .ok comp) (hy : y < source.lines c)
    (hrow : row.component = comp) (hholds : row.Holds (source.columns c))
    (hcontent : forall x i, x < source.columns c -> i < comp.bytes ->
      memory.byte (row.span.start + x * comp.stride + i) = source.content origin c x y i) :
    Paints size
      (fun before => rowOf target c y >>= fun into =>
        copySamples into row (source.columns c) memory before)
      (target.lineInk (source.content origin) c y) := by
  rcases h.exists_into hcomp with ⟨into, hinto⟩
  have hy' : y < target.lines c := h.lines_eq c ▸ hy
  subst hrow
  rw [rowOf_eq h.targetCovered hinto hy']
  have hinto' : Row.Holds ⟨⟨target.address into 0 y, into.rowSpan (target.columns c)⟩, into⟩
      (source.columns c) := by
    rw [← h.columns_eq c]
    exact holds_row into _ _
  exact (paints_copySamples hinto' hholds (h.bytes_eq hcomp hinto)
    (row_stop_le h.targetCovered h.writable hinto hy')).congr
      fun address b => rowInk_iff_line h hcomp hinto hcontent

theorem paints_copyComponent (h : Paired target source size)
    (hcomp : source.format.component c = .ok comp) :
    Paints size (fun memory => copyComponent target source origin memory c)
      (fun address b => exists y, y ∈ List.range (source.lines c) ∧
        target.lineInk (source.content origin) c y address b) := by
  have hline : forall y, y ∈ List.range (source.lines c) -> Paints size
      (fun memory => rowOf target c y >>= fun into => rowOf source c y >>= fun row =>
        copySamples into row (source.columns c) origin memory)
      (target.lineInk (source.content origin) c y) := by
    intro y hy
    rw [List.mem_range] at hy
    rw [rowOf_eq h.sourceCovered hcomp hy]
    apply paints_copyLine h hcomp hy rfl (holds_row comp _ _)
    intro x i _ _
    rw [View.content_eq hcomp, View.address_eq_row source comp x y]
  intro before hsize
  dsimp only [copyComponent]
  rw [h.sourceCovered.componentSize hcomp, Checked.ok_bind]
  exact Paints.foldlM hline before hsize

theorem paints_copyComponents (h : Paired target source size) (origin : Memory) :
    Paints size (fun memory => copyComponents target source origin memory)
      (target.ink (source.content origin)) := by
  have hstep : forall c, c ∈ List.range source.format.components.length ->
      Paints size (fun memory => copyComponent target source origin memory c)
        (fun address b => exists y, y ∈ List.range (source.lines c) ∧
          target.lineInk (source.content origin) c y address b) := by
    intro c hc
    rcases Format.exists_component (List.mem_range.mp hc) with ⟨comp, hcomp⟩
    exact paints_copyComponent h hcomp
  apply (Paints.foldlM hstep).congr
  intro address b
  rw [View.ink_iff_line]
  constructor
  · intro hdrawn
    rcases hdrawn with ⟨c, _, y, hy, hink⟩
    exact ⟨c, y, h.lines_eq c ▸ List.mem_range.mp hy, hink⟩
  · intro hdrawn
    rcases hdrawn with ⟨c, y, hy, hink⟩
    refine ⟨c, ?_, y, List.mem_range.mpr (h.lines_eq c ▸ hy), hink⟩
    rcases hink with ⟨into, x, i, hinto, _⟩
    rw [List.mem_range, ← h.alike.components]
    exact Format.lt_of_component hinto

/-!
## Whole rows
-/

/-- The extents of the planes of a picture. -/
def Spanned (view : View) (extents : PerPlane Extent) : Prop :=
  view.format.extents view.width view.height = .ok extents

/-- The rows of all planes drawn on the planes of another view. -/
def planesInk (target source : View) (extents : PerPlane Extent) (origin : Memory) : Ink :=
  fun address b => exists p y k, p ∈ target.format.planes ∧ y < (extents.get p).rows ∧
    k < (extents.get p).row ∧
    address = (target.planes.get p).start + y * (target.planes.get p).pitch + k ∧
    b = origin.byte ((source.planes.get p).start + y * (source.planes.get p).pitch + k)

theorem row_le_plane {view : View} {extents : PerPlane Extent} {p : PlaneIndex} {y : Nat}
    (h : view.Covered) (hextents : Spanned view extents) (hp : p ∈ view.format.planes)
    (hy : y < (extents.get p).rows) :
    (extents.get p).row ≤ (view.planes.get p).pitch ∧
      y * (view.planes.get p).pitch + (extents.get p).row ≤ (view.planes.get p).length := by
  rcases h.planes with ⟨found, hfound, hfits⟩
  rw [hextents] at hfound
  cases hfound
  have hlast := View.sample_le_rows (view.planes.get p).pitch hy
    (Nat.le_refl (extents.get p).row)
  exact ⟨(hfits p hp).left, Nat.le_trans hlast (hfits p hp).right⟩

theorem Paired.spanned (h : Paired target source size) (hformat : source.format = target.format)
    {extents : PerPlane Extent} (hextents : Spanned source extents) :
    Spanned target extents := by
  unfold Spanned at hextents ⊢
  rw [← hformat, h.width, h.height]
  exact hextents

theorem planesInk_functional {extents : PerPlane Extent} (h : target.Covered)
    (hwritable : target.Writable size) (hextents : Spanned target extents) :
    (planesInk target source extents origin).Functional := by
  intro address b b' h' hmem
  rcases h' with ⟨p, y, k, hp, hy, hk, haddress, rfl⟩
  rcases hmem with ⟨q, y', k', hq, hy', hk', haddress', rfl⟩
  have hrow := row_le_plane h hextents hp hy
  have hrow' := row_le_plane h hextents hq hy'
  by_cases hplane : p = q
  · subst hplane
    have hinj := mul_add_inj (n := (target.planes.get p).pitch) (a := k) (b := k') (x := y)
      (y := y') (by omega) (by omega) (by omega)
    rw [hinj.left, hinj.right]
  · have happart := hwritable.apart p q hp hq hplane
    unfold Span.stop at happart
    omega

theorem paints_copyRow {extents : PerPlane Extent} {p : PlaneIndex} {y : Nat}
    (h : Paired target source size) (hformat : source.format = target.format)
    (hextents : Spanned source extents) (hp : p ∈ target.format.planes)
    (hy : y < (extents.get p).rows) :
    Paints size (fun memory => copyRow target source origin p (extents.get p).row memory y)
      (Ink.copied origin ((target.planes.get p).start + y * (target.planes.get p).pitch)
        ((source.planes.get p).start + y * (source.planes.get p).pitch) (extents.get p).row) := by
  have hroom := row_le_plane h.targetCovered (h.spanned hformat hextents) hp hy
  have hroom' := row_le_plane h.sourceCovered hextents (hformat ▸ hp) hy
  have hinside := h.writable.inside p hp
  unfold Span.stop at hinside
  intro before hsize
  dsimp only [copyRow]
  rw [Span.sub_of_le hroom.right, Checked.ok_bind, Span.sub_of_le hroom'.right]
  exact ⟨_, rfl, Painted.write_read (by omega)⟩

theorem paints_copyPlanes {extents : PerPlane Extent} (h : Paired target source size)
    (hformat : source.format = target.format) (hextents : Spanned source extents)
    (origin : Memory) :
    Paints size (fun memory => copyPlanes target source origin memory)
      (planesInk target source extents origin) := by
  have hplane : forall p, p ∈ source.format.planes ->
      Paints size (fun memory => copyPlane target source origin memory p)
        (fun address b => exists y, y ∈ List.range (extents.get p).rows ∧
          Ink.copied origin ((target.planes.get p).start + y * (target.planes.get p).pitch)
            ((source.planes.get p).start + y * (source.planes.get p).pitch)
            (extents.get p).row address b) := by
    intro p hp before hsize
    dsimp only [copyPlane]
    rw [View.visibleExtent_eq h.sourceCovered.width_pos hextents p, Checked.ok_bind]
    exact Paints.foldlM (fun y hy => paints_copyRow h hformat hextents (hformat ▸ hp)
      (List.mem_range.mp hy)) before hsize
  apply (Paints.foldlM hplane).congr
  intro address b
  unfold planesInk Ink.copied
  rw [hformat]
  constructor
  · intro hdrawn
    rcases hdrawn with ⟨p, hp, y, hy, k, hk, haddress, hb⟩
    exact ⟨p, y, k, hp, List.mem_range.mp hy, hk, haddress, hb⟩
  · intro hdrawn
    rcases hdrawn with ⟨p, y, k, hp, hy, hk, haddress, hb⟩
    exact ⟨p, hp, y, List.mem_range.mpr hy, k, hk, haddress, hb⟩

theorem sample_in_row {view : View} {extents : PerPlane Extent} {x y i : Nat}
    (h : view.Covered) (hextents : Spanned view extents)
    (hcomp : view.format.component c = .ok comp) (hx : x < view.columns c)
    (hy : y < view.lines c) (hi : i < comp.bytes) :
    y < (extents.get comp.plane).rows ∧
      x * comp.stride + comp.offset + i < (extents.get comp.plane).row := by
  have hasked := (Format.asked_within_extents h.width_pos hextents hcomp).right
  have hrow := Component.sample_le_row (Format.offset_add_bytes_le hcomp) hx
  have hrows : view.lines c ≤ (extents.get comp.plane).rows := hasked.rows
  have hrow' : view.columns c * comp.stride ≤ (extents.get comp.plane).row := hasked.row
  constructor <;> omega

theorem matches_of_planesInk {extents : PerPlane Extent} {before after : Memory}
    (h : Paired target source before.size) (hformat : source.format = target.format)
    (hextents : Spanned source extents)
    (hpainted : Painted (planesInk target source extents origin) before after) :
    target.Matches after source origin := by
  apply h.targetCovered.matches_of_bytes h.sourceCovered h.alike h.width h.height
  intro c comp into x y i hcomp hinto hx hy hi
  rw [hformat, hinto] at hcomp
  cases hcomp
  have hspanned := h.spanned hformat hextents
  have hin := sample_in_row h.targetCovered hspanned hinto (h.columns_eq c ▸ hx)
    (h.lines_eq c ▸ hy) hi
  refine hpainted.byte_of_ink (planesInk_functional h.targetCovered h.writable hspanned)
    ⟨comp.plane, y, x * comp.stride + comp.offset + i, Format.plane_mem_planes hinto, hin.left,
      hin.right, ?_, ?_⟩
  · unfold View.address Component.position
    omega
  · unfold View.address Component.position
    congr 1
    omega

/-!
## Outside the rows
-/

/-- An address in a row of some component, the gap behind its last sample included. -/
def InRows (view : View) (address : Nat) : Prop :=
  exists c comp x y k, view.format.component c = .ok comp ∧ x < view.columns c ∧
    y < view.lines c ∧ k < comp.stride ∧
    address = view.spot comp.plane y (x * comp.stride + k)

theorem inRows_of_ink {view : View} {content : Nat -> Nat -> Nat -> Nat -> UInt8} {address : Nat}
    {b : UInt8} (h : view.ink content address b) : InRows view address := by
  rcases h with ⟨c, comp, x, y, i, hcomp, hx, hy, hi, rfl, _⟩
  have hstride := Format.offset_add_bytes_le hcomp
  refine ⟨c, comp, x, y, comp.offset + i, hcomp, hx, hy, by omega, ?_⟩
  rw [View.address_eq_spot, View.spot_add, Nat.add_assoc]

theorem rows_le_lines {view : View} {extents : PerPlane Extent} (h : view.Covered)
    (hextents : Spanned view extents) (hcomp : view.format.component c = .ok comp) :
    (extents.get comp.plane).rows ≤ view.lines c := by
  have hwithin : (extents.get comp.plane).Within
      ⟨view.lines c, (extents.get comp.plane).row⟩ := by
    refine Format.extents_within h.width_pos hextents fun d other hother hplane => ?_
    have hasked := (Format.asked_within_extents h.width_pos hextents hother).right
    rw [hplane] at hasked
    exact ⟨Nat.le_of_eq (Format.lines_eq_of_plane hother hcomp hplane view.height), hasked.row⟩
  exact hwithin.rows

/-- The row of a plane is no longer than the longest one of its components. -/
theorem exists_row_of_extents {view : View} {extents : PerPlane Extent} {p : PlaneIndex}
    {k : Nat} (h : view.Covered) (hextents : Spanned view extents)
    (hk : k < (extents.get p).row) :
    exists c comp, view.format.component c = .ok comp ∧ comp.plane = p ∧
      k < view.columns c * comp.stride := by
  apply Classical.byContradiction
  intro hnone
  have hwithin : (extents.get p).Within ⟨(extents.get p).rows, k⟩ := by
    refine Format.extents_within h.width_pos hextents fun c comp hcomp hplane => ?_
    have hasked := (Format.asked_within_extents h.width_pos hextents hcomp).right
    rw [hplane] at hasked
    exact ⟨hasked.rows, Nat.not_lt.mp fun hlt => hnone ⟨c, comp, hcomp, hplane, hlt⟩⟩
  exact Nat.not_le.mpr hk hwithin.row

theorem inRows_of_planesInk {extents : PerPlane Extent} {address : Nat} {b : UInt8}
    (h : target.Covered) (hextents : Spanned target extents)
    (hdrawn : planesInk target source extents origin address b) : InRows target address := by
  rcases hdrawn with ⟨p, y, k, _, hy, hk, rfl, _⟩
  rcases exists_row_of_extents h hextents hk with ⟨c, comp, hcomp, rfl, hk'⟩
  have hstride := Format.stride_pos hcomp
  refine ⟨c, comp, k / comp.stride, y, k % comp.stride, hcomp,
    (Nat.div_lt_iff_lt_mul hstride).mpr hk',
    Nat.lt_of_lt_of_le hy (rows_le_lines h hextents hcomp), Nat.mod_lt k hstride, ?_⟩
  rw [Nat.div_add_mod']
  rfl

/-!
## All direct copies
-/

/-- The target matches the source, and outside its rows nothing has changed. -/
structure Copied (target source : View) (origin before after : Memory) : Prop where
  size : after.size = before.size
  content : target.Matches after source origin
  kept : forall address, ¬ InRows target address -> after.byte address = before.byte address

theorem Paired.copied_of_painted {before after : Memory} (h : Paired target source before.size)
    (hpainted : Painted (target.ink (source.content origin)) before after) :
    Copied target source origin before after :=
  ⟨hpainted.size,
    h.targetCovered.matches_of_painted h.sourceCovered h.writable h.alike h.width h.height
      hpainted,
    fun _ hout => hpainted.byte_of_free fun _ hink => hout (inRows_of_ink hink)⟩

/-- A direct copy answers, and it copies the source. -/
theorem copyDirectly_copied {before : Memory} (h : Paired target source before.size)
    (origin : Memory) :
    exists after, copyDirectly target source origin before = .ok after ∧
      Copied target source origin before after := by
  unfold copyDirectly
  split
  next hformat =>
    rcases h.sourceCovered.planes with ⟨extents, hextents, _⟩
    rcases paints_copyPlanes h hformat hextents origin before rfl with
      ⟨after, hafter, hpainted⟩
    have hspanned := h.spanned hformat hextents
    exact ⟨after, hafter, hpainted.size, matches_of_planesInk h hformat hextents hpainted,
      fun _ hout => hpainted.byte_of_free fun _ hink =>
        hout (inRows_of_planesInk h.targetCovered hspanned hink)⟩
  next =>
    rcases paints_copyComponents h origin before rfl with ⟨after, hafter, hpainted⟩
    exact ⟨after, hafter, h.copied_of_painted hpainted⟩

end Conversion
end RawVideo

import RawVideo.Proofs.Conversion.Direct
import RawVideo.Proofs.Memory.Vectors
import RawVideo.Conversion.Bounce

/-!
# Copies through a buffer

The blocks of a plane visit each of its rows once.  A block leaves its rows in the
buffer, one behind the other at multiples of the line length, and the samples that
are copied from there are those of the source.  So a bounced copy draws the content
of the source on the target, whatever the buffer held before.
-/

namespace RawVideo
namespace Conversion

variable {target source : View} {origin : Memory} {comp : Component} {features : Features}
variable {extents : PerPlane Extent} {p : PlaneIndex} {c size line : Nat}

/-!
## Blocks of rows
-/

/-- The rows of a block. -/
def rowsIn (block : Nat × Nat) : List Nat :=
  List.range' block.1 block.2

theorem flatMap_rowBlocks {step : Nat} (h : 0 < step) (start stop : Nat) :
    (rowBlocks step start stop).flatMap rowsIn = List.range' start (stop - start) := by
  fun_induction rowBlocks step start stop with
  | case1 start hmore ih =>
      have hsplit : stop - start =
          min step (stop - start) + (stop - (start + min step (stop - start))) := by
        omega
      rw [List.flatMap_cons, ih]
      unfold rowsIn
      rw [List.range'_append_1, ← hsplit]
  | case2 start hdone =>
      have hempty : stop - start = 0 := by omega
      rw [hempty]
      rfl

theorem bounds_of_mem_rowBlocks {step start stop : Nat} {block : Nat × Nat}
    (h : block ∈ rowBlocks step start stop) :
    start ≤ block.1 ∧ 0 < block.2 ∧ block.2 ≤ step ∧ block.1 + block.2 ≤ stop := by
  fun_induction rowBlocks step start stop with
  | case1 start hmore ih =>
      rcases List.mem_cons.mp h with rfl | hrest
      · omega
      · have hbounds := ih hrest
        omega
  | case2 start hdone => cases h

theorem mem_rows_iff {step : Nat} (h : 0 < step) (start stop y : Nat) :
    (exists block, block ∈ rowBlocks step start stop ∧
        exists i, i < block.2 ∧ y = block.1 + i) ↔ start ≤ y ∧ y < stop := by
  have hmem : y ∈ (rowBlocks step start stop).flatMap rowsIn ↔ start ≤ y ∧ y < stop := by
    rw [flatMap_rowBlocks h, List.mem_range'_1]
    omega
  rw [← hmem, List.mem_flatMap]
  unfold rowsIn
  constructor
  · intro h'
    rcases h' with ⟨block, hblock, i, hi, rfl⟩
    exact ⟨block, hblock, List.mem_range'_1.mpr ⟨by omega, by omega⟩⟩
  · intro h'
    rcases h' with ⟨block, hblock, hy⟩
    rw [List.mem_range'_1] at hy
    exact ⟨block, hblock, y - block.1, by omega, by omega⟩

/-!
## Lines of the buffer
-/

theorem le_lineLength (bytes : Nat) : bytes ≤ lineLength bytes :=
  le_roundUp (by decide)

theorem line_le {count i room : Nat} (hi : i < count) (hroom : count * line ≤ room) :
    i * line + line ≤ room := by
  have hnext : (i + 1) * line ≤ count * line := Nat.mul_le_mul_right line hi
  rw [Nat.succ_mul] at hnext
  omega

/-- The buffer holds the rows of a block of a plane. -/
def Fetched (source : View) (origin : Memory) (p : PlaneIndex) (bytes line : Nat)
    (block : Nat × Nat) (cache : Memory) : Prop :=
  forall i k, i < block.2 -> k < bytes ->
    cache.byte (i * line + k) =
      origin.byte ((source.planes.get p).start + (block.1 + i) * (source.planes.get p).pitch + k)

theorem paints_fetchRow {y count i room : Nat} (h : source.Covered)
    (hextents : Spanned source extents) (hp : p ∈ source.format.planes)
    (hline : (extents.get p).row ≤ line) (hrows : y + count ≤ (extents.get p).rows)
    (hroom : count * line ≤ room) (hi : i < count) :
    Paints room
      (fun cache => fetchRow features source origin p (extents.get p).row line y cache i)
      (Ink.copied origin (i * line)
        ((source.planes.get p).start + (y + i) * (source.planes.get p).pitch)
        (extents.get p).row) := by
  intro cache hcache
  have hrow := (row_le_plane (y := y + i) h hextents hp (by omega)).right
  have hlast := line_le hi hroom
  dsimp only [fetchRow]
  rw [Span.sub_of_le hrow, Checked.ok_bind,
    Span.suffix_of_le (show i * line ≤ cache.size by omega), Checked.ok_bind,
    Memory.streamCopy_eq]
  · refine ⟨_, rfl, ?_⟩
    rw [Nat.zero_add]
    exact Painted.write_read (by omega)
  · rw [Span.length_load]
    show (extents.get p).row ≤ cache.size - i * line
    omega

theorem fetched_of_fetchRow {block : Nat × Nat} {cache : Memory} (h : source.Covered)
    (hextents : Spanned source extents) (hp : p ∈ source.format.planes)
    (hline : (extents.get p).row ≤ line)
    (hrows : block.1 + block.2 ≤ (extents.get p).rows) (hroom : block.2 * line ≤ cache.size) :
    exists filled,
      (List.range block.2).foldlM
          (fetchRow features source origin p (extents.get p).row line block.1) cache =
        .ok filled ∧ filled.size = cache.size ∧
      Fetched source origin p (extents.get p).row line block filled := by
  have hstep : forall i, i ∈ List.range block.2 -> Paints cache.size
      (fun cache => fetchRow features source origin p (extents.get p).row line block.1 cache i)
      (Ink.copied origin (i * line)
        ((source.planes.get p).start + (block.1 + i) * (source.planes.get p).pitch)
        (extents.get p).row) :=
    fun i hi => paints_fetchRow h hextents hp hline hrows hroom (List.mem_range.mp hi)
  rcases Paints.foldlM hstep cache rfl with ⟨filled, hfilled, hpainted⟩
  refine ⟨filled, hfilled, hpainted.size, fun i k hi hk => ?_⟩
  refine hpainted.byte_of_ink ?_ ⟨i, List.mem_range.mpr hi, k, hk, rfl, rfl⟩
  intro address b b' h' hmem
  rcases h' with ⟨j, _, l, hl, haddress, rfl⟩
  rcases hmem with ⟨j', _, l', hl', haddress', rfl⟩
  have hinj := mul_add_inj (n := line) (a := l) (b := l') (x := j) (y := j') (by omega)
    (by omega) (by omega)
  rw [hinj.left, hinj.right]

/-!
## Spilling the buffer
-/

theorem offset_le_row (h : source.Covered) (hextents : Spanned source extents)
    (hcomp : source.format.component c = .ok comp) {x : Nat} (hx : x < source.columns c) :
    x * comp.stride + comp.offset + comp.bytes ≤ (extents.get comp.plane).row := by
  have hasked := (Format.asked_within_extents h.width_pos hextents hcomp).right
  have hrow := Component.sample_le_row (Format.offset_add_bytes_le hcomp) hx
  exact Nat.le_trans hrow hasked.row

theorem paints_spillRow {block : Nat × Nat} {cache : Memory} {i : Nat}
    (h : Paired target source size) (hextents : Spanned source extents)
    (hcomp : source.format.component c = .ok comp)
    (hline : (extents.get comp.plane).row ≤ line)
    (hfetched : Fetched source origin comp.plane (extents.get comp.plane).row line block cache)
    (hroom : block.2 * line ≤ cache.size) (hi : i < block.2)
    (hy : block.1 + i < source.lines c) :
    Paints size
      (fun memory =>
        spillRow target comp c (source.columns c) line block.1 cache memory i)
      (target.lineInk (source.content origin) c (block.1 + i)) := by
  have hlast := line_le hi hroom
  have hcolumns := source.columns_pos h.sourceCovered.width_pos c
  have hoffset := offset_le_row h.sourceCovered hextents hcomp hcolumns
  have hstop : i * line + comp.offset + ((i + 1) * line - (i * line + comp.offset)) =
      i * line + line := by
    rw [Nat.succ_mul]
    omega
  intro before hsize
  dsimp only [spillRow]
  rw [Span.sub_of_le (hstop.symm ▸ hlast), Checked.ok_bind]
  refine paints_copyLine h hcomp hy rfl (fun x hx => ?_) (fun x k hx hk => ?_) before hsize
  · have hrow := offset_le_row h.sourceCovered hextents hcomp hx
    show x * comp.stride + comp.bytes ≤ (i + 1) * line - (i * line + comp.offset)
    omega
  · have hrow := offset_le_row h.sourceCovered hextents hcomp hx
    have hbyte := hfetched i (x * comp.stride + comp.offset + k) hi (by omega)
    rw [View.content_eq hcomp]
    unfold View.address Component.position
    rw [show 0 + (i * line + comp.offset) + x * comp.stride + k =
      i * line + (x * comp.stride + comp.offset + k) by omega, hbyte]
    congr 1
    omega

/-- The rows of a block of one plane drawn on another view. -/
def blockInk (target source : View) (origin : Memory) (p : PlaneIndex) (block : Nat × Nat) : Ink :=
  fun address b => exists c comp i, source.format.component c = .ok comp ∧ comp.plane = p ∧
    i < block.2 ∧ block.1 + i < source.lines c ∧
    target.lineInk (source.content origin) c (block.1 + i) address b

theorem paints_spillComponent {block : Nat × Nat} {cache : Memory} {entry : Component × Nat}
    (h : Paired target source size) (hextents : Spanned source extents)
    (hline : (extents.get p).row ≤ line)
    (hfetched : Fetched source origin p (extents.get p).row line block cache)
    (hroom : block.2 * line ≤ cache.size)
    (hcomp : source.format.component entry.2 = .ok entry.1) :
    Paints size
      (fun memory => spillComponent target source p line block.1 block.2 cache memory entry)
      (fun address b => exists i, (i < min block.2 (source.lines entry.2 - block.1) ∧
        entry.1.plane = p) ∧
          target.lineInk (source.content origin) entry.2 (block.1 + i) address b) := by
  intro before hsize
  dsimp only [spillComponent]
  split
  next hplane =>
    subst hplane
    rw [h.sourceCovered.componentSize hcomp, Checked.ok_bind]
    have hrow : forall i, i ∈ List.range (min block.2 (source.lines entry.2 - block.1)) ->
        Paints size
          (fun memory =>
            spillRow target entry.1 entry.2 (source.columns entry.2) line block.1 cache memory i)
          (target.lineInk (source.content origin) entry.2 (block.1 + i)) := by
      intro i hi
      rw [List.mem_range] at hi
      exact paints_spillRow h hextents hcomp hline hfetched hroom (by omega) (by omega)
    refine (Paints.foldlM hrow).congr (fun address b => ?_) before hsize
    simp only [List.mem_range, and_true]
  next hplane =>
    refine ⟨before, rfl, Painted.refl before ?_⟩
    intro address b hdrawn
    rcases hdrawn with ⟨i, ⟨_, hsame⟩, _⟩
    exact hplane hsame

theorem paints_spillComponents {block : Nat × Nat} {cache : Memory}
    (h : Paired target source size) (hextents : Spanned source extents)
    (hline : (extents.get p).row ≤ line)
    (hfetched : Fetched source origin p (extents.get p).row line block cache)
    (hroom : block.2 * line ≤ cache.size) :
    Paints size
      (fun memory => source.format.components.zipIdx.foldlM
        (spillComponent target source p line block.1 block.2 cache) memory)
      (blockInk target source origin p block) := by
  apply (Paints.foldlM fun entry hentry => paints_spillComponent h hextents hline hfetched hroom
    (Format.mem_zipIdx_components.mp hentry)).congr
  intro address b
  unfold blockInk
  constructor
  · intro hdrawn
    rcases hdrawn with ⟨entry, hentry, i, ⟨hi, hplane⟩, hink⟩
    exact ⟨entry.2, entry.1, i, Format.mem_zipIdx_components.mp hentry, hplane, by omega,
      by omega, hink⟩
  · intro hdrawn
    rcases hdrawn with ⟨c, comp, i, hcomp, hplane, hi, hy, hink⟩
    have hrow : i < min block.2 (source.lines c - block.1) := by omega
    exact ⟨(comp, c), Format.mem_zipIdx_components.mpr hcomp, i, ⟨hrow, hplane⟩, hink⟩

/-!
## Blocks, planes and pictures
-/

theorem painted_bounceBlock {block : Nat × Nat} {work : Workspace}
    (h : Paired target source size) (hextents : Spanned source extents)
    (hp : p ∈ source.format.planes) (hline : (extents.get p).row ≤ line)
    (hrows : block.1 + block.2 ≤ (extents.get p).rows)
    (hroom : block.2 * line ≤ work.cache.size) (hsize : work.target.size = size) :
    exists done,
      bounceBlock features target source origin p (extents.get p).row line work block = .ok done ∧
        done.cache.size = work.cache.size ∧
        Painted (blockInk target source origin p block) work.target done.target := by
  rcases fetched_of_fetchRow h.sourceCovered hextents hp hline hrows hroom with
    ⟨filled, hfilled, hkept, hfetched⟩
  rcases paints_spillComponents h hextents hline hfetched (hkept.symm ▸ hroom) work.target hsize
    with ⟨memory, hmemory, hpainted⟩
  refine ⟨⟨filled, memory⟩, ?_, hkept, hpainted⟩
  dsimp only [bounceBlock] at hmemory ⊢
  rw [hfilled, Checked.ok_bind, hmemory]
  rfl

/-- The rows of one plane drawn on another view. -/
def planeInk (target source : View) (origin : Memory) (p : PlaneIndex) : Ink := fun address b =>
  exists c comp y, source.format.component c = .ok comp ∧ comp.plane = p ∧
    y < source.lines c ∧ target.lineInk (source.content origin) c y address b

theorem lines_le_rows (h : source.Covered) (hextents : Spanned source extents)
    (hcomp : source.format.component c = .ok comp) :
    source.lines c ≤ (extents.get comp.plane).rows :=
  (Format.asked_within_extents h.width_pos hextents hcomp).right.rows

theorem blocks_iff_plane {step address : Nat} {b : UInt8} (h : source.Covered)
    (hextents : Spanned source extents) (hstep : 0 < step) :
    (exists block, block ∈ rowBlocks step 0 (extents.get p).rows ∧
        blockInk target source origin p block address b) ↔
      planeInk target source origin p address b := by
  constructor
  · intro hdrawn
    rcases hdrawn with ⟨block, _, c, comp, i, hcomp, hplane, _, hy, hink⟩
    exact ⟨c, comp, block.1 + i, hcomp, hplane, hy, hink⟩
  · intro hdrawn
    rcases hdrawn with ⟨c, comp, y, hcomp, rfl, hy, hink⟩
    have hrows := lines_le_rows h hextents hcomp
    rcases (mem_rows_iff hstep 0 (extents.get comp.plane).rows y).mpr
      ⟨Nat.zero_le y, Nat.lt_of_lt_of_le hy hrows⟩ with ⟨block, hblock, i, hi, rfl⟩
    exact ⟨block, hblock, c, comp, i, hcomp, rfl, hi, hy, hink⟩

theorem row_pos (h : source.Covered) (hextents : Spanned source extents)
    (hp : p ∈ source.format.planes) : 0 < (extents.get p).row := by
  rcases Format.exists_component_on hp with ⟨c, comp, hcomp, rfl⟩
  have hoffset := offset_le_row h hextents hcomp (source.columns_pos h.width_pos c)
  have hbytes := comp.bytes_pos
  omega

theorem step_pos (cache : Memory) {extent : Extent} (hline : 0 < lineLength extent.row) :
    0 < stepOf cache extent := by
  unfold stepOf
  rw [Memory.size_reserve]
  exact Nat.div_pos (Nat.le_max_right _ _) hline

/-- No block is larger than the buffer. -/
theorem block_le_cache {cache : Memory} {extent : Extent} {block : Nat × Nat}
    (h : block ∈ rowBlocks (stepOf cache extent) 0 extent.rows) :
    block.2 * lineLength extent.row ≤ (Memory.reserve cache (lineLength extent.row)).size := by
  have hcount := (bounds_of_mem_rowBlocks h).right.right.left
  exact Nat.le_trans (Nat.mul_le_mul_right _ hcount) (Nat.div_mul_le_self _ _)

theorem painted_bouncePlane {work : Workspace} (h : Paired target source size)
    (hp : p ∈ source.format.planes) (hsize : work.target.size = size) :
    exists done, bouncePlane features target source origin work p = .ok done ∧
      done.target.size = size ∧
      Painted (planeInk target source origin p) work.target done.target := by
  rcases h.sourceCovered.planes with ⟨extents, hextents, _⟩
  have hle := le_lineLength (extents.get p).row
  have hrow := row_pos h.sourceCovered hextents hp
  have hline : 0 < lineLength (extents.get p).row := Nat.lt_of_lt_of_le hrow hle
  have hstep := step_pos work.cache hline
  -- The blocks keep the size of both memories.
  have hblock : forall block,
      block ∈ rowBlocks (stepOf work.cache (extents.get p)) 0 (extents.get p).rows ->
      forall before : Workspace,
        before.cache.size = (Memory.reserve work.cache (lineLength (extents.get p).row)).size ∧
            before.target.size = size ->
          exists after,
            bounceBlock features target source origin p (extents.get p).row
                (lineLength (extents.get p).row) before block = .ok after ∧
              (after.cache.size =
                  (Memory.reserve work.cache (lineLength (extents.get p).row)).size ∧
                after.target.size = size) ∧
              Painted (blockInk target source origin p block) before.target after.target := by
    intro block hmem before h'
    rcases h' with ⟨hcache, htarget⟩
    rcases bounds_of_mem_rowBlocks hmem with ⟨_, _, _, hstop⟩
    have hroom : block.2 * lineLength (extents.get p).row ≤ before.cache.size :=
      hcache ▸ block_le_cache hmem
    rcases painted_bounceBlock h hextents hp hle hstop hroom htarget with
      ⟨after, hafter, hkept, hpainted⟩
    exact ⟨after, hafter, ⟨hkept.trans hcache, hpainted.size.trans htarget⟩, hpainted⟩
  have hstart : (Workspace.mk (Memory.reserve work.cache (lineLength (extents.get p).row))
      work.target).cache.size =
        (Memory.reserve work.cache (lineLength (extents.get p).row)).size ∧
      work.target.size = size := ⟨rfl, hsize⟩
  rcases Painted.foldlM Workspace.target hblock hstart with
    ⟨done, hdone, ⟨_, htarget⟩, hpainted⟩
  refine ⟨done, ?_, htarget, hpainted.congr fun address b =>
    blocks_iff_plane h.sourceCovered hextents hstep⟩
  dsimp only [bouncePlane]
  rw [View.visibleExtent_eq h.sourceCovered.width_pos hextents p, Checked.ok_bind]
  exact hdone

theorem planes_iff_ink {address : Nat} {b : UInt8} (h : Paired target source size) :
    (exists p, p ∈ source.format.planes ∧ planeInk target source origin p address b) ↔
      target.ink (source.content origin) address b := by
  rw [View.ink_iff_line]
  constructor
  · intro hdrawn
    rcases hdrawn with ⟨p, _, c, comp, y, _, _, hy, hink⟩
    exact ⟨c, y, (h.lines_eq c).symm ▸ hy, hink⟩
  · intro hdrawn
    rcases hdrawn with ⟨c, y, hy, hink⟩
    have hlt : c < source.format.components.length := by
      rcases hink with ⟨into, x, i, hinto, _⟩
      rw [← h.alike.components]
      exact Format.lt_of_component hinto
    rcases Format.exists_component hlt with ⟨comp, hcomp⟩
    exact ⟨comp.plane, Format.plane_mem_planes hcomp, c, comp, y, hcomp, rfl,
      h.lines_eq c ▸ hy, hink⟩

/-- A bounced copy answers and draws the content of the source, whatever the buffer held. -/
theorem painted_bounce (work : Workspace) (h : Paired target source work.target.size)
    (features : Features) (origin : Memory) :
    exists done, bounce features target source origin work = .ok done ∧
      Painted (target.ink (source.content origin)) work.target done.target := by
  have hplane : forall p, p ∈ source.format.planes ->
      forall before : Workspace, before.target.size = work.target.size ->
        exists after, bouncePlane features target source origin before p = .ok after ∧
          after.target.size = work.target.size ∧
          Painted (planeInk target source origin p) before.target after.target :=
    fun p hp before hsize => painted_bouncePlane h hp hsize
  have hstart : (Workspace.mk
      (Memory.reserve work.cache (max smallestCache (roundUp target.width 16)))
      work.target).target.size = work.target.size := rfl
  rcases Painted.foldlM Workspace.target hplane hstart with
    ⟨done, hdone, _, hpainted⟩
  exact ⟨done, hdone, hpainted.congr fun address b => planes_iff_ink h⟩

end Conversion
end RawVideo

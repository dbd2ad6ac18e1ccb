import Mathlib.Data.List.Basic
import RawVideo.Proofs.Conversion.Direct
import RawVideo.Proofs.View.Store
import RawVideo.Stream.Frame

/-!
# Payloads

A payload lists a content, one byte for each byte of a visible sample, row by row.
Writing gives the content of a picture whether a row goes out at once or sample by
sample, and storing a row draws it on a view whether its samples lie together or apart.
-/

namespace RawVideo

variable {view other : View} {picture : Picture} {comp : Component} {c y size : Nat}
variable {content : Nat -> Nat -> Nat -> Nat -> UInt8}

namespace StreamFrame

/-!
## Bytes
-/

/-- A row of samples of `count` bytes: byte `k` is byte `k % count` of sample `k / count`. -/
def rowOfSamples (width count : Nat) (content : Nat -> Nat -> UInt8) : List UInt8 :=
  (List.range (width * count)).map fun k => content (k / count) (k % count)

/-- A content along a row of a view. -/
def rowContent (view : View) (content : Nat -> Nat -> Nat -> Nat -> UInt8)
    (row : Nat × Nat) : List UInt8 :=
  match view.format.component row.1 with
  | .ok comp => rowOfSamples (view.columns row.1) comp.bytes (content row.1 · row.2)
  | .error _ => []

/-- The visible rows of all components. -/
def visibleRows (view : View) : List (Nat × Nat) :=
  (List.range view.format.components.length).flatMap fun c =>
    (List.range (view.lines c)).map fun y => (c, y)

/-- The payload of a content. -/
def payload (view : View) (content : Nat -> Nat -> Nat -> Nat -> UInt8) : List UInt8 :=
  (visibleRows view).flatMap (rowContent view content)

/-- The ink that draws a content on rows of a view. -/
def rowsInk (view : View) (content : Nat -> Nat -> Nat -> Nat -> UInt8)
    (rows : List (Nat × Nat)) : Ink := fun address b =>
  exists row, row ∈ rows ∧ view.lineInk content row.1 row.2 address b

/-- The ink that lays bytes at the front of a row, where its samples have no gaps. -/
def tornInk (view : View) (row : Nat × Nat) (bytes : List UInt8) : Ink := fun address b =>
  exists comp, view.format.component row.1 = .ok comp ∧ comp.isContiguous = true ∧
    Ink.laid (view.address comp 0 row.2) bytes address b

/-- The marker line and the payload of a picture. -/
def encoding (picture : Picture) : List UInt8 :=
  ascii marker ++ newline :: payload picture.view (picture.view.content picture.memory)

theorem rowContent_eq (hcomp : view.format.component c = .ok comp) :
    rowContent view content (c, y) =
      rowOfSamples (view.columns c) comp.bytes (content c · y) := by
  unfold rowContent
  rw [hcomp]

theorem length_rowOfSamples (width count : Nat) (content : Nat -> Nat -> UInt8) :
    (rowOfSamples width count content).length = width * count := by
  unfold rowOfSamples
  rw [List.length_map, List.length_range]

theorem rowOfSamples_one (width : Nat) (content : Nat -> Nat -> UInt8) :
    rowOfSamples width 1 content = (List.range width).map fun x => content x 0 := by
  unfold rowOfSamples
  rw [Nat.mul_one]
  apply List.map_congr_left
  intro k _
  rw [Nat.div_one, Nat.mod_one]

theorem rowOfSamples_congr {width count : Nat} {row row' : Nat -> Nat -> UInt8}
    (h : forall x i, x < width -> i < count -> row x i = row' x i) :
    rowOfSamples width count row = rowOfSamples width count row' := by
  unfold rowOfSamples
  apply List.map_congr_left
  intro k hk
  have hlt := List.mem_range.mp hk
  have hpos : 0 < count := Nat.pos_of_lt_mul_left hlt
  exact h _ _ (Nat.div_lt_of_lt_mul (Nat.mul_comm width count ▸ hlt)) (Nat.mod_lt k hpos)

theorem getElem?_rowOfSamples {width count k : Nat} {content : Nat -> Nat -> UInt8} {b : UInt8} :
    (rowOfSamples width count content)[k]? = some b ↔
      k < width * count ∧ b = content (k / count) (k % count) := by
  unfold rowOfSamples
  rw [List.getElem?_map]
  constructor
  · intro h
    rcases Option.map_eq_some_iff.mp h with ⟨k', hk', hb⟩
    rcases List.getElem?_eq_some_iff.mp hk' with ⟨hlt, hget⟩
    rw [List.length_range] at hlt
    rw [List.getElem_range] at hget
    subst hget
    exact ⟨hlt, hb.symm⟩
  · intro h
    rcases h with ⟨hlt, rfl⟩
    rw [List.getElem?_range hlt]
    rfl

/-!
## Lengths
-/

/-- The bytes that a row takes in a payload. -/
def rowCount (view : View) (row : Nat × Nat) : Nat :=
  match view.format.component row.1 with
  | .ok comp => view.columns row.1 * comp.bytes
  | .error _ => 0

def rowsLength (view : View) : List (Nat × Nat) -> Nat
  | [] => 0
  | row :: rows => rowCount view row + rowsLength view rows

def payloadLength (view : View) : Nat :=
  rowsLength view (visibleRows view)

theorem rowCount_eq (hcomp : view.format.component c = .ok comp) :
    rowCount view (c, y) = view.columns c * comp.bytes := by
  unfold rowCount
  rw [hcomp]

theorem length_rowContent (view : View) (content : Nat -> Nat -> Nat -> Nat -> UInt8)
    (row : Nat × Nat) : (rowContent view content row).length = rowCount view row := by
  unfold rowContent rowCount
  cases view.format.component row.1 with
  | ok comp => exact length_rowOfSamples _ _ _
  | error fault => rfl

theorem length_payload (view : View) (content : Nat -> Nat -> Nat -> Nat -> UInt8) :
    (payload view content).length = payloadLength view := by
  unfold payload payloadLength
  induction visibleRows view with
  | nil => rfl
  | cons row rows ih =>
      rw [List.flatMap_cons, List.length_append, length_rowContent, ih]
      rfl

theorem encoding_eq (picture : Picture) :
    encoding picture = (ascii marker ++ [newline]) ++
      payload picture.view (picture.view.content picture.memory) := by
  unfold encoding
  rw [List.append_assoc]
  rfl

theorem length_encoding (picture : Picture) :
    (encoding picture).length = 6 + payloadLength picture.view := by
  rw [encoding_eq, List.length_append, length_payload]
  rfl

theorem rowContent_of_row {content' : Nat -> Nat -> Nat -> Nat -> UInt8} {row : Nat × Nat}
    (h : forall x i, content row.1 x row.2 i = content' row.1 x row.2 i) :
    rowContent view content row = rowContent view content' row := by
  have hrow : (content row.1 · row.2) = (content' row.1 · row.2) := by
    funext x i
    exact h x i
  unfold rowContent
  rw [hrow]

/-- Any bytes of the right number are a row. -/
theorem exists_rowContent {bytes : List UInt8} (hcomp : view.format.component c = .ok comp)
    (hlength : bytes.length = rowCount view (c, y)) :
    exists content, rowContent view content (c, y) = bytes := by
  refine ⟨fun _ x _ i => bytes.getD (x * comp.bytes + i) 0, ?_⟩
  rw [rowCount_eq hcomp] at hlength
  rw [rowContent_eq hcomp]
  unfold rowOfSamples
  apply List.ext_getElem
  · rw [List.length_map, List.length_range, hlength]
  · intro k hk hk'
    rw [List.getElem_map, List.getElem_range]
    dsimp only
    rw [Nat.div_add_mod', List.getElem_eq_getD 0]

/-!
## Visible rows
-/

theorem mem_visibleRows {row : Nat × Nat} :
    row ∈ visibleRows view ↔
      (exists comp, view.format.component row.1 = .ok comp) ∧ row.2 < view.lines row.1 := by
  unfold visibleRows
  rw [List.mem_flatMap]
  constructor
  · intro h
    rcases h with ⟨c, hc, hrow⟩
    rcases List.mem_map.mp hrow with ⟨y, hy, rfl⟩
    exact ⟨Format.exists_component (List.mem_range.mp hc), List.mem_range.mp hy⟩
  · intro h
    rcases h with ⟨⟨comp, hcomp⟩, hy⟩
    exact ⟨row.1, List.mem_range.mpr (Format.lt_of_component hcomp),
      List.mem_map.mpr ⟨row.2, List.mem_range.mpr hy, rfl⟩⟩

theorem nodup_visibleRows (view : View) : (visibleRows view).Nodup := by
  unfold visibleRows List.Nodup
  rw [List.pairwise_flatMap]
  constructor
  · intro c _
    rw [List.pairwise_map]
    exact List.nodup_range.imp fun hne heq => hne (congrArg Prod.snd heq)
  · refine List.nodup_range.imp fun hne row hrow row' hrow' heq => hne ?_
    rcases List.mem_map.mp hrow with ⟨_, _, rfl⟩
    rcases List.mem_map.mp hrow' with ⟨_, _, rfl⟩
    exact congrArg Prod.fst heq

/-- A content that is another one on a single row. -/
def onRow (row : Nat × Nat) (first content : Nat -> Nat -> Nat -> Nat -> UInt8)
    (c x y i : Nat) : UInt8 :=
  if (c, y) = row then first c x y i else content c x y i

/-- Any bytes of the right number are rows, where no row is there twice. -/
theorem exists_rowsContent {rows : List (Nat × Nat)} {bytes : List UInt8} (hnodup : rows.Nodup)
    (hrows : forall row, row ∈ rows -> row ∈ visibleRows view)
    (hlength : bytes.length = rowsLength view rows) :
    exists content, rows.flatMap (rowContent view content) = bytes := by
  induction rows generalizing bytes with
  | nil => exact ⟨fun _ _ _ _ => 0, (List.length_eq_zero_iff.mp hlength).symm⟩
  | cons row others ih =>
      rw [List.forall_mem_cons] at hrows
      rw [rowsLength] at hlength
      rcases List.nodup_cons.mp hnodup with ⟨hnot, hdistinct⟩
      rcases (mem_visibleRows.mp hrows.left).left with ⟨comp, hcomp⟩
      have htake : (bytes.take (rowCount view row)).length = rowCount view row := by
        rw [List.length_take_of_le (hlength ▸ Nat.le_add_right _ _)]
      have hdrop : (bytes.drop (rowCount view row)).length = rowsLength view others := by
        rw [List.length_drop, hlength, Nat.add_sub_cancel_left]
      rcases exists_rowContent hcomp htake with ⟨first, hfirst⟩
      rcases ih hdistinct hrows.right hdrop with ⟨content, hothers⟩
      have hhead : rowContent view (onRow row first content) row = rowContent view first row :=
        rowContent_of_row fun _ _ => if_pos rfl
      have htail : others.flatMap (rowContent view (onRow row first content)) =
          others.flatMap (rowContent view content) :=
        List.flatMap_congr fun other hother => rowContent_of_row fun _ _ =>
          if_neg fun (heq : other = row) => hnot (heq ▸ hother)
      refine ⟨onRow row first content, ?_⟩
      rw [List.flatMap_cons, hhead, htail, hfirst, hothers, List.take_append_drop]

theorem exists_payload {bytes : List UInt8} (hlength : bytes.length = payloadLength view) :
    exists content, payload view content = bytes :=
  exists_rowsContent (nodup_visibleRows view) (fun _ hrow => hrow) hlength

/-- Bytes that are too few for rows stop in one of them. -/
theorem exists_front {rows : List (Nat × Nat)} {count : Nat} (h : count < rowsLength view rows) :
    exists front row back, rows = front ++ row :: back ∧ rowsLength view front ≤ count ∧
      count < rowsLength view front + rowCount view row := by
  induction rows generalizing count with
  | nil => exact (Nat.not_lt_zero _ h).elim
  | cons row others ih =>
      rw [rowsLength] at h
      rcases Nat.lt_or_ge count (rowCount view row) with hshort | henough
      · refine ⟨[], row, others, rfl, Nat.zero_le _, ?_⟩
        rwa [rowsLength, Nat.zero_add]
      · rcases ih (Nat.sub_lt_left_of_lt_add henough h) with ⟨front, next, back, rfl, hle, hlt⟩
        refine ⟨row :: front, next, back, rfl, ?_, ?_⟩
        · rw [rowsLength]
          omega
        · rw [rowsLength]
          omega

theorem rows_eq (h : view.Covered) : rows view = .ok (visibleRows view) := by
  unfold rows visibleRows
  rw [Checked.mapM_eq_ok (g := fun c => (List.range (view.lines c)).map fun y => (c, y)),
    List.flatMap_def]
  · rfl
  · intro c hc
    rcases Format.exists_component (List.mem_range.mp hc) with ⟨comp, hcomp⟩
    rw [h.componentSize hcomp]
    rfl

theorem rowLength_eq (h : view.Covered) (hcomp : view.format.component c = .ok comp) :
    rowLength view c = .ok (view.columns c * comp.bytes) := by
  unfold rowLength
  rw [hcomp, Checked.ok_bind, h.componentSize hcomp]
  rfl

theorem rowLength_of_mem {row : Nat × Nat} (h : view.Covered) (hrow : row ∈ visibleRows view) :
    rowLength view row.1 = .ok (rowCount view row) := by
  rcases row with ⟨c, y⟩
  rcases (mem_visibleRows.mp hrow).left with ⟨comp, hcomp⟩
  rw [rowLength_eq h hcomp, rowCount_eq hcomp]

/-- What was drawn on a view is what it sends. -/
theorem payload_of_painted {before after : Memory} (h : view.Covered)
    (hwritable : view.Writable before.size) (hpainted : Painted (view.ink content) before after) :
    payload view (view.content after) = payload view content := by
  apply List.flatMap_congr
  intro row hrow
  rcases row with ⟨c, y⟩
  rcases mem_visibleRows.mp hrow with ⟨⟨comp, hcomp⟩, hy⟩
  rw [rowContent_eq hcomp, rowContent_eq hcomp]
  apply rowOfSamples_congr
  intro x i hx hi
  exact h.content_of_painted hwritable hpainted hcomp hx hy hi

/-!
## Writing
-/

theorem depth_eight_of_gaps {format : Format} (hcomp : format.component c = .ok comp)
    (hgaps : ¬ comp.isContiguous = true) : comp.depth = 8 :=
  (Format.isContiguous_or_depth_eight hcomp).resolve_left hgaps

theorem sample_of_depth_eight {x : Nat} (h : view.Covered)
    (hcomp : view.format.component c = .ok comp) (hdepth : comp.depth = 8)
    (hx : x < view.columns c) (hy : y < view.lines c) (memory : Memory) :
    view.sample memory c x y = .ok (view.content memory c x y 0).toNat := by
  have hlt := (view.content memory c x y 0).toNat_lt
  rw [h.sample hcomp hx hy, Component.bytes_of_depth_eight hdepth,
    Component.levels_of_depth_eight hdepth]
  have hread : memory.read (view.address comp x y) 1 = [view.content memory c x y 0] := by
    rw [View.content_eq hcomp]
    rfl
  rw [hread]
  exact congrArg Except.ok (Nat.mod_eq_of_lt hlt)

/-- Without gaps, the bytes of a row lie one behind the other. -/
theorem load_row_eq (hcomp : view.format.component c = .ok comp)
    (hcontiguous : comp.stride = comp.bytes) (memory : Memory) :
    Span.load ⟨view.address comp 0 y + 0, view.columns c * comp.bytes⟩ memory =
      rowContent view (view.content memory) (c, y) := by
  rw [rowContent_eq hcomp]
  apply List.map_congr_left
  intro k _
  have hsplit := Nat.div_add_mod' k comp.bytes
  have haddress : view.address comp (k / comp.bytes) y + k % comp.bytes =
      view.address comp 0 y + k := by
    rw [View.address_eq_row, hcontiguous, Nat.add_assoc, hsplit]
  dsimp only
  rw [View.content_eq hcomp, haddress]
  rfl

/-- Samples of eight bits are the bytes of a row, one after the other. -/
theorem flatMap_samples_eq (hcomp : view.format.component c = .ok comp) (hdepth : comp.depth = 8)
    (memory : Memory) :
    ((List.range (view.columns c)).map fun x => (view.content memory c x y 0).toNat).flatMap
        (toLittleEndian comp.bytes) =
      rowContent view (view.content memory) (c, y) := by
  have hbyte : forall x, toLittleEndian 1 (view.content memory c x y 0).toNat =
      [view.content memory c x y 0] := by
    intro x
    show [UInt8.ofNat _] = _
    rw [UInt8.ofNat_toNat]
  rw [rowContent_eq hcomp, Component.bytes_of_depth_eight hdepth, rowOfSamples_one,
    List.flatMap_map, List.map_eq_flatMap]
  simp only [hbyte]

theorem rowBytes_eq (h : picture.view.Covered)
    (hcomp : picture.view.format.component c = .ok comp) (hy : y < picture.view.lines c) :
    rowBytes picture c y =
      .ok (rowContent picture.view (picture.view.content picture.memory) (c, y)) := by
  unfold rowBytes Picture.format
  rw [hcomp, Checked.ok_bind, h.componentSize hcomp, Checked.ok_bind]
  dsimp only
  split
  next hcontiguous =>
    rw [Component.isContiguous_iff] at hcontiguous
    have hroom := Component.contiguous_le_rowSpan hcontiguous (picture.view.columns c)
    rw [h.rowSpan hcomp hy, Checked.ok_bind, Span.sub_of_le (by rw [Nat.zero_add]; exact hroom)]
    exact congrArg Except.ok (load_row_eq hcomp hcontiguous picture.memory)
  next hgaps =>
    have hdepth := depth_eight_of_gaps hcomp hgaps
    have hvalues : forall x, x ∈ List.range (picture.view.columns c) ->
        picture.sample c x y =
          .ok (picture.view.content picture.memory c x y 0).toNat :=
      fun x hx => sample_of_depth_eight h hcomp hdepth (List.mem_range.mp hx) hy picture.memory
    rw [Checked.mapM_eq_ok hvalues]
    exact congrArg Except.ok (flatMap_samples_eq hcomp hdepth picture.memory)

/-!
## Views of one size and kind
-/

theorem visibleRows_congr (hformat : view.format.Alike other.format)
    (hheight : view.height = other.height) : visibleRows view = visibleRows other := by
  unfold visibleRows
  rw [hformat.components]
  simp only [View.lines_eq_of_alike hformat hheight]

theorem rowContent_congr (hformat : view.format.Alike other.format)
    (hwidth : view.width = other.width) (row : Nat × Nat) :
    rowContent view content row = rowContent other content row := by
  rcases row with ⟨c, y⟩
  cases hcomp : view.format.component c with
  | ok comp =>
      rcases hformat.exists_component hcomp with ⟨second, hsecond⟩
      rw [rowContent_eq hcomp, rowContent_eq hsecond, hformat.bytes_eq hcomp hsecond,
        View.columns_eq_of_alike hformat hwidth]
  | error fault =>
      cases hsecond : other.format.component c with
      | ok second =>
          rcases hformat.symm.exists_component hsecond with ⟨comp, hok⟩
          rw [hcomp] at hok
          cases hok
      | error _ =>
          unfold rowContent
          rw [hcomp, hsecond]

/-- The payload of a content depends on the view only through its sizes. -/
theorem payload_congr (hformat : view.format.Alike other.format)
    (hwidth : view.width = other.width) (hheight : view.height = other.height) :
    payload view content = payload other content := by
  unfold payload
  rw [visibleRows_congr hformat hheight, funext (rowContent_congr hformat hwidth)]

theorem payloadLength_congr (hformat : view.format.Alike other.format)
    (hwidth : view.width = other.width) (hheight : view.height = other.height) :
    payloadLength view = payloadLength other := by
  have hpayload : payload view (fun _ _ _ _ => 0) = payload other (fun _ _ _ _ => 0) :=
    payload_congr hformat hwidth hheight
  rw [← length_payload view, hpayload, length_payload]

/-!
## Storing
-/

theorem values_eq (hdepth : comp.depth = 8) (width : Nat) (content : Nat -> Nat -> UInt8) :
    values comp (rowOfSamples width comp.bytes content) =
      (List.range width).map fun x => (content x 0).toNat := by
  unfold values
  rw [Component.bytes_of_depth_eight hdepth, if_pos rfl, rowOfSamples_one, List.map_map]
  rfl

theorem paints_put {x : Nat} {b : UInt8} (h : view.Covered) (hwritable : view.Writable size)
    (hcomp : view.format.component c = .ok comp) (hdepth : comp.depth = 8)
    (hx : x < view.columns c) (hy : y < view.lines c) :
    Paints size (fun memory => view.put c x y b.toNat memory)
      (Ink.laid (view.address comp x y) [b]) := by
  have hencoded : comp.encoded b.toNat = [b] := by
    unfold Component.encoded
    rw [Component.bytes_of_depth_eight hdepth, Component.levels_of_depth_eight hdepth,
      Nat.mod_eq_of_lt b.toNat_lt]
    show [UInt8.ofNat _] = _
    rw [UInt8.ofNat_toNat]
  rw [← hencoded]
  exact View.paints_put h hwritable hcomp hx hy b.toNat

/-- The content of a row laid on samples without gaps is the row drawn on them. -/
theorem laid_iff_line {address : Nat} {b : UInt8} (hcomp : view.format.component c = .ok comp)
    (hstride : comp.stride = comp.bytes) :
    Ink.laid (view.address comp 0 y)
        (rowOfSamples (view.columns c) comp.bytes (content c · y)) address b ↔
      view.lineInk content c y address b := by
  have hpos := comp.bytes_pos
  unfold Ink.laid View.lineInk
  constructor
  · intro hdrawn
    rcases hdrawn with ⟨k, haddress, hb⟩
    rcases getElem?_rowOfSamples.mp hb with ⟨hk, rfl⟩
    have hsplit := Nat.div_add_mod' k comp.bytes
    refine ⟨comp, k / comp.bytes, k % comp.bytes, hcomp,
      (Nat.div_lt_iff_lt_mul hpos).mpr hk, Nat.mod_lt k hpos, ?_, rfl⟩
    rw [View.address_eq_row, hstride, Nat.add_assoc, hsplit]
    exact haddress
  · intro hdrawn
    rcases hdrawn with ⟨second, x, i, hsecond, hx, hi, haddress, hb⟩
    rw [hcomp] at hsecond
    cases hsecond
    have hnext : (x + 1) * comp.bytes ≤ view.columns c * comp.bytes :=
      Nat.mul_le_mul_right _ hx
    rw [Nat.succ_mul] at hnext
    refine ⟨x * comp.bytes + i, ?_, getElem?_rowOfSamples.mpr ⟨by omega, ?_⟩⟩
    · rw [View.address_eq_row, hstride] at haddress
      omega
    · have hquotient : (x * comp.bytes + i) / comp.bytes = x := by
        rw [Nat.mul_comm, Nat.mul_add_div hpos, Nat.div_eq_of_lt hi, Nat.add_zero]
      have hrest : (x * comp.bytes + i) % comp.bytes = i := by
        rw [Nat.mul_add_mod_self_right, Nat.mod_eq_of_lt hi]
      rw [hquotient, hrest]
      exact hb

theorem mem_zipIdx_range {width : Nat} {f : Nat -> Nat} {entry : Nat × Nat} :
    entry ∈ ((List.range width).map f).zipIdx ↔ entry.2 < width ∧ entry.1 = f entry.2 := by
  rw [List.mem_zipIdx_iff_getElem?, List.getElem?_map]
  constructor
  · intro h
    rcases Option.map_eq_some_iff.mp h with ⟨x, hx, hvalue⟩
    rcases List.getElem?_eq_some_iff.mp hx with ⟨hlt, hget⟩
    rw [List.length_range] at hlt
    rw [List.getElem_range] at hget
    subst hget
    exact ⟨hlt, hvalue.symm⟩
  · intro h
    rcases h with ⟨hlt, hvalue⟩
    rw [List.getElem?_range hlt, hvalue]
    rfl

theorem laid_singleton {start address : Nat} {b b' : UInt8} :
    Ink.laid start [b] address b' ↔ address = start ∧ b' = b := by
  unfold Ink.laid
  constructor
  · intro hdrawn
    rcases hdrawn with ⟨i, haddress, hb⟩
    cases i with
    | zero =>
        cases hb
        exact ⟨haddress, rfl⟩
    | succ i => cases hb
  · intro hdrawn
    rcases hdrawn with ⟨haddress, rfl⟩
    exact ⟨0, haddress, rfl⟩

theorem paints_front {bytes : List UInt8} (h : view.Covered) (hwritable : view.Writable size)
    (hcomp : view.format.component c = .ok comp) (hcontiguous : comp.stride = comp.bytes)
    (hy : y < view.lines c) (hlength : bytes.length ≤ view.columns c * comp.bytes) :
    Paints size
      (fun memory => Span.store ⟨view.address comp 0 y, comp.rowSpan (view.columns c)⟩ 0 bytes
        memory)
      (Ink.laid (view.address comp 0 y) bytes) := by
  have hroom := Component.contiguous_le_rowSpan hcontiguous (view.columns c)
  have hstop := Conversion.row_stop_le h hwritable hcomp hy
  intro before hsize
  dsimp only [Span.store]
  rw [Span.sub_of_le (by rw [Nat.zero_add]; exact Nat.le_trans hlength hroom)]
  refine ⟨_, rfl, Painted.write ?_⟩
  show view.address comp 0 y + bytes.length ≤ before.size
  omega

theorem paints_store (h : view.Covered) (hwritable : view.Writable size)
    (hcomp : view.format.component c = .ok comp) (hcontiguous : comp.stride = comp.bytes)
    (hy : y < view.lines c) :
    Paints size
      (fun memory => Span.store ⟨view.address comp 0 y, comp.rowSpan (view.columns c)⟩ 0
        (rowContent view content (c, y)) memory)
      (view.lineInk content c y) := by
  rw [rowContent_eq hcomp]
  have hlength := Nat.le_of_eq (length_rowOfSamples (view.columns c) comp.bytes (content c · y))
  exact (paints_front h hwritable hcomp hcontiguous hy hlength).congr fun address b =>
    laid_iff_line hcomp hcontiguous

theorem paints_putRow (h : view.Covered) (hwritable : view.Writable size)
    (hcomp : view.format.component c = .ok comp) (hdepth : comp.depth = 8)
    (hy : y < view.lines c) :
    Paints size
      (fun memory => view.putRow c y (values comp (rowContent view content (c, y))) memory)
      (view.lineInk content c y) := by
  have hput : forall entry, entry ∈ ((List.range (view.columns c)).map fun x =>
        (content c x y 0).toNat).zipIdx ->
      Paints size (fun memory => view.put c entry.2 y entry.1 memory)
        (Ink.laid (view.address comp entry.2 y) [content c entry.2 y 0]) := by
    intro entry hentry
    rcases mem_zipIdx_range.mp hentry with ⟨hx, hvalue⟩
    rw [hvalue]
    exact paints_put h hwritable hcomp hdepth hx hy
  have hone := Component.bytes_of_depth_eight hdepth
  rw [rowContent_eq hcomp, values_eq hdepth]
  apply (Paints.foldlM hput).congr
  intro address b
  unfold View.lineInk
  constructor
  · intro hentry
    rcases hentry with ⟨entry, hentry, hink⟩
    rcases laid_singleton.mp hink with ⟨haddress, hb⟩
    exact ⟨comp, entry.2, 0, hcomp, (mem_zipIdx_range.mp hentry).left, comp.bytes_pos,
      haddress, hb⟩
  · intro hsample
    rcases hsample with ⟨second, x, i, hsecond, hx, hi, haddress, hb⟩
    rw [hcomp] at hsecond
    cases hsecond
    have hzero : i = 0 := by omega
    subst hzero
    exact ⟨((content c x y 0).toNat, x), mem_zipIdx_range.mpr ⟨hx, rfl⟩,
      laid_singleton.mpr ⟨haddress, hb⟩⟩

/-- Storing the content of a row draws it on that row. -/
theorem paints_storeRow (h : view.Covered) (hwritable : view.Writable size)
    (hcomp : view.format.component c = .ok comp) (hy : y < view.lines c) :
    Paints size (fun memory => storeRow view c y (rowContent view content (c, y)) memory)
      (view.lineInk content c y) := by
  intro before hsize
  dsimp only [storeRow]
  rw [hcomp, Checked.ok_bind]
  split
  next hcontiguous =>
    rw [h.rowSpan hcomp hy]
    exact paints_store h hwritable hcomp (Component.isContiguous_iff.mp hcontiguous) hy before
      hsize
  next hgaps =>
    exact paints_putRow h hwritable hcomp (depth_eight_of_gaps hcomp hgaps) hy before hsize

theorem tornInk_iff {bytes : List UInt8} {address : Nat} {b : UInt8}
    (hcomp : view.format.component c = .ok comp) :
    tornInk view (c, y) bytes address b ↔
      comp.isContiguous = true ∧ Ink.laid (view.address comp 0 y) bytes address b := by
  constructor
  · intro h
    rcases h with ⟨second, hsecond, hink⟩
    rw [hcomp] at hsecond
    cases hsecond
    exact hink
  · intro h
    exact ⟨comp, hcomp, h⟩

/-- A row that is not whole changes only if it is read in place, and then only at its front. -/
theorem paints_tearRow {bytes : List UInt8} (h : view.Covered) (hwritable : view.Writable size)
    (hcomp : view.format.component c = .ok comp) (hy : y < view.lines c)
    (hlength : bytes.length ≤ rowCount view (c, y)) :
    Paints size (tearRow view c y bytes) (tornInk view (c, y) bytes) := by
  rw [rowCount_eq hcomp] at hlength
  intro before hsize
  unfold tearRow
  rw [hcomp, Checked.ok_bind]
  split
  next hcontiguous =>
    have hstride := Component.isContiguous_iff.mp hcontiguous
    have hink : forall address b, Ink.laid (view.address comp 0 y) bytes address b ↔
        tornInk view (c, y) bytes address b := by
      intro address b
      rw [tornInk_iff hcomp, and_iff_right hcontiguous]
    rw [h.rowSpan hcomp hy]
    exact (paints_front h hwritable hcomp hstride hy hlength).congr hink before hsize
  next hgaps =>
    have hfree : forall address b, ¬ tornInk view (c, y) bytes address b := by
      intro address b htorn
      exact hgaps ((tornInk_iff hcomp).mp htorn).left
    exact ⟨before, rfl, Painted.refl before hfree⟩

end StreamFrame
end RawVideo

import RawVideo.Proofs.Conversion.Agreement

/-!
# Conversions of fields

Converting a field copies the lines of the field and leaves every other visible sample
alone.  So converting fields one after the other leaves the samples of the source on the
lines that some field has, whatever the order.  Both fields together have every line of
a frame of even height, but not the last one of a frame of odd height.
-/

namespace RawVideo

/-!
## Same samples
-/

namespace Picture

/-- A sample has the same stored bytes and the same value in two pictures. -/
def AgreesAt (picture other : Picture) (c x y : Nat) : Prop :=
  picture.view.stored picture.memory c x y = other.view.stored other.memory c x y ∧
    picture.sample c x y = other.sample c x y

theorem agreesAt_of_stored {view : View} {memory other : Memory} {c x y : Nat}
    (h : view.stored memory c x y = view.stored other c x y) :
    AgreesAt ⟨view, memory⟩ ⟨view, other⟩ c x y := by
  refine ⟨h, ?_⟩
  show view.sample memory c x y = view.sample other c x y
  rw [View.sample_of_stored, View.sample_of_stored, h]

theorem agreesAt_of_alike {picture other : Picture} {comp : Component} {c x y : Nat}
    (halike : picture.view.format.Alike other.view.format)
    (hcomp : picture.view.format.component c = .ok comp)
    (h : picture.view.stored picture.memory c x y = other.view.stored other.memory c x y) :
    AgreesAt picture other c x y := by
  refine ⟨h, ?_⟩
  rcases halike.exists_component hcomp with ⟨second, hsecond⟩
  have hlevels : comp.levels = second.levels := by
    unfold Component.levels
    rw [halike.depth_eq hcomp hsecond]
  show picture.view.sample picture.memory c x y = other.view.sample other.memory c x y
  rw [View.sample_of_stored, View.sample_of_stored, hcomp, hsecond, h, Checked.ok_bind,
    Checked.ok_bind, hlevels]

end Picture

namespace Conversion

variable {view target source into part derived : View} {origin before after : Memory}
variable {comp : Component} {field : Field} {path : List Step} {c x y i size : Nat}

/-!
## Rows of parts
-/

theorem inRows_within {address : Nat} (h : derived.Ample) (hin : InRows derived address) :
    exists c comp x y k, derived.format.component c = .ok comp ∧ x < derived.columns c ∧
      y < derived.lines c ∧ k < comp.stride ∧
      address = derived.spot comp.plane y (x * comp.stride + k) ∧
      (derived.planes.get comp.plane).start ≤ address ∧
      address < (derived.planes.get comp.plane).stop := by
  rcases hin with ⟨c, comp, x, y, k, hcomp, hx, hy, hk, rfl⟩
  have hnext : (x + 1) * comp.stride ≤ derived.columns c * comp.stride :=
    Nat.mul_le_mul_right _ hx
  rw [Nat.succ_mul] at hnext
  have hlast := View.sample_le_rows (derived.planes.get comp.plane).pitch hy hnext
  have hlength := h.rows c comp hcomp
  refine ⟨c, comp, x, y, k, hcomp, hx, hy, hk, rfl, ?_, ?_⟩
  · unfold View.spot
    omega
  · unfold View.spot Span.stop
    omega

/-- A visible byte that lies in the rows of a part is a byte of a row that the part takes. -/
theorem origin_of_inRows (h : view.Covered) (hwritable : view.Writable size)
    (hpath : Attempt.Answers (view.derive path) derived)
    (hcomp : view.format.component c = .ok comp) (hx : x < view.columns c)
    (hy : y < view.lines c) (hi : i < comp.bytes)
    (hin : InRows derived (view.address comp x y + i)) :
    exists d other x' y' k, view.format.component d = .ok other ∧ other.plane = comp.plane ∧
      x' < derived.columns d ∧ y' < derived.lines d ∧ k < other.stride ∧
      y = View.originLine view.format d path y' ∧
      x * comp.stride + comp.offset + i =
        View.originColumn view.format d path x' * other.stride + k := by
  rcases View.ample_of_derive h.ample hpath with ⟨hample, hpart⟩
  rcases inRows_within hample hin with
    ⟨d, other, x', y', k, hother, hx', hy', hk, haddress, hstart, hstop⟩
  rw [hpart.format] at hother
  have hwithin := h.address_within hcomp hx hy hi
  by_cases hplane : other.plane = comp.plane
  · have hcolumn := View.column_lt_of_derive h.ample hpath hother hx'
    have hnext : (View.originColumn view.format d path x' + 1) * other.stride ≤
        view.columns d * other.stride := Nat.mul_le_mul_right _ hcolumn
    rw [Nat.succ_mul] at hnext
    have hpitch := h.row_le_pitch hother
    have hlt := h.offset_lt_pitch hcomp hx hi
    rw [View.spot_of_derive h.ample hpath hother] at haddress
    unfold View.address Component.position View.spot at haddress
    rw [hplane] at haddress hpitch
    -- The pitch separates the rows of the plane.
    have hinj := mul_add_inj (n := (view.planes.get comp.plane).pitch) (x := y)
      (y := View.originLine view.format d path y') hlt
      (b := View.originColumn view.format d path x' * other.stride + k) (by omega) (by omega)
    exact ⟨d, other, x', y', k, hother, hplane, hx', hy', hk, hinj.left, hinj.right⟩
  · have hp := Format.plane_mem_planes hother
    have hstart' := hpart.start other.plane hp
    have hstop' := hpart.stop other.plane hp
    rcases hwritable.apart other.plane comp.plane hp (Format.plane_mem_planes hcomp) hplane with
      hle | hle <;> omega

/-!
## Lines of a field
-/

/-- A line of a component that a field of a view has. -/
def HasLine (view : View) (field : Field) (c y : Nat) : Prop :=
  exists k, k < view.format.lines c (view.height / 2) ∧ y = field.line k

theorem hasLine_iff :
    HasLine view field c y ↔
      y % 2 = field.line 0 ∧ y / 2 < view.format.lines c (view.height / 2) := by
  have hline : forall k, y = field.line k ↔ y % 2 = field.line 0 ∧ y / 2 = k := by
    intro k
    cases field with
    | top =>
        show y = 2 * k ↔ y % 2 = 0 ∧ y / 2 = k
        omega
    | bottom =>
        show y = 2 * k + 1 ↔ y % 2 = 1 ∧ y / 2 = k
        omega
  constructor
  · intro h
    rcases h with ⟨k, hk, hy⟩
    rcases (hline k).mp hy with ⟨hparity, rfl⟩
    exact ⟨hparity, hk⟩
  · intro h
    exact ⟨y / 2, h.right, (hline (y / 2)).mpr ⟨h.left, rfl⟩⟩

theorem exists_hasLine_iff :
    (exists field, HasLine view field c y) ↔
      y / 2 < view.format.lines c (view.height / 2) := by
  constructor
  · intro h
    rcases h with ⟨field, hline⟩
    exact (hasLine_iff.mp hline).right
  · intro h
    rcases Nat.mod_two_eq_zero_or_one y with heven | hodd
    · exact ⟨.top, hasLine_iff.mpr ⟨heven, h⟩⟩
    · exact ⟨.bottom, hasLine_iff.mpr ⟨hodd, h⟩⟩

/-- The fields of an even frame have all its lines, chroma halved or not. -/
theorem half_line_lt (hheight : view.height % 2 = 0) (hy : y < view.lines c) :
    y / 2 < view.format.lines c (view.height / 2) := by
  unfold View.lines Format.lines at hy
  unfold Format.lines
  rcases Nat.le_one_iff_eq_zero_or_eq_one.mp (view.format.shiftsOf_le_one c).right with
    hzero | hone
  · rw [hzero, shrunk_zero] at hy ⊢
    omega
  · rw [hone, shrunk_one] at hy ⊢
    omega

theorem hasLine_of_inRows (h : view.Covered) (hwritable : view.Writable size)
    (hfield : Attempt.Answers (view.field field) part)
    (hcomp : view.format.component c = .ok comp) (hx : x < view.columns c)
    (hy : y < view.lines c) (hi : i < comp.bytes)
    (hin : InRows part (view.address comp x y + i)) : HasLine view field c y := by
  have hpath : Attempt.Answers (view.derive [.field field]) part :=
    View.answers_derive_single.mpr hfield
  rcases origin_of_inRows h hwritable hpath hcomp hx hy hi hin with
    ⟨d, other, x', y', k, hother, hplane, _, hy', _, hline, _⟩
  rw [View.lines_of_field hfield, Format.lines_eq_of_plane hother hcomp hplane] at hy'
  exact ⟨y', hy', hline⟩

theorem stored_of_field {k : Nat} (h : view.Covered)
    (hfield : Attempt.Answers (view.field field) part)
    (hcomp : view.format.component c = .ok comp) (hx : x < view.columns c)
    (hk : k < view.format.lines c (view.height / 2)) (hy : field.line k < view.lines c)
    (memory : Memory) :
    part.stored memory c x k = view.stored memory c x (field.line k) := by
  have hpath : Attempt.Answers (view.derive [.field field]) part :=
    View.answers_derive_single.mpr hfield
  rw [← View.columns_of_field hfield] at hx
  rw [← View.lines_of_field hfield] at hk
  exact View.stored_of_derive h.ample hpath hcomp hx hk hy memory

/-- A copy of one field onto another: the lines of the field are copied, the others kept. -/
theorem stored_of_copied_field (h : Convertible target source before.size)
    (hpart : Attempt.Answers (source.field field) part)
    (hinto : Attempt.Answers (target.field field) into)
    (hcopied : Copied into part origin before after) (hvisible : target.Visible c x y) :
    (HasLine target field c y -> target.stored after c x y = source.stored origin c x y) ∧
      (¬ HasLine target field c y ->
        target.stored after c x y = target.stored before c x y) := by
  rcases h.targetCovered.visible_iff.mp hvisible with ⟨⟨comp, hcomp⟩, hx, hy⟩
  constructor
  · intro hline
    rcases hline with ⟨k, hk, rfl⟩
    rcases h.paired.alike.exists_component hcomp with ⟨second, hsecond⟩
    have hx' : x < source.columns c := h.paired.columns_eq c ▸ hx
    have hy' : field.line k < source.lines c := h.paired.lines_eq c ▸ hy
    have hk' : k < source.format.lines c (source.height / 2) := by
      rw [← h.height, ← h.paired.alike.lines_eq]
      exact hk
    have hpart' := View.covered_of_field hpart
    have hvisible' : part.Visible c x k := by
      refine hpart'.visible_iff.mpr ⟨⟨second, ?_⟩, ?_, ?_⟩
      · rw [View.format_of_field hpart]
        exact hsecond
      · rw [View.columns_of_field hpart]
        exact hx'
      · rw [View.lines_of_field hpart]
        exact hk'
    rcases hcopied.content.stored c x k hvisible' with ⟨_, bytes, hstored, hstored'⟩
    rw [stored_of_field h.targetCovered hinto hcomp hx hk hy] at hstored
    rw [stored_of_field h.sourceCovered hpart hsecond hx' hk' hy'] at hstored'
    rw [hstored, hstored']
  · intro hnone
    rw [h.targetCovered.stored hcomp hx hy, h.targetCovered.stored hcomp hx hy]
    refine congrArg Except.ok (Memory.read_congr fun i hi => hcopied.kept _ fun hin => hnone ?_)
    exact hasLine_of_inRows h.targetCovered h.writable hinto hcomp hx hy hi hin

end Conversion

namespace Converter

open Conversion

variable {target source : View} {origin : Memory} {job done : Job} {field : Field}
variable {uncached : Bool} {outcome : Except Error Unit} {size : Nat}

/-!
## Runs
-/

/-- A conversion of a field reports an error and changes nothing, or it copies the field. -/
theorem convertField_eq_ok (h : Convertible target source job.target.size)
    (hrun : (convertField uncached target source origin field).run job = .ok (outcome, done)) :
    (done = job ∧ outcome ≠ .ok ()) ∨
      exists part into, Attempt.Answers (source.field field) part ∧
        Attempt.Answers (target.field field) into ∧ outcome = .ok () ∧
        Copied into part origin job.target done.target := by
  unfold convertField at hrun
  rcases Action.bind_eq_ok hrun with ⟨error, hreports, rfl⟩ | ⟨part, next, hpart, hrest⟩
  · exact Or.inl ⟨(Action.ofAttempt_eq_ok hreports).right, nofun⟩
  · rcases Action.ofAttempt_eq_ok hpart with ⟨hpart', rfl⟩
    rcases Action.bind_eq_ok hrest with ⟨error, hreports, rfl⟩ | ⟨into, next', hinto, hframe⟩
    · exact Or.inl ⟨(Action.ofAttempt_eq_ok hreports).right, nofun⟩
    · rcases Action.ofAttempt_eq_ok hinto with ⟨hinto', rfl⟩
      rcases convertFrame_copied (convertible_of_field h hinto' hpart') uncached origin with
        ⟨after, hafter, hcopied⟩
      rw [hafter] at hframe
      cases hframe
      exact Or.inr ⟨part, into, hpart', hinto', rfl, hcopied⟩

/-- What every copy of a field keeps, a run over fields keeps, also where it ends in an error. -/
theorem forM_convertField_keeps {P : Memory -> Prop} {fields : List Field}
    (h : Convertible target source job.target.size)
    (hstep : forall field, field ∈ fields -> forall part into before after,
      Convertible target source before.size -> Attempt.Answers (source.field field) part ->
        Attempt.Answers (target.field field) into -> Copied into part origin before after ->
          P before -> P after)
    (hrun : (fields.forM (convertField uncached target source origin)).run job =
      .ok (outcome, done)) (hjob : P job.target) : P done.target := by
  induction fields generalizing job with
  | nil =>
      cases hrun
      exact hjob
  | cons field rest ih =>
      rw [List.forall_mem_cons] at hstep
      rcases Action.bind_eq_ok hrun with ⟨error, hreports, rfl⟩ | ⟨_, next, hfirst, hrest⟩
      · rcases convertField_eq_ok h hreports with ⟨rfl, _⟩ | ⟨_, _, _, _, hanswers, _⟩
        · exact hjob
        · cases hanswers
      · rcases convertField_eq_ok h hfirst with ⟨_, hno⟩ | ⟨part, into, hpart, hinto, _, hcopied⟩
        · exact (hno rfl).elim
        · exact ih (hcopied.size.symm ▸ h) hstep.right hrest
            (hstep.left part into _ _ h hpart hinto hcopied hjob)

theorem forM_convertField_stored {fields : List Field} {c x y : Nat}
    (h : Convertible target source job.target.size)
    (hrun : (fields.forM (convertField uncached target source origin)).run job =
      .ok (outcome, done)) (hvisible : target.Visible c x y)
    (hnone : forall field, field ∈ fields -> ¬ HasLine target field c y) :
    target.stored done.target c x y = target.stored job.target c x y := by
  refine forM_convertField_keeps
    (P := fun memory => target.stored memory c x y = target.stored job.target c x y) h ?_ hrun rfl
  intro field hfield part into before after hbefore hpart hinto hcopied hkept
  have hstep := (stored_of_copied_field hbefore hpart hinto hcopied hvisible).right
  exact (hstep (hnone field hfield)).trans hkept

/-- A run over fields that answers has copied the first one, and answers for the others. -/
theorem forM_convertField_cons {rest : List Field} (h : Convertible target source job.target.size)
    (hrun : Action.Answers ((field :: rest).forM (convertField uncached target source origin)) job
      () done) :
    exists part into next, Attempt.Answers (source.field field) part ∧
      Attempt.Answers (target.field field) into ∧ Copied into part origin job.target next.target ∧
      Convertible target source next.target.size ∧
      Action.Answers (rest.forM (convertField uncached target source origin)) next () done := by
  rcases Action.bind_eq_ok hrun with ⟨error, _, hno⟩ | ⟨_, next, hfirst, hrest⟩
  · cases hno
  · rcases convertField_eq_ok h hfirst with ⟨_, hno⟩ | ⟨part, into, hpart, hinto, _, hcopied⟩
    · exact (hno rfl).elim
    · exact ⟨part, into, next, hpart, hinto, hcopied, hcopied.size.symm ▸ h, hrest⟩

/-- A run over fields that answers leaves the source on the lines that some field has. -/
theorem forM_convertField_copies {fields : List Field} {c x y : Nat}
    (h : Convertible target source job.target.size)
    (hrun : Action.Answers (fields.forM (convertField uncached target source origin)) job ()
      done) (hvisible : target.Visible c x y)
    (hsome : exists field, field ∈ fields ∧ HasLine target field c y) :
    target.stored done.target c x y = source.stored origin c x y := by
  induction fields generalizing job with
  | nil =>
      rcases hsome with ⟨field, hfield, _⟩
      cases hfield
  | cons field rest ih =>
      rcases forM_convertField_cons h hrun with
        ⟨part, into, next, hpart, hinto, hcopied, hnext, hrest⟩
      -- A line that a later field has is copied then, and the others stay copied.
      by_cases hlater : exists field, field ∈ rest ∧ HasLine target field c y
      · exact ih hnext hrest hlater
      · have hnone : forall field, field ∈ rest -> ¬ HasLine target field c y :=
          fun field hfield hline => hlater ⟨field, hfield, hline⟩
        have hline : HasLine target field c y := by
          rcases hsome with ⟨field', hfield', hline⟩
          rcases List.mem_cons.mp hfield' with rfl | hmem
          · exact hline
          · exact (hnone field' hmem hline).elim
        have hstep := stored_of_copied_field h hpart hinto hcopied hvisible
        exact (forM_convertField_stored hnext hrest hvisible hnone).trans (hstep.left hline)

theorem forM_convertField_answers {fields : List Field}
    (h : Convertible target source job.target.size)
    (hfields : forall field, field ∈ fields ->
      (exists part, Attempt.Answers (source.field field) part) ∧
        exists into, Attempt.Answers (target.field field) into) :
    exists done,
      Action.Answers (fields.forM (convertField uncached target source origin)) job () done := by
  induction fields generalizing job with
  | nil => exact ⟨job, rfl⟩
  | cons field rest ih =>
      rw [List.forall_mem_cons] at hfields
      rcases hfields with ⟨⟨⟨part, hpart⟩, into, hinto⟩, hrest⟩
      rcases convertFrame_copied (convertible_of_field h hinto hpart) uncached origin with
        ⟨next, hnext, hcopied⟩
      rcases ih (hcopied.size.symm ▸ h) hrest with ⟨done, hdone⟩
      have hfirst : Action.Answers (convertField uncached target source origin field) job ()
          next :=
        (Action.answers_ofAttempt hpart job).bind ((Action.answers_ofAttempt hinto job).bind hnext)
      exact ⟨done, hfirst.bind hdone⟩

/-!
## Both fields
-/

/-- Both fields of a view can be taken. -/
def Splits (view : View) : Prop :=
  forall field, exists part, Attempt.Answers (view.field field) part

/--
Converting both fields leaves what converting the frame leaves on every line that is in
a field, and these are all lines of a frame of even height.  A line in neither field
keeps its samples.
-/
theorem both_fields_convert_their_lines (target : View) (source : Picture) (job other : Job)
    (uncached uncached' : Bool) (h : Convertible target source.view job.target.size)
    (htarget : Splits target) (hsource : Splits source.view)
    (hmemory : other.target = job.target) :
    exists done done',
      Action.Answers (convert ⟨true, true, uncached⟩ target source) job () done ∧
      Action.Answers (convert ⟨false, false, uncached'⟩ target source) other () done' ∧
      forall c x y, target.Visible c x y ->
        (y / 2 < target.format.lines c (target.height / 2) ->
          Picture.AgreesAt ⟨target, done.target⟩ ⟨target, done'.target⟩ c x y) ∧
        (target.format.lines c (target.height / 2) ≤ y / 2 ->
          Picture.AgreesAt ⟨target, done.target⟩ ⟨target, job.target⟩ c x y) ∧
        (target.height % 2 = 0 -> y / 2 < target.format.lines c (target.height / 2)) := by
  have hchroma := (alike_of_supported h.supported).chroma
  have hfields := convert_fields ⟨true, true, uncached⟩ h.width h.height hchroma nofun
  have hruns : exists done, Action.Answers
      ([Field.top, Field.bottom].forM (convertField uncached target source.view source.memory))
      job () done :=
    forM_convertField_answers h fun field _ => ⟨hsource field, htarget field⟩
  rcases hruns with ⟨done, hdone⟩
  rcases convert_copied other (hmemory.symm ▸ h) uncached' with ⟨done', hdone', hcopied⟩
  refine ⟨done, done', hfields ▸ hdone, hdone', fun c x y hvisible => ⟨?_, ?_, ?_⟩⟩
  · intro hline
    rcases exists_hasLine_iff.mpr hline with ⟨field, hline⟩
    apply Picture.agreesAt_of_stored
    have hin : field ∈ [Field.top, Field.bottom] := by
      cases field <;> decide
    have hboth := forM_convertField_copies h hdone hvisible ⟨field, hin, hline⟩
    have hvisible' := h.paired.visible_iff.mp hvisible
    rcases hcopied.content.stored c x y hvisible' with ⟨_, bytes, hstored, hstored'⟩
    rw [hboth, hstored, hstored']
  · intro hnone
    apply Picture.agreesAt_of_stored
    refine forM_convertField_stored h hdone hvisible fun field _ hline => ?_
    exact Nat.not_lt.mpr hnone (exists_hasLine_iff.mp ⟨field, hline⟩)
  · intro heven
    exact half_line_lt heven (h.targetCovered.visible_iff.mp hvisible).right.right

/-- Five rows on two and on three planes: the fields lack the last one, of luma and of chroma. -/
theorem both_fields_convert_their_lines_nv12 :
    exists nv12 i420 : View,
      Attempt.Answers (View.ofPlanes .nv12 3 5 [15, 12] [3, 4]) nv12 ∧
      Attempt.Answers (View.ofPlanes .i420 3 5 [15, 6, 6] [3, 2, 2]) i420 ∧
      exists done done',
        Action.Answers (convert ⟨true, true, true⟩ i420 ⟨nv12, Array.replicate 27 1⟩)
          ⟨new ⟨true, true⟩, Memory.zeros 27⟩ () done ∧
        Action.Answers (convert ⟨false, false, false⟩ i420 ⟨nv12, Array.replicate 27 1⟩)
          ⟨new ⟨false, false⟩, Memory.zeros 27⟩ () done' ∧
        Picture.AgreesAt ⟨i420, done.target⟩ ⟨i420, done'.target⟩ 0 2 3 ∧
        Picture.AgreesAt ⟨i420, done.target⟩ ⟨i420, done'.target⟩ 2 1 1 ∧
        Picture.AgreesAt ⟨i420, done.target⟩ ⟨i420, Memory.zeros 27⟩ 0 2 4 := by
  have hnv12 : Attempt.Answers (View.ofPlanes .nv12 3 5 [15, 12] [3, 4])
      ⟨.nv12, 3, 5, #v[⟨⟨0, 15⟩, 3⟩, ⟨⟨15, 12⟩, 4⟩, Plane.none, Plane.none]⟩ := rfl
  have hi420 : Attempt.Answers (View.ofPlanes .i420 3 5 [15, 6, 6] [3, 2, 2])
      ⟨.i420, 3, 5, #v[⟨⟨0, 15⟩, 3⟩, ⟨⟨15, 6⟩, 2⟩, ⟨⟨21, 6⟩, 2⟩, Plane.none]⟩ := rfl
  have hcovered := View.covered_of_ofPlanes hi420
  have hwritable := View.writable_of_ofPlanes hi420 (show _ ≤ 27 by decide)
  have hconvertible : Convertible _ _ (Memory.zeros 27).size :=
    ⟨hcovered, View.covered_of_ofPlanes hnv12, Memory.size_zeros 27 ▸ hwritable, rfl, rfl,
      by decide⟩
  rcases both_fields_convert_their_lines _ ⟨_, Array.replicate 27 1⟩
    ⟨new ⟨true, true⟩, Memory.zeros 27⟩ ⟨new ⟨false, false⟩, Memory.zeros 27⟩ true false
    hconvertible (fun field => by cases field <;> exact ⟨_, rfl⟩)
    (fun field => by cases field <;> exact ⟨_, rfl⟩) rfl with
    ⟨done, done', hdone, hdone', hlines⟩
  have hvisible : forall {c x y comp}, Format.component .i420 c = .ok comp ->
      x < Format.columns .i420 c 3 -> y < Format.lines .i420 c 5 ->
        View.Visible ⟨.i420, 3, 5, _⟩ c x y :=
    fun hcomp hx hy => hcovered.visible_iff.mpr ⟨⟨_, hcomp⟩, hx, hy⟩
  refine ⟨_, _, hnv12, hi420, done, done', hdone, hdone', ?_, ?_, ?_⟩
  · exact (hlines 0 2 3 (hvisible rfl (by decide) (by decide))).left (by decide)
  · exact (hlines 2 1 1 (hvisible rfl (by decide) (by decide))).left (by decide)
  · exact (hlines 0 2 4 (hvisible rfl (by decide) (by decide))).right.left (by decide)

/-- Of three rows the last one is in neither field, and only the frame conversion copies it. -/
theorem both_fields_leave_the_last_line :
    exists view : View, Attempt.Answers (View.ofPlanes .y800 1 3 [3] [1]) view ∧
      Convertible view view (Memory.zeros 3).size ∧ Splits view ∧ view.Visible 0 0 2 ∧
      exists done done',
        Action.Answers (convert ⟨true, true, false⟩ view ⟨view, #[1, 2, 3]⟩)
          ⟨new ⟨true, true⟩, Memory.zeros 3⟩ () done ∧
        Action.Answers (convert ⟨false, false, false⟩ view ⟨view, #[1, 2, 3]⟩)
          ⟨new ⟨true, true⟩, Memory.zeros 3⟩ () done' ∧
        view.sample done.target 0 0 2 = .ok 0 ∧ view.sample done'.target 0 0 2 = .ok 3 := by
  have hview : Attempt.Answers (View.ofPlanes .y800 1 3 [3] [1])
      ⟨.y800, 1, 3, #v[⟨⟨0, 3⟩, 1⟩, Plane.none, Plane.none, Plane.none]⟩ := rfl
  have hcovered := View.covered_of_ofPlanes hview
  have hwritable := View.writable_of_ofPlanes hview (show _ ≤ 3 by decide)
  refine ⟨_, hview, ⟨hcovered, hcovered, Memory.size_zeros 3 ▸ hwritable, rfl, rfl, Or.inl rfl⟩,
    fun field => ?_, ⟨by decide, 1, 3, rfl, by decide, by decide⟩, ⟨_, _⟩, ⟨_, _⟩, rfl, rfl, rfl,
    rfl⟩
  cases field <;> exact ⟨_, rfl⟩

end Converter
end RawVideo

import RawVideo.Proofs.Digest.Frames
import RawVideo.Proofs.Image.Planes
import RawVideo.Proofs.Memory.Painted
import RawVideo.Proofs.View.Origin

/-!
# Digests and padding

The digest of a derived view takes bytes of its samples only, and each of them comes from
a sample of the image at the start of the path.  Where these samples are visible, padding
does not show in the digest.  A path can leave the visible lines only by the bottom field
of an odd number of chroma rows.
-/

namespace RawVideo

variable {view derived : View} {memory other : Memory} {path : List Step} {comp : Component}
variable {c : Nat}

/-!
## Fed alike
-/

namespace Context

/-- Two computations fault alike, or feed the same bytes, whatever the context. -/
def FedAlike (feed feed' : Context -> Checked Context) : Prop :=
  (exists fault, forall context, feed context = .error fault ∧ feed' context = .error fault) ∨
    exists bytes, forall context,
      feed context = .ok (context.update bytes) ∧ feed' context = .ok (context.update bytes)

theorem FedAlike.bind {feed feed' next next' : Context -> Checked Context}
    (h : FedAlike feed feed') (h' : FedAlike next next') :
    FedAlike (fun context => feed context >>= next) (fun context => feed' context >>= next') := by
  rcases h with ⟨fault, hfault⟩ | ⟨bytes, hbytes⟩
  · refine Or.inl ⟨fault, fun context => ?_⟩
    dsimp only
    rw [(hfault context).left, (hfault context).right]
    exact ⟨rfl, rfl⟩
  · rcases h' with ⟨fault, hfault⟩ | ⟨more, hmore⟩
    · refine Or.inl ⟨fault, fun context => ?_⟩
      dsimp only
      rw [(hbytes context).left, (hbytes context).right]
      exact hfault _
    · refine Or.inr ⟨bytes ++ more, fun context => ?_⟩
      dsimp only
      rw [(hbytes context).left, (hbytes context).right, ← update_update]
      exact hmore _

end Context

/-!
## Two memories under one view
-/

/-- Two memories hold the same bytes in every sample of a component. -/
def View.StoresAlike (view : View) (memory other : Memory) (c : Nat) : Prop :=
  forall x y, x < view.columns c -> y < view.lines c ->
    view.stored memory c x y = view.stored other c x y

/-- A write between the samples of a component leaves them alone. -/
theorem View.storesAlike_write {start : Nat} {bytes : List UInt8} (h : view.Ample)
    (hcomp : view.format.component c = .ok comp)
    (hout : forall x y i, x < view.columns c -> y < view.lines c -> i < comp.bytes ->
      view.address comp x y + i < start ∨ start + bytes.length ≤ view.address comp x y + i)
    (memory : Memory) : view.StoresAlike memory (memory.write start bytes) c := by
  intro x y hx hy
  rw [h.stored hcomp hx hy, h.stored hcomp hx hy]
  refine congrArg Except.ok (Memory.read_congr fun i hi => ?_)
  have haddress := hout x y i hx hy hi
  rw [Memory.byte_write, if_neg (by omega)]

theorem View.componentSamples_congr (h : view.Ample)
    (hcomp : view.format.component c = .ok comp) (hsame : view.StoresAlike memory other c) :
    view.componentSamples memory comp c = view.componentSamples other comp c := by
  have hrow : forall y, y ∈ List.range (view.lines c) ->
      view.rowSamples memory comp c y = view.rowSamples other comp c y := by
    intro y hy
    unfold rowSamples
    rw [List.flatMap_def, List.flatMap_def]
    refine congrArg List.flatten (List.map_congr_left fun x hx => ?_)
    rw [List.mem_range] at hx hy
    have hstored := hsame x y hx hy
    rw [h.stored hcomp hx hy, h.stored hcomp hx hy] at hstored
    exact Except.ok.inj hstored
  unfold componentSamples
  rw [List.flatMap_def, List.flatMap_def]
  exact congrArg List.flatten (List.map_congr_left hrow)

namespace Context

theorem fedAlike_component (h : view.Ample) (hcomp : view.format.component c = .ok comp)
    (hsame : view.StoresAlike memory other c) :
    FedAlike (fun context => updateComponent ⟨view, memory⟩ context c)
      (fun context => updateComponent ⟨view, other⟩ context c) := by
  cases hsize : view.componentSize c with
  | error fault =>
      refine Or.inl ⟨fault, fun context => ?_⟩
      unfold updateComponent
      rw [hsize]
      exact ⟨rfl, rfl⟩
  | ok size =>
      have hexact := ((Format.componentSize_eq_ok hcomp).mp hsize).right.right
      rw [hexact] at hsize
      refine Or.inr ⟨view.componentSamples memory comp c, fun context => ⟨?_, ?_⟩⟩
      · show updateComponent ⟨view, memory⟩ context c = _
        exact updateComponent_eq h hcomp hsize context
      · show updateComponent ⟨view, other⟩ context c = _
        rw [View.componentSamples_congr h hcomp hsame]
        exact updateComponent_eq h hcomp hsize context

/-- A digest takes every chroma component, or the luma alone. -/
theorem three_components {format : Format} (hyuv : format.isYuv = true)
    (hmany : 1 < format.components.length) : 3 ≤ format.components.length := by
  revert hyuv hmany
  cases format <;> decide

theorem fedAlike_frame (h : view.Ample) (hyuv : view.format.isYuv = true)
    (hsame : forall c, c < 3 -> view.StoresAlike memory other c) :
    FedAlike (updateFrame ⟨view, memory⟩) (updateFrame ⟨view, other⟩) := by
  have hcomponent : forall c, c < 3 -> c < view.format.components.length ->
      FedAlike (fun context => updateComponent ⟨view, memory⟩ context c)
        (fun context => updateComponent ⟨view, other⟩ context c) := by
    intro c hc hlt
    rcases Format.exists_component hlt with ⟨comp, hcomp⟩
    exact fedAlike_component h hcomp (hsame c hc)
  unfold updateFrame Picture.format
  refine (hcomponent 0 (by decide) view.format.components_length_pos).bind ?_
  split
  next hmany =>
    have hthree := three_components hyuv hmany
    have hend : FedAlike (fun context => pure context) (fun context => pure context) :=
      Or.inr ⟨[], fun context => ⟨rfl, rfl⟩⟩
    simp only [List.foldlM_cons, List.foldlM_nil]
    have hsecond := hcomponent 1 (by decide) (by omega)
    have hthird := hcomponent 2 (by decide) (by omega)
    exact hsecond.bind (hthird.bind hend)
  next =>
    rcases Format.exists_component view.format.components_length_pos with ⟨first, hfirst⟩
    have hfed : forall memory (context : Context), context.updateNeutral ⟨view, memory⟩ =
        .ok (context.update (neutralPlanes first view.width view.height)) :=
      fun _ context => updateNeutral_eq hfirst context
    exact Or.inr ⟨_, fun context => ⟨hfed memory context, hfed other context⟩⟩

/-- The value of the digest of a frame. -/
def frameValue (context : Context) (picture : Picture) : Attempt Error (List UInt8) := do
  let done <- context.digestFrame picture
  return done.value

theorem frameValue_of_bytes {picture : Picture} {context : Context} {bytes : List UInt8}
    (hyuv : picture.format.isYuv = true)
    (h : updateFrame picture context.restart = .ok (context.restart.update bytes)) :
    context.frameValue picture = pure (context.algorithm.digest bytes) := by
  unfold frameValue
  rw [digestFrame_eq hyuv, h, ← value_digest]
  rfl

theorem frameValue_of_fault {picture : Picture} {context : Context} {fault : Fault}
    (hyuv : picture.format.isYuv = true)
    (h : updateFrame picture context.restart = .error fault) :
    context.frameValue picture = Attempt.ofChecked (.error fault) := by
  unfold frameValue
  rw [digestFrame_eq hyuv, h]
  rfl

theorem frameValue_of_rgb {picture : Picture} (hrgb : picture.format.isYuv = false)
    (context : Context) : context.frameValue picture = throw (.withoutDigest picture.format) := by
  unfold frameValue digestFrame
  rw [hrgb, if_pos (by decide)]
  rfl

theorem frameValue_congr (h : view.Ample)
    (hsame : forall c, c < 3 -> view.StoresAlike memory other c) {context context' : Context}
    (halgorithm : context.algorithm = context'.algorithm) :
    context.frameValue ⟨view, memory⟩ = context'.frameValue ⟨view, other⟩ := by
  cases hyuv : view.format.isYuv with
  | false =>
      have hpicture : forall memory, (Picture.mk view memory).format.isYuv = false :=
        fun _ => hyuv
      rw [frameValue_of_rgb (hpicture memory), frameValue_of_rgb (hpicture other)]
      rfl
  | true =>
      have hpicture : forall memory, (Picture.mk view memory).format.isYuv = true :=
        fun _ => hyuv
      rcases fedAlike_frame h hyuv hsame with ⟨fault, hfault⟩ | ⟨bytes, hbytes⟩
      · rw [frameValue_of_fault (hpicture memory) (hfault context.restart).left,
          frameValue_of_fault (hpicture other) (hfault context'.restart).right]
      · rw [frameValue_of_bytes (hpicture memory) (hbytes context.restart).left,
          frameValue_of_bytes (hpicture other) (hbytes context'.restart).right, halgorithm]

/-- A covered YUV frame has a digest. -/
theorem exists_frameValue (h : view.Covered) (hyuv : view.format.isYuv = true)
    (context : Context) (memory : Memory) :
    exists value, Attempt.Answers (context.frameValue ⟨view, memory⟩) value := by
  have hpicture : (Picture.mk view memory).format.isYuv = true := hyuv
  by_cases hmany : 1 < view.format.components.length
  · have hdigestible : Digestible ⟨view, memory⟩ := ⟨h, hyuv, three_components hyuv hmany⟩
    rcases hdigestible.updateFrame with ⟨bytes, _, hbytes⟩
    rw [frameValue_of_bytes hpicture (hbytes context.restart)]
    exact ⟨_, Attempt.answers_pure _⟩
  · rcases Format.exists_component view.format.components_length_pos with ⟨first, hfirst⟩
    have hluma : (Picture.mk view memory).format.components.length ≤ 1 := Nat.not_lt.mp hmany
    rw [frameValue_of_bytes hpicture (updateFrame_of_luma h hluma hfirst context.restart)]
    exact ⟨_, Attempt.answers_pure _⟩

end Context

/-!
## Derived views of images
-/

namespace View

/-- Every line of a digested component of a derived view comes from a visible line. -/
def Grounded (view : View) (path : List Step) (derived : View) : Prop :=
  forall c comp y, c < 3 -> view.format.component c = .ok comp -> y < derived.lines c ->
    originLine view.format c path y < view.lines c

theorem grounded_of_clear (h : view.Ample)
    (hpath : Attempt.Answers (view.derive path) derived)
    (hclear : Clear view.format view.height path) : view.Grounded path derived :=
  fun _ _ _ _ hcomp hy => line_lt_of_clear h hpath hcomp hclear hy

theorem StoresAlike.derive (h : view.Ample)
    (hpath : Attempt.Answers (view.derive path) derived) (hgrounded : view.Grounded path derived)
    (hc : c < 3) (hsame : view.StoresAlike memory other c) :
    derived.StoresAlike memory other c := by
  intro x y hx hy
  cases hcomp : view.format.component c with
  | error fault =>
      have hformat := (ample_of_derive h hpath).right.format
      unfold stored
      rw [hformat, hcomp]
      rfl
  | ok comp =>
      have hline := hgrounded c comp y hc hcomp hy
      rw [stored_of_derive h hpath hcomp hx hy hline, stored_of_derive h hpath hcomp hx hy hline]
      exact hsame _ _ (column_lt_of_derive h hpath hcomp hx) hline

end View

namespace Context

/--
Two images of one layout that store the same visible samples have the same digest at the
end of every path whose lines come from visible ones, for contexts of one algorithm.  So
it is for paths without a bottom field of an odd number of chroma rows.  A YUV image has
digests at the end of every path.
-/
theorem derived_digests_ignore_padding :
    (forall format width height image view path derived memory other,
      Image.allocate format width height = .ok image -> image.view = .ok view ->
      Attempt.Answers (view.derive path) derived -> view.Grounded path derived ->
      (forall c, c < 3 -> view.StoresAlike memory other c) ->
        forall context context' : Context, context.algorithm = context'.algorithm ->
          context.frameValue ⟨derived, memory⟩ = context'.frameValue ⟨derived, other⟩) ∧
    (forall format width height image view path derived,
      Image.allocate format width height = .ok image -> image.view = .ok view ->
      Attempt.Answers (view.derive path) derived ->
      View.Clear view.format view.height path -> view.Grounded path derived) ∧
    forall format width height image view path derived memory,
      Image.allocate format width height = .ok image -> image.view = .ok view ->
      Attempt.Answers (view.derive path) derived -> format.isYuv = true ->
      width + 2 < UInt32.size -> height + 2 < UInt32.size ->
        forall context : Context,
          exists value, Attempt.Answers (context.frameValue ⟨derived, memory⟩) value := by
  refine ⟨?_, ?_, ?_⟩
  · intro format width height image view path derived memory other himage hview hpath hgrounded
      hsame context context' halgorithm
    rcases Image.allocate_eq_ok himage with ⟨layout, hlayout, _, rfl⟩
    cases hview
    have hample := Image.ample_viewOf hlayout
    exact frameValue_congr (View.ample_of_derive hample hpath).left
      (fun c hc => (hsame c hc).derive hample hpath hgrounded hc) halgorithm
  · intro format width height image view path derived himage hview hpath hclear
    rcases Image.allocate_eq_ok himage with ⟨layout, hlayout, _, rfl⟩
    cases hview
    exact View.grounded_of_clear (Image.ample_viewOf hlayout) hpath hclear
  · intro format width height image view path derived memory himage hview hpath hyuv hwidth
      hheight context
    rcases Image.allocate_eq_ok himage with ⟨layout, hlayout, _, rfl⟩
    cases hview
    have hcovered := Image.covered_viewOf hlayout hwidth hheight
    refine exists_frameValue (View.covered_of_derive hcovered hpath) ?_ context memory
    rw [(View.ample_of_derive hcovered.ample hpath).right.format,
      (Image.viewOf_of_compute hlayout).left]
    exact hyuv

/-- The bottom field of the last column of an image of three, with other bytes behind its rows. -/
theorem derived_digests_ignore_padding_nv12 :
    exists image view derived, Image.allocate .nv12 3 4 = .ok image ∧ image.view = .ok view ∧
      Attempt.Answers (view.derive [.crop ⟨2, 0, 1, 4⟩, .field .bottom]) derived ∧
      view.Grounded [.crop ⟨2, 0, 1, 4⟩, .field .bottom] derived ∧
      exists value,
        Attempt.Answers ((new .md5 .scalar).frameValue ⟨derived, image.memory⟩) value ∧
        Attempt.Answers
          ((new .md5 .ssse3).frameValue ⟨derived, image.memory.write 3 [7, 7, 7]⟩) value := by
  have himage : Image.allocate .nv12 3 4 =
      .ok ⟨some ⟨.nv12, 3, 4, #v[16, 16, 0, 0], #v[16, 8, 0, 0], #v[0, 256, 0, 0], 384⟩,
        Memory.zeros 384⟩ := rfl
  have hpath : Attempt.Answers
      (View.derive
        ⟨.nv12, 3, 4, #v[⟨⟨0, 256⟩, 16⟩, ⟨⟨256, 128⟩, 16⟩, ⟨⟨0, 0⟩, 0⟩, ⟨⟨0, 0⟩, 0⟩]⟩
        [.crop ⟨2, 0, 1, 4⟩, .field .bottom])
      ⟨.nv12, 1, 2, #v[⟨⟨18, 238⟩, 32⟩, ⟨⟨274, 110⟩, 32⟩, ⟨⟨0, 0⟩, 0⟩, ⟨⟨0, 0⟩, 0⟩]⟩ := rfl
  have hlayout : Layout.compute .nv12 3 4 =
      .ok ⟨.nv12, 3, 4, #v[16, 16, 0, 0], #v[16, 8, 0, 0], #v[0, 256, 0, 0], 384⟩ := rfl
  have hample := Image.ample_viewOf hlayout
  have hsame : forall c, c < 3 -> View.StoresAlike
      ⟨.nv12, 3, 4, #v[⟨⟨0, 256⟩, 16⟩, ⟨⟨256, 128⟩, 16⟩, ⟨⟨0, 0⟩, 0⟩, ⟨⟨0, 0⟩, 0⟩]⟩
      (Memory.zeros 384) ((Memory.zeros 384).write 3 [7, 7, 7]) c := by
    intro c hc
    interval_cases c
    · refine View.storesAlike_write hample rfl (fun x y i hx _ hi => ?_) _
      change x < 3 at hx
      change i < 1 at hi
      change 0 + (y * 16 + x * 1 + 0) + i < 3 ∨ 3 + 3 ≤ 0 + (y * 16 + x * 1 + 0) + i
      omega
    · refine View.storesAlike_write hample rfl (fun x y i _ _ _ => Or.inr ?_) _
      change 3 + 3 ≤ 256 + (y * 16 + x * 2 + 0) + i
      omega
    · refine View.storesAlike_write hample rfl (fun x y i _ _ _ => Or.inr ?_) _
      change 3 + 3 ≤ 256 + (y * 16 + x * 2 + 1) + i
      omega
  have hgrounded := derived_digests_ignore_padding.right.left _ _ _ _ _ _ _ himage rfl hpath
    (by decide)
  have hvalue := derived_digests_ignore_padding.left _ _ _ _ _ _ _ _ _ himage rfl hpath hgrounded
    hsame (new .md5 .scalar) (new .md5 .ssse3) rfl
  rcases derived_digests_ignore_padding.right.right _ _ _ _ _ _ _ (Memory.zeros 384) himage rfl
    hpath rfl (by decide) (by decide) (new .md5 .scalar) with ⟨value, hdone⟩
  exact ⟨_, _, _, himage, rfl, hpath, hgrounded, value, hdone, hvalue ▸ hdone⟩

set_option maxRecDepth 2000 in
/--
The bottom field of two rows takes a row of chroma from below the picture: the images
have the same digest, and their bottom fields have not.
-/
theorem bottom_field_digests_padding :
    exists image view derived, Image.allocate .i420 2 2 = .ok image ∧ image.view = .ok view ∧
      Attempt.Answers (view.derive [.field .bottom]) derived ∧
      (forall c, c < 3 ->
        view.StoresAlike image.memory (image.memory.write 264 [255]) c) ∧
      Attempt.Answers ((new .adler32 .scalar).frameValue ⟨derived, image.memory⟩) [0, 0, 0, 0] ∧
      Attempt.Answers
        ((new .adler32 .scalar).frameValue ⟨derived, image.memory.write 264 [255]⟩)
        [1, 254, 0, 255] := by
  have hlayout : Layout.compute .i420 2 2 =
      .ok ⟨.i420, 2, 2, #v[16, 8, 8, 0], #v[16, 8, 8, 0], #v[0, 256, 320, 0], 384⟩ := rfl
  have hample := Image.ample_viewOf hlayout
  refine ⟨⟨some _, Memory.zeros 384⟩, _, _, rfl, rfl, rfl, ?_, rfl, rfl⟩
  intro c hc
  interval_cases c
  · refine View.storesAlike_write hample rfl (fun x y i hx hy hi => Or.inl ?_) _
    change x < 2 at hx
    change y < 2 at hy
    change i < 1 at hi
    change 0 + (y * 16 + x * 1 + 0) + i < 264
    omega
  · refine View.storesAlike_write hample rfl (fun x y i hx hy hi => Or.inl ?_) _
    change x < 1 at hx
    change y < 1 at hy
    change i < 1 at hi
    change 256 + (y * 8 + x * 1 + 0) + i < 264
    omega
  · refine View.storesAlike_write hample rfl (fun x y i _ _ _ => Or.inr ?_) _
    change 264 + 1 ≤ 320 + (y * 8 + x * 1 + 0) + i
    omega

end Context
end RawVideo

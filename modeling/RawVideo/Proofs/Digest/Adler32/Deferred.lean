import RawVideo.Proofs.Digest.Adler32.Sums

/-!
# Deferred remainders

A run is short enough for both sums to stay in their machine words until the end of
it, even from the largest sums that a state can pack.  So taking one remainder for
each run gives what taking one for each byte gives.
-/

namespace RawVideo
namespace Adler32

variable {sums : Sums} {bytes run : List UInt8} {b : UInt8}

/-!
## Every step of a fold
-/

/-- Every item of a fold meets a state with which it has a property. -/
def EveryStep {σ ι : Type} (f : σ -> ι -> σ) (P : σ -> ι -> Prop) : σ -> List ι -> Prop
  | _, [] => True
  | s, x :: rest => P s x ∧ EveryStep f P (f s x) rest

theorem everyStep_append {σ ι : Type} {f : σ -> ι -> σ} {P : σ -> ι -> Prop} {s : σ}
    {xs ys : List ι} :
    EveryStep f P s (xs ++ ys) ↔ EveryStep f P s xs ∧ EveryStep f P (xs.foldl f s) ys := by
  induction xs generalizing s with
  | nil => simp [EveryStep]
  | cons x rest ih => simp [EveryStep, ih, and_assoc]

theorem everyStep_flatten {σ ι : Type} {f : σ -> ι -> σ} {P : σ -> ι -> Prop} {s : σ}
    {xss : List (List ι)} (h : EveryStep f P s xss.flatten) :
    EveryStep (fun s xs => xs.foldl f s) (EveryStep f P) s xss := by
  induction xss generalizing s with
  | nil => trivial
  | cons xs rest ih =>
      rw [List.flatten_cons, everyStep_append] at h
      exact ⟨h.left, ih h.right⟩

/-- A property that an invariant of the steps gives holds at every step. -/
theorem everyStep_of_invariant {σ ι : Type} {f : σ -> ι -> σ} {P : σ -> ι -> Prop}
    {I : σ -> Prop} {xs : List ι}
    (hstep : forall s x, x ∈ xs -> I s -> P s x ∧ I (f s x)) {s : σ} (hs : I s) :
    EveryStep f P s xs := by
  induction xs generalizing s with
  | nil => trivial
  | cons x rest ih =>
      rcases hstep s x List.mem_cons_self hs with ⟨hfirst, hnext⟩
      exact ⟨hfirst, ih (fun s y hy => hstep s y (List.mem_cons_of_mem x hy)) hnext⟩

/-!
## One run
-/

theorem toNat_add_of_lt {x y : UInt32} (h : x.toNat + y.toNat < UInt32.size) :
    (x + y).toNat = x.toNat + y.toNat := by
  rw [UInt32.toNat_add]
  exact Nat.mod_eq_of_lt h

namespace Sums

/-- Neither addition of a byte leaves its machine word. -/
structure Fits (sums : Sums) (b : UInt8) : Prop where
  low : sums.low.toNat + b.toNat < UInt32.size
  high : sums.high.toNat + (sums.low + b.toUInt32).toNat < UInt32.size

/-- No addition of a byte leaves its machine word while a run is added up. -/
def RunFits (sums : Sums) (run : List UInt8) : Prop :=
  EveryStep (fun sums block => block.foldl Sums.add sums) (EveryStep Sums.add Fits) sums
    (blocks 16 run)

theorem Fits.toNat_low (h : sums.Fits b) : (sums.add b).low.toNat = sums.low.toNat + b.toNat := by
  show (sums.low + b.toUInt32).toNat = _
  rw [toNat_add_of_lt (UInt8.toNat_toUInt32 b ▸ h.low), UInt8.toNat_toUInt32]

theorem Fits.toNat_high (h : sums.Fits b) :
    (sums.add b).high.toNat = sums.high.toNat + (sums.low.toNat + b.toNat) := by
  show (sums.high + (sums.low + b.toUInt32)).toNat = _
  rw [toNat_add_of_lt h.high]
  exact congrArg (sums.high.toNat + ·) h.toNat_low

theorem foldl_add (hlow : sums.lowAfter bytes < UInt32.size)
    (hhigh : sums.highAfter bytes < UInt32.size) :
    EveryStep Sums.add Fits sums bytes ∧
      (bytes.foldl Sums.add sums).low.toNat = sums.lowAfter bytes ∧
      (bytes.foldl Sums.add sums).high.toNat = sums.highAfter bytes := by
  -- Sums only grow along the bytes, so bounds at the end are bounds at every byte.
  induction bytes generalizing sums with
  | nil => simp [EveryStep, lowAfter, highAfter]
  | cons b rest ih =>
      simp only [lowAfter, total_cons] at hlow
      have hsplit : sums.highAfter (b :: rest) = sums.high.toNat + (sums.low.toNat + b.toNat) +
          rest.length * (sums.low.toNat + b.toNat) + weighted rest := by
        simp only [highAfter, weighted_cons, List.length_cons]
        ring
      rw [hsplit] at hhigh
      have hfirst : sums.low.toNat + b.toNat < UInt32.size := by omega
      have hsum : (sums.low + b.toUInt32).toNat = sums.low.toNat + b.toNat := by
        rw [toNat_add_of_lt (UInt8.toNat_toUInt32 b ▸ hfirst), UInt8.toNat_toUInt32]
      have hfits : sums.Fits b := ⟨hfirst, by rw [hsum]; omega⟩
      have hlow' : (sums.add b).lowAfter rest = sums.lowAfter (b :: rest) := by
        simp only [lowAfter, total_cons, hfits.toNat_low, Nat.add_assoc]
      have hhigh' : (sums.add b).highAfter rest = sums.highAfter (b :: rest) := by
        rw [hsplit, highAfter, hfits.toNat_low, hfits.toNat_high]
      have hlowNext : (sums.add b).lowAfter rest < UInt32.size := by
        rw [hlow', lowAfter, total_cons]
        exact hlow
      have hhighNext : (sums.add b).highAfter rest < UInt32.size := by
        rw [hhigh', hsplit]
        exact hhigh
      have hrest := ih hlowNext hhighNext
      rw [hlow', hhigh'] at hrest
      exact ⟨⟨hfits, hrest.left⟩, hrest.right⟩

/-- The largest sums that a state packs leave room for a run of the largest bytes. -/
theorem Bounded.after_lt (h : sums.Bounded) (hrun : run.length ≤ runLength) :
    sums.lowAfter run < UInt32.size ∧ sums.highAfter run < UInt32.size := by
  have hlow : sums.low.toNat ≤ 65535 := Nat.le_of_lt_succ h.low
  have hhigh := h.high
  have htotal := total_le run
  have hweighted := weighted_le run
  have hlength : run.length ≤ 5552 := hrun
  have hleads : run.length * sums.low.toNat ≤ 5552 * 65535 := Nat.mul_le_mul hlength hlow
  have hsquare : run.length * (run.length + 1) ≤ 5552 * 5553 :=
    Nat.mul_le_mul hlength (Nat.succ_le_succ hlength)
  have hsize : UInt32.size = 4294967296 := rfl
  constructor
  · rw [lowAfter, hsize]
    omega
  · rw [highAfter, hsize]
    omega

theorem foldl_blocks (sums : Sums) (run : List UInt8) :
    (blocks 16 run).foldl (fun sums block => block.foldl Sums.add sums) sums =
      run.foldl Sums.add sums := by
  rw [← List.foldl_flatten, flatten_blocks (by decide)]

theorem Bounded.runFits (h : sums.Bounded) (hrun : run.length ≤ runLength) :
    sums.RunFits run := by
  rcases h.after_lt hrun with ⟨hlow, hhigh⟩
  apply everyStep_flatten
  rw [flatten_blocks (by decide)]
  exact (foldl_add hlow hhigh).left

theorem Bounded.addRun (h : sums.Bounded) (hrun : run.length ≤ runLength) :
    addRun sums run = sums.after run := by
  rcases h.after_lt hrun with ⟨hlow, hhigh⟩
  rcases (foldl_add hlow hhigh).right with ⟨hlow', hhigh'⟩
  unfold Adler32.addRun
  rw [foldl_blocks]
  apply ext_toNat
  · show ((run.foldl Sums.add sums).low % base).toNat = _
    rw [UInt32.toNat_mod, hlow', toNat_low_after]
  · show ((run.foldl Sums.add sums).high % base).toNat = _
    rw [UInt32.toNat_mod, hhigh', toNat_high_after]

/-!
## All runs
-/

theorem Bounded.foldl_addRun (h : sums.Bounded) (bytes : List UInt8) :
    (blocks runLength bytes).foldl Adler32.addRun sums = sums.advance bytes := by
  have hadd : forall (sums : Sums) run, sums.Bounded -> run ∈ blocks runLength bytes ->
      Adler32.addRun sums run = sums.after run :=
    fun _ _ hbounded hmem => hbounded.addRun (length_le_of_mem_blocks hmem)
  rw [h.foldl_eq_advance hadd fun _ => ne_nil_of_mem_blocks, flatten_blocks (by decide)]

theorem Bounded.everyRunFits {runs : List (List UInt8)}
    (hruns : forall run, run ∈ runs -> run.length ≤ runLength) (h : sums.Bounded) :
    EveryStep Adler32.addRun RunFits sums runs := by
  refine everyStep_of_invariant (I := Bounded) (fun sums run hmem hsums => ?_) h
  have hrun := hruns run hmem
  refine ⟨hsums.runFits hrun, ?_⟩
  rw [hsums.addRun hrun]
  exact bounded_after sums run

end Sums

theorem updateChunked_eq (state : UInt32) (bytes : List UInt8) :
    updateChunked state bytes = ((Sums.unpack state).advance bytes).pack := by
  unfold updateChunked
  rw [(Sums.bounded_unpack state).foldl_addRun]

theorem updateChunked_eq_updateScalar (state : UInt32) (bytes : List UInt8) :
    updateChunked state bytes = updateScalar state bytes := by
  rw [updateChunked_eq, updateScalar_eq]

theorem updateScalar_append (state : UInt32) (bytes other : List UInt8) :
    updateScalar state (bytes ++ other) = updateScalar (updateScalar state bytes) other := by
  have hbounded := (Sums.bounded_unpack state).advance bytes
  rw [updateScalar_eq, updateScalar_eq, updateScalar_eq, hbounded.unpack_pack,
    Sums.advance_append]

/--
Deferred remainders and remainders after every byte give the same state, which is
the closed form modulo the base, and no addition leaves its machine word on the way.
So the pieces in which bytes are fed to either kernel do not matter.
-/
theorem deferred_remainders_exact (state : UInt32) (bytes : List UInt8) :
    updateChunked state bytes = updateScalar state bytes ∧
    EveryStep addRun Sums.RunFits (Sums.unpack state) (blocks runLength bytes) ∧
    (bytes ≠ [] ->
      updateScalar state bytes =
        UInt32.ofNat
            (((state >>> 16).toNat + bytes.length * (state &&& 0xffff).toNat +
              (bytes.mapIdx fun i b => (bytes.length - i) * b.toNat).sum) % 65521) <<< 16 |||
          UInt32.ofNat (((state &&& 0xffff).toNat + (bytes.map UInt8.toNat).sum) % 65521)) ∧
    forall other,
      updateScalar (updateScalar state bytes) other = updateScalar state (bytes ++ other) ∧
      updateChunked (updateChunked state bytes) other = updateChunked state (bytes ++ other) := by
  refine ⟨updateChunked_eq_updateScalar state bytes, ?_, ?_, ?_⟩
  · exact (Sums.bounded_unpack state).everyRunFits fun _ => length_le_of_mem_blocks
  · intro hbytes
    rw [updateScalar_eq, Sums.advance_of_ne_nil hbytes]
    rfl
  · intro other
    have hscalar := (updateScalar_append state bytes other).symm
    refine ⟨hscalar, ?_⟩
    simp only [updateChunked_eq_updateScalar]
    exact hscalar

/-- The largest state takes a block of the largest bytes and one byte more. -/
theorem deferred_remainders_exact_largest :
    List.replicate 17 (255 : UInt8) ≠ [] ∧
    updateChunked 0xffffffff (List.replicate 17 255) =
      updateScalar 0xffffffff (List.replicate 17 255) ∧
    updateScalar 0xffffffff (List.replicate 17 255) =
      UInt32.ofNat ((65535 + 17 * 65535 + 255 * (17 * 18 / 2)) % 65521) <<< 16 |||
        UInt32.ofNat ((65535 + 17 * 255) % 65521) := by
  have hne : List.replicate 17 (255 : UInt8) ≠ [] := List.cons_ne_nil _ _
  rcases deferred_remainders_exact 0xffffffff (List.replicate 17 255) with
    ⟨hequal, _, hclosed, _⟩
  exact ⟨hne, hequal, (hclosed hne).trans (by decide +kernel)⟩

end Adler32
end RawVideo

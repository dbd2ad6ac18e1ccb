import RawVideo.Digest.Adler32.Vector
import RawVideo.Proofs.Digest.Adler32.Deferred

/-!
# Sums in vector lanes

What a run of blocks leaves in vector lanes.  Only the sums over all lanes matter in the
end.  From block to block the byte sums are added up, and the weighted sums grow by the
weighted bytes of the block and by 32 times the byte sums in front of it, as the closed
form says.

Taken as numbers these sums only grow along a run, and what they end with fits a machine
word, as in the deferred form.  So no lane wraps on the way, and since the weights are
small no pair of products is cut off.
-/

namespace RawVideo
namespace Adler32

variable {sums : Sums} {bytes run block : List UInt8} {weights : List Nat}

/-!
## Words and numbers
-/

theorem toNat_shiftLeft_five {x : UInt32} (h : 32 * x.toNat < UInt32.size) :
    (x <<< 5).toNat = 32 * x.toNat := by
  rw [UInt32.toNat_shiftLeft]
  show x.toNat <<< 5 % UInt32.size = 32 * x.toNat
  rw [Nat.shiftLeft_eq, Nat.mul_comm]
  exact Nat.mod_eq_of_lt h

theorem toUInt32_eq_ofNat (b : UInt8) : b.toUInt32 = UInt32.ofNat b.toNat := by
  apply UInt32.toNat_inj.mp
  rw [UInt8.toNat_toUInt32, UInt32.toNat_ofNat_of_lt' (Nat.lt_trans b.toNat_lt (by decide))]

theorem foldl_toUInt32 (bytes : List UInt8) (start : UInt32) :
    bytes.foldl (fun sum b => sum + b.toUInt32) start = start + UInt32.ofNat (total bytes) := by
  induction bytes generalizing start with
  | nil => simp
  | cons b rest ih =>
      rw [List.foldl_cons, ih, total_cons, UInt32.ofNat_add, toUInt32_eq_ofNat, UInt32.add_assoc]

theorem toNat_byteSum (h : total bytes < UInt32.size) : (byteSum bytes).toNat = total bytes := by
  unfold byteSum
  rw [foldl_toUInt32, UInt32.zero_add, UInt32.toNat_ofNat_of_lt' h]

/-!
## Lanes that do not wrap
-/

namespace Lanes

variable {x y : Lanes}

/-- The sum of the four lanes, as a number. -/
def total (x : Lanes) : Nat :=
  x.a.toNat + x.b.toNat + x.c.toNat + x.d.toNat

/-- No lane wraps when lanes are added. -/
structure AddFits (x y : Lanes) : Prop where
  a : x.a.toNat + y.a.toNat < UInt32.size
  b : x.b.toNat + y.b.toNat < UInt32.size
  c : x.c.toNat + y.c.toNat < UInt32.size
  d : x.d.toNat + y.d.toNat < UInt32.size

/-- No lane loses a bit when lanes are shifted left by five. -/
structure ShiftFits (x : Lanes) : Prop where
  a : 32 * x.a.toNat < UInt32.size
  b : 32 * x.b.toNat < UInt32.size
  c : 32 * x.c.toNat < UInt32.size
  d : 32 * x.d.toNat < UInt32.size

/-- Neither addition of a horizontal sum wraps. -/
structure SpreadFits (x : Lanes) : Prop where
  pairs : x.AddFits x.swapPairs
  halves : (x.add x.swapPairs).AddFits (x.add x.swapPairs).swapHalves

@[simp] theorem total_zero : zero.total = 0 := rfl

@[simp] theorem total_first (value : UInt32) : (first value).total = value.toNat := by
  simp [total, first]

theorem addFits_of_total_lt (h : x.total + y.total < UInt32.size) : x.AddFits y := by
  unfold total at h
  constructor <;> omega

theorem AddFits.total_add (h : x.AddFits y) : (x.add y).total = x.total + y.total := by
  simp only [total, add, toNat_add_of_lt h.a, toNat_add_of_lt h.b, toNat_add_of_lt h.c,
    toNat_add_of_lt h.d]
  omega

theorem shiftFits_of_total_lt (h : 32 * x.total < UInt32.size) : x.ShiftFits := by
  unfold total at h
  constructor <;> omega

theorem ShiftFits.total_shiftLeft (h : x.ShiftFits) : (x.shiftLeft 5).total = 32 * x.total := by
  simp only [total, shiftLeft, toNat_shiftLeft_five h.a, toNat_shiftLeft_five h.b,
    toNat_shiftLeft_five h.c, toNat_shiftLeft_five h.d]
  omega

theorem spreadFits_of_total_lt (h : x.total < UInt32.size) : x.SpreadFits := by
  unfold total at h
  have hpairs : x.AddFits x.swapPairs := by
    constructor <;> simp only [swapPairs] <;> omega
  refine ⟨hpairs, ?_⟩
  constructor <;> simp only [add, swapHalves, toNat_add_of_lt hpairs.a, toNat_add_of_lt hpairs.b,
    toNat_add_of_lt hpairs.c, toNat_add_of_lt hpairs.d] <;> simp only [swapPairs] <;> omega

theorem SpreadFits.toNat_spread (h : x.SpreadFits) : x.spread.a.toNat = x.total := by
  have hhalves := toNat_add_of_lt h.halves.a
  simp only [add, swapHalves, toNat_add_of_lt h.pairs.a, toNat_add_of_lt h.pairs.c] at hhalves
  simp only [spread, add, swapHalves, hhalves]
  simp only [swapPairs, total]
  omega

end Lanes

/-!
## Weighted bytes
-/

/-- The sum of the products of bytes and weights. -/
def dot : List UInt8 -> List Nat -> Nat
  | x :: bytes, w :: weights => x.toNat * w + dot bytes weights
  | _, _ => 0

/-- No two neighbouring products add up to more than 16 bits with a sign hold. -/
def NoneCut : List UInt8 -> List Nat -> Prop
  | x :: y :: bytes, v :: w :: weights =>
      x.toNat * v + y.toNat * w ≤ largest16 ∧ NoneCut bytes weights
  | _, _ => True

/-- The weights that fall by one from byte to byte and end above `least`. -/
def falling (least : Nat) : Nat -> List Nat
  | 0 => []
  | count + 1 => (least + (count + 1)) :: falling least count

@[simp] theorem length_falling (least count : Nat) : (falling least count).length = count := by
  induction count with
  | zero => rfl
  | succ count ih => simp [falling, ih]

theorem le_of_mem_falling {least count w : Nat} (h : w ∈ falling least count) :
    w ≤ least + count := by
  induction count with
  | zero => simp [falling] at h
  | succ count ih =>
      cases List.mem_cons.mp h with
      | inl heq => exact Nat.le_of_eq heq
      | inr hmem => exact Nat.le_succ_of_le (ih hmem)

theorem dot_falling {count : Nat} (least : Nat) (h : bytes.length = count) :
    dot bytes (falling least count) = least * total bytes + weighted bytes := by
  subst h
  induction bytes with
  | nil => rfl
  | cons b rest ih =>
      simp only [List.length_cons, falling, dot, ih, total_cons, weighted_cons]
      ring

theorem noneCut_of_le (hweights : forall w, w ∈ weights -> w ≤ 64) : NoneCut bytes weights := by
  fun_induction NoneCut bytes weights with
  | case1 x y bytes v w weights ih =>
      simp only [List.forall_mem_cons] at hweights
      have hx : x.toNat * v ≤ 255 * 64 :=
        Nat.mul_le_mul (Nat.le_of_lt_succ x.toNat_lt) hweights.left
      have hy : y.toNat * w ≤ 255 * 64 :=
        Nat.mul_le_mul (Nat.le_of_lt_succ y.toNat_lt) hweights.right.left
      exact ⟨Nat.le_trans (Nat.add_le_add hx hy) (by decide), ih hweights.right.right⟩
  | case2 => trivial

theorem sum_weightedPairs (hlength : bytes.length = weights.length) (heven : 2 ∣ bytes.length)
    (hnone : NoneCut bytes weights) :
    (weightedPairs bytes weights).sum = dot bytes weights ∧
      (weightedPairs bytes weights).length = bytes.length / 2 := by
  fun_induction weightedPairs bytes weights with
  | case1 x y bytes v w weights ih =>
      simp only [List.length_cons] at hlength heven
      rcases ih (by omega) (by omega) hnone.right with ⟨hsum, hlength'⟩
      constructor
      · rw [List.sum_cons, Nat.min_eq_right hnone.left, hsum, dot, dot, Nat.add_assoc]
      · simp only [List.length_cons, hlength']
        omega
  | case2 bytes weights hshort =>
      cases bytes with
      | nil => simp [dot]
      | cons x rest =>
          cases rest with
          | nil => simp at heven
          | cons y rest =>
              cases weights with
              | nil => simp at hlength
              | cons v weights =>
                  cases weights with
                  | nil => simp at hlength
                  | cons w weights => exact (hshort x y rest v w weights rfl rfl).elim

theorem total_pairSums {pairs : List Nat} (h : pairs.length = 8)
    (hsum : pairs.sum < UInt32.size) : (pairSums pairs).total = pairs.sum := by
  match pairs, h with
  | [p, q, r, s, t, u, v, w], _ =>
      simp only [List.sum_cons, List.sum_nil] at hsum ⊢
      simp only [pairSums, Lanes.total]
      rw [UInt32.toNat_ofNat_of_lt' (by omega), UInt32.toNat_ofNat_of_lt' (by omega),
        UInt32.toNat_ofNat_of_lt' (by omega), UInt32.toNat_ofNat_of_lt' (by omega)]
      omega

/-!
## Blocks
-/

/-- The instructions on sixteen bytes lose nothing of the byte sum and the weighted sum. -/
structure HalfExact (bytes : List UInt8) (weights : List Nat) : Prop where
  products : NoneCut bytes weights
  low : (halfSums bytes).total = total bytes
  high : (pairSums (weightedPairs bytes weights)).total = dot bytes weights

theorem total_le_of_length (h : bytes.length = 16) : total bytes ≤ 4080 := by
  have htotal := total_le bytes
  omega

theorem total_halfSums (h : bytes.length = 16) : (halfSums bytes).total = total bytes := by
  have hsplit := total_append (bytes.take 8) (bytes.drop 8)
  rw [List.take_append_drop] at hsplit
  have htotal := total_le_of_length h
  have hsize : UInt32.size = 4294967296 := rfl
  simp only [Lanes.total, halfSums]
  rw [toNat_byteSum (by omega), toNat_byteSum (by omega), hsplit]
  simp

theorem halfExact_falling {least : Nat} (h : bytes.length = 16) (hleast : least ≤ 48) :
    HalfExact bytes (falling least 16) := by
  have hweights : forall w, w ∈ falling least 16 -> w ≤ 64 :=
    fun w hw => Nat.le_trans (le_of_mem_falling hw) (Nat.add_le_add_right hleast 16)
  have hnone : NoneCut bytes (falling least 16) := noneCut_of_le hweights
  rcases sum_weightedPairs (h.trans (length_falling least 16).symm) (by omega) hnone with
    ⟨hsum, hpairs⟩
  have hdot := dot_falling least h
  have htotal := total_le_of_length h
  have hlow := Nat.mul_le_mul hleast htotal
  have hhigh := weighted_le bytes
  rw [h] at hhigh
  have hsize : UInt32.size = 4294967296 := rfl
  refine ⟨hnone, total_halfSums h, ?_⟩
  rw [total_pairSums (by omega) (by omega), hsum]

namespace Accumulators

variable {acc : Accumulators}

/-- The second sum that the lanes stand for. -/
def weight (acc : Accumulators) : Nat :=
  acc.high.total + 32 * acc.leads.total

/-- Nothing wraps and nothing is cut off while a block is added. -/
structure BlockFits (acc : Accumulators) (block : List UInt8) : Prop where
  upper : HalfExact (block.take 16) upperWeights
  lower : HalfExact (block.drop 16) lowerWeights
  leads : acc.leads.AddFits acc.low
  lowUpper : acc.low.AddFits (halfSums (block.take 16))
  lowLower : (acc.low.add (halfSums (block.take 16))).AddFits (halfSums (block.drop 16))
  highUpper : acc.high.AddFits (pairSums (weightedPairs (block.take 16) upperWeights))
  highLower :
    (acc.high.add (pairSums (weightedPairs (block.take 16) upperWeights))).AddFits
      (pairSums (weightedPairs (block.drop 16) lowerWeights))

theorem addBlock_exact (hblock : block.length = blockLength)
    (hlow : acc.low.total + total block < UInt32.size)
    (hweight : acc.weight + 32 * acc.low.total + weighted block < UInt32.size) :
    acc.BlockFits block ∧ (acc.addBlock block).low.total = acc.low.total + total block ∧
      (acc.addBlock block).weight = acc.weight + 32 * acc.low.total + weighted block := by
  have hupper : (block.take 16).length = 16 := by
    rw [List.length_take, hblock]
    rfl
  have hlower : (block.drop 16).length = 16 := by
    rw [List.length_drop, hblock]
    rfl
  have htotal := total_append (block.take 16) (block.drop 16)
  have hweighted := weighted_append (block.take 16) (block.drop 16)
  rw [List.take_append_drop] at htotal hweighted
  rw [hlower] at hweighted
  have hfirst : HalfExact (block.take 16) upperWeights := halfExact_falling hupper (by decide)
  have hsecond : HalfExact (block.drop 16) lowerWeights := halfExact_falling hlower (by decide)
  have hdot : dot (block.take 16) upperWeights =
      16 * total (block.take 16) + weighted (block.take 16) := dot_falling 16 hupper
  have hdot' : dot (block.drop 16) lowerWeights =
      0 * total (block.drop 16) + weighted (block.drop 16) := dot_falling 0 hlower
  have hhigh := hfirst.high
  have hhigh' := hsecond.high
  have hsum := hfirst.low
  have hsum' := hsecond.low
  unfold weight at hweight
  have hleads : acc.leads.AddFits acc.low := Lanes.addFits_of_total_lt (by omega)
  have hlowUpper : acc.low.AddFits (halfSums (block.take 16)) :=
    Lanes.addFits_of_total_lt (by omega)
  have hlowLower : (acc.low.add (halfSums (block.take 16))).AddFits
      (halfSums (block.drop 16)) :=
    Lanes.addFits_of_total_lt (by rw [hlowUpper.total_add]; omega)
  have hhighUpper : acc.high.AddFits
      (pairSums (weightedPairs (block.take 16) upperWeights)) :=
    Lanes.addFits_of_total_lt (by omega)
  have hhighLower : (acc.high.add
      (pairSums (weightedPairs (block.take 16) upperWeights))).AddFits
        (pairSums (weightedPairs (block.drop 16) lowerWeights)) :=
    Lanes.addFits_of_total_lt (by rw [hhighUpper.total_add]; omega)
  refine ⟨⟨hfirst, hsecond, hleads, hlowUpper, hlowLower, hhighUpper, hhighLower⟩, ?_, ?_⟩
  · show ((acc.low.add _).add _).total = _
    rw [hlowLower.total_add, hlowUpper.total_add]
    omega
  · show ((acc.high.add _).add _).total + 32 * (acc.leads.add _).total = _
    rw [hhighLower.total_add, hhighUpper.total_add, hleads.total_add]
    unfold weight
    omega

/-- Sums only grow along the blocks, so if the last ones fit a word then all of them do. -/
theorem foldl_addBlock {parts : List (List UInt8)}
    (hparts : forall block, block ∈ parts -> block.length = blockLength)
    (hlow : acc.low.total + total parts.flatten < UInt32.size)
    (hweight : acc.weight + parts.flatten.length * acc.low.total + weighted parts.flatten <
      UInt32.size) :
    EveryStep addBlock BlockFits acc parts ∧
      (parts.foldl addBlock acc).low.total = acc.low.total + total parts.flatten ∧
      (parts.foldl addBlock acc).weight =
        acc.weight + parts.flatten.length * acc.low.total + weighted parts.flatten := by
  induction parts generalizing acc with
  | nil => simp [EveryStep]
  | cons block rest ih =>
      rw [List.forall_mem_cons] at hparts
      have hlength : block.length = 32 := hparts.left
      simp only [List.flatten_cons, total_append, weighted_append, List.length_append, hlength,
        Nat.add_mul] at hlow hweight ⊢
      have hfirst : acc.low.total + total block < UInt32.size := by omega
      have hfirst' : acc.weight + 32 * acc.low.total + weighted block < UInt32.size := by omega
      rcases addBlock_exact hparts.left hfirst hfirst' with ⟨hfits, hlow', hweight'⟩
      have hgrown : rest.flatten.length * (acc.addBlock block).low.total =
          rest.flatten.length * acc.low.total + rest.flatten.length * total block := by
        rw [hlow', Nat.mul_add]
      have hrest : (acc.addBlock block).low.total + total rest.flatten < UInt32.size := by omega
      rcases ih hparts.right hrest (by omega) with ⟨hsteps, hlast, hlast'⟩
      refine ⟨⟨hfits, hsteps⟩, ?_, ?_⟩
      · rw [List.foldl_cons, hlast]
        omega
      · rw [List.foldl_cons, hlast']
        omega

/-!
## Ends of runs
-/

/-- Nothing wraps while the lanes of a run are put together. -/
structure FinishFits (acc : Accumulators) (sums : Sums) : Prop where
  shift : acc.leads.ShiftFits
  leads : acc.high.AddFits (acc.leads.shiftLeft 5)
  lowSpread : acc.low.SpreadFits
  highSpread : (acc.high.add (acc.leads.shiftLeft 5)).SpreadFits
  low : sums.low.toNat + acc.low.spread.a.toNat < UInt32.size

theorem finish_exact (hlow : sums.low.toNat + acc.low.total < UInt32.size)
    (hweight : acc.weight < UInt32.size) :
    acc.FinishFits sums ∧
      (acc.finish sums).low.toNat = (sums.low.toNat + acc.low.total) % base.toNat ∧
      (acc.finish sums).high.toNat = acc.weight % base.toNat := by
  unfold weight at hweight
  have hshift : acc.leads.ShiftFits := Lanes.shiftFits_of_total_lt (by omega)
  have hleads : acc.high.AddFits (acc.leads.shiftLeft 5) :=
    Lanes.addFits_of_total_lt (by rw [hshift.total_shiftLeft]; exact hweight)
  have hlowSpread : acc.low.SpreadFits := Lanes.spreadFits_of_total_lt (by omega)
  have hhigh : (acc.high.add (acc.leads.shiftLeft 5)).total = acc.weight := by
    rw [hleads.total_add, hshift.total_shiftLeft]
    rfl
  have hhighSpread : (acc.high.add (acc.leads.shiftLeft 5)).SpreadFits :=
    Lanes.spreadFits_of_total_lt (by rw [hhigh]; exact hweight)
  have hlast : sums.low.toNat + acc.low.spread.a.toNat < UInt32.size := by
    rw [hlowSpread.toNat_spread]
    exact hlow
  refine ⟨⟨hshift, hleads, hlowSpread, hhighSpread, hlast⟩, ?_, ?_⟩
  · show ((sums.low + acc.low.spread.a) % base).toNat = _
    rw [UInt32.toNat_mod, toNat_add_of_lt hlast, hlowSpread.toNat_spread]
  · show ((acc.high.add (acc.leads.shiftLeft 5)).spread.a % base).toNat = _
    rw [UInt32.toNat_mod, hhighSpread.toNat_spread, hhigh]

end Accumulators

/-!
## Runs
-/

theorem length_of_mem_blocks (hrun : blockLength ∣ run.length)
    (h : block ∈ blocks blockLength run) : block.length = blockLength := by
  have hpos := List.length_pos_of_ne_nil (ne_nil_of_mem_blocks h)
  have hwhole := Nat.le_of_dvd hpos (dvd_length_of_mem_blocks (Nat.dvd_refl _) hrun h)
  exact Nat.le_antisymm (length_le_of_mem_blocks h) hwhole

theorem length_flatten_of_blocks {parts : List (List UInt8)}
    (hparts : forall block, block ∈ parts -> block.length = blockLength) :
    parts.flatten.length = 32 * parts.length := by
  induction parts with
  | nil => rfl
  | cons block rest ih =>
      rw [List.forall_mem_cons] at hparts
      have hblock : block.length = 32 := hparts.left
      rw [List.flatten_cons, List.length_append, ih hparts.right, hblock, List.length_cons]
      omega

theorem length_eq_of_blocks (hrun : blockLength ∣ run.length) :
    run.length = 32 * (blocks blockLength run).length := by
  have hlength := length_flatten_of_blocks fun _ hmem => length_of_mem_blocks hrun hmem
  rw [flatten_blocks (by decide)] at hlength
  exact hlength

namespace Accumulators

theorem start_exact {count : Nat} (h : sums.low.toNat * count < UInt32.size)
    (hcount : count < UInt32.size) :
    (start sums count).low.total = 0 ∧
      (start sums count).weight = sums.high.toNat + 32 * (sums.low.toNat * count) := by
  refine ⟨rfl, ?_⟩
  unfold weight start
  rw [Lanes.total_first, Lanes.total_first, UInt32.toNat_mul, UInt32.toNat_ofNat_of_lt' hcount]
  rw [Nat.mod_eq_of_lt h]

end Accumulators

namespace Sums

/-- Nothing wraps and nothing is cut off from the start to the end of a run of blocks. -/
structure LanesFit (sums : Sums) (run : List UInt8) : Prop where
  start : sums.low.toNat * (blocks blockLength run).length < UInt32.size
  steps : EveryStep Accumulators.addBlock Accumulators.BlockFits
    (Accumulators.start sums (blocks blockLength run).length) (blocks blockLength run)
  finish : ((blocks blockLength run).foldl Accumulators.addBlock
    (Accumulators.start sums (blocks blockLength run).length)).FinishFits sums

/-- The lanes hold the closed form, which fits its word where the deferred form does. -/
theorem Bounded.addBlocks_exact (h : sums.Bounded) (hwhole : blockLength ∣ run.length)
    (hrun : run.length ≤ runLength) :
    sums.LanesFit run ∧ addBlocks sums run = sums.after run := by
  rcases h.after_lt hrun with ⟨hlow, hhigh⟩
  have hlength := length_eq_of_blocks hwhole
  have hhigh' : sums.highAfter run = sums.high.toNat +
      32 * (sums.low.toNat * (blocks blockLength run).length) + weighted run := by
    unfold highAfter
    rw [hlength, Nat.mul_assoc, Nat.mul_comm sums.low.toNat]
  rw [hhigh'] at hhigh
  have hstart : sums.low.toNat * (blocks blockLength run).length < UInt32.size := by omega
  have hcount : (blocks blockLength run).length < UInt32.size := by
    have hshort : run.length ≤ 5552 := hrun
    have hsize : UInt32.size = 4294967296 := rfl
    omega
  have hflatten := flatten_blocks (show 0 < blockLength by decide) run
  rcases Accumulators.start_exact hstart hcount with ⟨hnone, hweight⟩
  have hroom : (Accumulators.start sums (blocks blockLength run).length).low.total +
      total (blocks blockLength run).flatten < UInt32.size := by
    rw [hnone, hflatten]
    unfold lowAfter at hlow
    omega
  rcases Accumulators.foldl_addBlock (fun _ hmem => length_of_mem_blocks hwhole hmem) hroom
    (by rw [hnone, hflatten, hweight]; omega) with ⟨hsteps, hsum, hsum'⟩
  rw [hnone, hflatten, Nat.zero_add] at hsum
  rw [hnone, hflatten, hweight, Nat.mul_zero, Nat.add_zero, ← hhigh'] at hsum'
  rw [← hhigh', ← hsum'] at hhigh
  unfold lowAfter at hlow
  rw [← hsum] at hlow
  rcases Accumulators.finish_exact hlow hhigh with ⟨hfinish, hlow', hhigh''⟩
  refine ⟨⟨hstart, hsteps, hfinish⟩, ext_toNat ?_ ?_⟩
  · rw [toNat_low_after, lowAfter, ← hsum]
    exact hlow'
  · rw [toNat_high_after, ← hsum']
    exact hhigh''

end Sums

/-!
## All bytes
-/

/-- The runs of whole blocks of a message. -/
def laneRuns (bytes : List UInt8) : List (List UInt8) :=
  blocks (runBlocks * blockLength) (bytes.take (bytes.length / blockLength * blockLength))

/-- The bytes of a message behind its last whole block. -/
def laneTail (bytes : List UInt8) : List UInt8 :=
  bytes.drop (bytes.length / blockLength * blockLength)

theorem updateVector_runs (state : UInt32) (bytes : List UInt8) :
    updateVector state bytes =
      updateChunked ((laneRuns bytes).foldl addBlocks (Sums.unpack state)).pack
        (laneTail bytes) := rfl

theorem flatten_laneRuns (bytes : List UInt8) :
    (laneRuns bytes).flatten ++ laneTail bytes = bytes := by
  unfold laneRuns laneTail
  rw [flatten_blocks (by decide), List.take_append_drop]

theorem whole_of_mem_laneRuns (h : run ∈ laneRuns bytes) :
    blockLength ∣ run.length ∧ run.length ≤ runLength := by
  have hwhole : blockLength ∣
      (bytes.take (bytes.length / blockLength * blockLength)).length := by
    rw [List.length_take, Nat.min_eq_left (Nat.div_mul_le_self _ _)]
    exact Nat.dvd_mul_left _ _
  have hshort : run.length ≤ runBlocks * blockLength := length_le_of_mem_blocks h
  exact ⟨dvd_length_of_mem_blocks (Nat.dvd_mul_left _ _) hwhole h,
    Nat.le_trans hshort (by decide)⟩

theorem updateVector_eq_updateScalar (state : UInt32) (bytes : List UInt8) :
    updateVector state bytes = updateScalar state bytes := by
  have hbounded := Sums.bounded_unpack state
  have hadd : forall (sums : Sums) run, sums.Bounded -> run ∈ laneRuns bytes ->
      addBlocks sums run = sums.after run := by
    intro sums run hsums hmem
    rcases whole_of_mem_laneRuns hmem with ⟨hwhole, hrun⟩
    exact (hsums.addBlocks_exact hwhole hrun).right
  rw [updateVector_runs, hbounded.foldl_eq_advance hadd fun _ => ne_nil_of_mem_blocks,
    updateChunked_eq, (hbounded.advance _).unpack_pack, Sums.advance_append, flatten_laneRuns,
    updateScalar_eq]

theorem everyRun_lanesFit (state : UInt32) (bytes : List UInt8) :
    EveryStep addBlocks Sums.LanesFit (Sums.unpack state) (laneRuns bytes) := by
  refine everyStep_of_invariant (I := Sums.Bounded) (fun sums run hmem hsums => ?_)
    (Sums.bounded_unpack state)
  rcases whole_of_mem_laneRuns hmem with ⟨hwhole, hrun⟩
  rcases hsums.addBlocks_exact hwhole hrun with ⟨hfits, hafter⟩
  refine ⟨hfits, ?_⟩
  rw [hafter]
  exact Sums.bounded_after sums run

theorem flatten_blocks_laneRuns (bytes : List UInt8) :
    ((laneRuns bytes).map (blocks blockLength)).flatten.flatten ++ laneTail bytes = bytes := by
  have hruns : (laneRuns bytes).map (fun run => (blocks blockLength run).flatten) =
      laneRuns bytes := by
    rw [List.map_congr_left fun run _ => flatten_blocks (by decide) run, List.map_id']
  rw [List.flatten_flatten, List.map_map]
  show ((laneRuns bytes).map fun run => (blocks blockLength run).flatten).flatten ++ _ = _
  rw [hruns, flatten_laneRuns]

theorem length_laneTail_lt (bytes : List UInt8) : (laneTail bytes).length < blockLength := by
  have hdiv := Nat.div_add_mod' bytes.length blockLength
  have hmod := Nat.mod_lt bytes.length (show 0 < blockLength by decide)
  unfold laneTail
  rw [List.length_drop]
  omega

/--
The kernel on vector lanes gives the state of the reference.  In every run no pair of
products is cut off, and neither a lane nor a horizontal sum wraps.  Runs of at most 173
whole blocks and a tail behind them hold every byte once and in order.
-/
theorem vector_lanes_exact (state : UInt32) (bytes : List UInt8) :
    updateVector state bytes = updateScalar state bytes ∧
    updateVector state bytes =
      updateChunked ((laneRuns bytes).foldl addBlocks (Sums.unpack state)).pack
        (laneTail bytes) ∧
    EveryStep addBlocks Sums.LanesFit (Sums.unpack state) (laneRuns bytes) ∧
    ((laneRuns bytes).map (blocks blockLength)).flatten.flatten ++ laneTail bytes = bytes ∧
    (laneTail bytes).length < blockLength ∧
    forall run, run ∈ laneRuns bytes ->
      0 < (blocks blockLength run).length ∧ (blocks blockLength run).length ≤ 173 ∧
        forall block, block ∈ blocks blockLength run -> block.length = 32 := by
  refine ⟨updateVector_eq_updateScalar state bytes, updateVector_runs state bytes,
    everyRun_lanesFit state bytes, flatten_blocks_laneRuns bytes, length_laneTail_lt bytes, ?_⟩
  intro run hmem
  rcases whole_of_mem_laneRuns hmem with ⟨hwhole, hrun⟩
  have hlength := length_eq_of_blocks hwhole
  have hpos := List.length_pos_of_ne_nil (ne_nil_of_mem_blocks hmem)
  have hshort : run.length ≤ 5552 := hrun
  exact ⟨by omega, by omega, fun block hblock => length_of_mem_blocks hwhole hblock⟩

/-- From the largest state, one block of the largest bytes in lanes and one byte behind it. -/
theorem vector_lanes_exact_largest :
    List.replicate 32 (255 : UInt8) ∈ laneRuns (List.replicate 33 255) ∧
    (blocks blockLength (List.replicate 32 (255 : UInt8))).length ≤ 173 ∧
    updateVector 0xffffffff (List.replicate 33 255) =
      updateScalar 0xffffffff (List.replicate 33 255) ∧
    (Sums.unpack 0xffffffff).LanesFit (List.replicate 32 255) := by
  have hruns : laneRuns (List.replicate 33 (255 : UInt8)) = [List.replicate 32 255] := by
    decide +kernel
  have hmem : List.replicate 32 (255 : UInt8) ∈ laneRuns (List.replicate 33 255) := by
    rw [hruns]
    exact List.mem_singleton_self _
  rcases vector_lanes_exact 0xffffffff (List.replicate 33 255) with
    ⟨hequal, _, hfits, _, _, hblocks⟩
  rw [hruns] at hfits
  exact ⟨hmem, (hblocks _ hmem).right.left, hequal, hfits.left⟩

end Adler32
end RawVideo

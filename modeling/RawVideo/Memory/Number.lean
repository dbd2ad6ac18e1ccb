/-!
# Numbers in bytes

Numbers that take several bytes are stored with the low byte first.
-/

namespace RawVideo

/-- The number that a run of bytes spells, the low byte first. -/
def littleEndian : List UInt8 -> Nat
  | [] => 0
  | b :: bs => b.toNat + 256 * littleEndian bs

/-- The `count` low bytes of a number, the low byte first. -/
def toLittleEndian : Nat -> Nat -> List UInt8
  | 0, _ => []
  | count + 1, n => UInt8.ofNat n :: toLittleEndian count (n / 256)

@[simp] theorem length_toLittleEndian (count n : Nat) :
    (toLittleEndian count n).length = count := by
  induction count generalizing n with
  | zero => rfl
  | succ count ih => simp [toLittleEndian, ih]

end RawVideo

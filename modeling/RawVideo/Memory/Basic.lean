import RawVideo.Fault

/-!
# Memory

A memory is a run of bytes addressed from zero.  Reading and writing are total
here: a read behind the end yields zeros and a write there is dropped.  Bounds
belong to spans, the runs of addresses that planes and rows occupy: a span never
hands out an address outside itself, and asking it to is a fault.
-/

namespace RawVideo

/-- The least multiple of a nonzero `unit` that is not below `n`. -/
def roundUp (n unit : Nat) : Nat :=
  (n + unit - 1) / unit * unit

theorem dvd_roundUp (n unit : Nat) : unit ∣ roundUp n unit :=
  Nat.dvd_mul_left unit _

theorem le_roundUp {n unit : Nat} (h : 0 < unit) : n ≤ roundUp n unit := by
  have hmod := Nat.mod_lt (n + unit - 1) h
  have hdiv := Nat.div_add_mod (n + unit - 1) unit
  rw [Nat.mul_comm] at hdiv
  unfold roundUp
  omega

theorem roundUp_lt {n unit : Nat} (h : 0 < unit) : roundUp n unit < n + unit := by
  have hle := Nat.div_mul_le_self (n + unit - 1) unit
  unfold roundUp
  omega

/-- A run of bytes, addressed from zero. -/
abbrev Memory := Array UInt8

namespace Memory

/-- The byte at an address, zero behind the end. -/
def byte (memory : Memory) (address : Nat) : UInt8 :=
  memory.getD address 0

def read (memory : Memory) (start count : Nat) : List UInt8 :=
  (List.range count).map fun i => byte memory (start + i)

/-- Overwrite the bytes from `start` on. -/
def write (memory : Memory) (start : Nat) : List UInt8 -> Memory
  | [] => memory
  | b :: bs => write (memory.setIfInBounds start b) (start + 1) bs

def zeros (size : Nat) : Memory :=
  Array.replicate size 0

/--
At least `size` bytes.  A memory that is too small is replaced by zeros of
exactly that size; a memory that is large enough stays as it is.
-/
def reserve (memory : Memory) (size : Nat) : Memory :=
  if size ≤ memory.size then memory else zeros size

@[simp] theorem size_zeros (size : Nat) : (zeros size).size = size := by
  simp [zeros]

theorem size_reserve (memory : Memory) (size : Nat) :
    (reserve memory size).size = max memory.size size := by
  unfold reserve
  split
  next hle => exact (Nat.max_eq_left hle).symm
  next hlt => rw [size_zeros, Nat.max_eq_right (Nat.le_of_not_le hlt)]

@[simp] theorem length_read (memory : Memory) (start count : Nat) :
    (read memory start count).length = count := by
  simp [read]

@[simp] theorem read_zero (memory : Memory) (start : Nat) :
    read memory start 0 = [] := rfl

@[simp] theorem size_write (memory : Memory) (start : Nat) (bytes : List UInt8) :
    (write memory start bytes).size = memory.size := by
  induction bytes generalizing memory start with
  | nil => rfl
  | cons b bs ih => simp [write, ih]

theorem byte_set (memory : Memory) (start address : Nat) (b : UInt8) :
    byte (memory.setIfInBounds start b) address =
      if start = address ∧ address < memory.size then b else byte memory address := by
  simp only [byte, Array.getD_eq_getD_getElem?, Array.getElem?_setIfInBounds]
  by_cases h : start = address
  · subst h
    by_cases hlt : start < memory.size <;> simp [hlt]
  · simp [h]

/-- A write changes exactly the addresses it covers. -/
theorem byte_write (memory : Memory) (start address : Nat) (bytes : List UInt8) :
    byte (write memory start bytes) address =
      if start ≤ address ∧ address < start + bytes.length ∧ address < memory.size then
        bytes.getD (address - start) 0
      else byte memory address := by
  induction bytes generalizing memory start with
  | nil =>
      have h : ¬ (start ≤ address ∧ address < start + 0 ∧ address < memory.size) := by omega
      simp only [write, List.length_nil, if_neg h]
  | cons b bs ih =>
      rw [write, ih, byte_set, Array.size_setIfInBounds, List.length_cons]
      by_cases heq : start = address
      · subst heq
        have hlast : ¬ start + 1 ≤ start := by omega
        by_cases hlt : start < memory.size <;> simp [hlt, hlast]
      · by_cases hle : start + 1 ≤ address
        · have hsub : address - start = address - (start + 1) + 1 := by omega
          have hle' : start ≤ address := by omega
          have hsum : start + (bs.length + 1) = start + 1 + bs.length := by omega
          simp [heq, hle, hle', hsub, hsum]
        · have hle' : ¬ start ≤ address := by omega
          simp [heq, hle, hle']

end Memory

/-!
## Spans
-/

/-- A run of addresses. -/
structure Span where
  /-- The first address. -/
  start : Nat
  /-- How many addresses follow, the first included. -/
  length : Nat
  deriving DecidableEq, Repr

namespace Span

def empty : Span := ⟨0, 0⟩

/-- The address behind the last one. -/
def stop (span : Span) : Nat := span.start + span.length

/-- The `count` addresses from offset `offset` on. -/
def sub (span : Span) (offset count : Nat) : Checked Span :=
  if offset + count ≤ span.length then .ok ⟨span.start + offset, count⟩
  else .error .outOfRange

/-- All addresses from offset `offset` on. -/
def suffix (span : Span) (offset : Nat) : Checked Span :=
  if offset ≤ span.length then .ok ⟨span.start + offset, span.length - offset⟩
  else .error .outOfRange

/-- The bytes that a memory holds at a span. -/
def load (span : Span) (memory : Memory) : List UInt8 :=
  Memory.read memory span.start span.length

/-- Overwrite the `bytes.length` bytes from offset `offset` of a span. -/
def store (span : Span) (offset : Nat) (bytes : List UInt8) (memory : Memory) :
    Checked Memory :=
  match span.sub offset bytes.length with
  | .error fault => .error fault
  | .ok target => .ok (Memory.write memory target.start bytes)

@[simp] theorem length_load (span : Span) (memory : Memory) :
    (span.load memory).length = span.length :=
  Memory.length_read ..

theorem sub_of_le {span : Span} {offset count : Nat} (h : offset + count ≤ span.length) :
    span.sub offset count = .ok ⟨span.start + offset, count⟩ :=
  if_pos h

theorem suffix_of_le {span : Span} {offset : Nat} (h : offset ≤ span.length) :
    span.suffix offset = .ok ⟨span.start + offset, span.length - offset⟩ :=
  if_pos h

theorem length_of_sub {span inner : Span} {offset count : Nat}
    (h : span.sub offset count = .ok inner) : inner.length = count := by
  unfold sub at h
  split at h
  next =>
    cases h
    rfl
  next => cases h

/-- What a span hands out starts and ends inside it. -/
theorem within_of_sub {span inner : Span} {offset count : Nat}
    (h : span.sub offset count = .ok inner) :
    span.start ≤ inner.start ∧ inner.stop ≤ span.stop := by
  unfold sub at h
  split at h
  next hle =>
    cases h
    simp only [stop]
    omega
  next => cases h

end Span

end RawVideo

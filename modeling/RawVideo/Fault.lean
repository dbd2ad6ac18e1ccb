/-!
# Faults and outcomes

An operation ends in one of three ways.  It answers, it reports an error that
its caller is meant to handle, or it breaks a promise of its own and stops: an
access behind the end of a plane, a sum that does not fit a machine word.  The
last is a fault, and nothing is answered after one.

A fault sits below errors, so an operation that reports an error keeps what it
had done so far, and one that faults leaves nothing behind.
-/

namespace RawVideo

/-- Why an operation stopped without an answer. -/
inductive Fault where
  /-- An index or an address lies outside what it indexes. -/
  | outOfRange
  /-- A number does not fit its machine word. -/
  | overflow
  /-- The two images of a conversion differ in width or height. -/
  | sizesDiffer
  /-- The two images of a conversion differ in chroma family. -/
  | familiesDiffer
  /-- A view of an image that holds no buffer was asked for. -/
  | released
  /-- A copy was given `available` bytes for `needed`. -/
  | shortDestination (available needed : Nat)
  deriving DecidableEq, Repr

/-- The text that accompanies a fault, where it has one. -/
def Fault.message? : Fault -> Option String
  | .outOfRange => none
  | .overflow => none
  | .sizesDiffer => some "only images with the same size can be converted"
  | .familiesDiffer => some "only images with the same chroma type can be converted"
  | .released => some "view of a released image"
  | .shortDestination available needed =>
      some s!"stream_copy destination too small ({available} < {needed})"

/-- A computation that may stop with a fault. -/
abbrev Checked := Except Fault

/-- A computation that may report an error of type `ε`. -/
abbrev Attempt (ε : Type) := ExceptT ε Checked

/-- An attempt over a state.  The state survives a reported error. -/
abbrev Action (ε σ : Type) := ExceptT ε (StateT σ Checked)

/-!
## Machine words

Sizes and addresses are natural numbers.  These two checks stand where a result
has to fit a word of 32 or of 64 bits.
-/

namespace Checked

/-- `n`, if it fits 32 bits. -/
def word32 (n : Nat) : Checked Nat :=
  if n < UInt32.size then .ok n else .error .overflow

/-- `n`, if it fits 64 bits. -/
def word64 (n : Nat) : Checked Nat :=
  if n < UInt64.size then .ok n else .error .overflow

theorem word64_of_lt {n : Nat} (h : n < UInt64.size) : word64 n = .ok n :=
  if_pos h

end Checked

/-!
## Attempts and actions from simpler computations
-/

/-- An attempt that never faults. -/
def Attempt.ofExcept {ε α : Type} (outcome : Except ε α) : Attempt ε α :=
  ExceptT.mk (.ok outcome)

/-- An attempt that never reports an error. -/
def Attempt.ofChecked {ε α : Type} (computation : Checked α) : Attempt ε α :=
  ExceptT.lift computation

namespace Action

/-- Run an attempt, which does not touch the state. -/
def ofAttempt {ε σ α : Type} (attempt : Attempt ε α) : Action ε σ α :=
  fun state => attempt.run.map fun answer => (answer, state)

/-- Replace the state by the result of a checked computation on it. -/
def update {ε σ : Type} (f : σ -> Checked σ) : Action ε σ Unit :=
  fun state => (f state).map fun next => (.ok (), next)

end Action

end RawVideo

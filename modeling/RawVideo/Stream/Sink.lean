import RawVideo.Error

/-!
# Sinks

Where a stream is written to: bytes in memory, as many as a capacity allows.  A
write that does not fit leaves the bytes that do, and fails.
-/

namespace RawVideo

/-- Bytes written so far, and how many there may be. -/
structure Sink where
  bytes : Array UInt8
  /-- None where there is no limit. -/
  capacity : Option Nat
  deriving DecidableEq, Repr

namespace Sink

def empty (capacity : Option Nat) : Sink := ⟨#[], capacity⟩

/-- How many of `count` more bytes fit. -/
def room (sink : Sink) (count : Nat) : Nat :=
  match sink.capacity with
  | none => count
  | some capacity => min count (capacity - sink.bytes.size)

def write (bytes : List UInt8) : Action Error Sink Unit := fun sink =>
  let fitting := bytes.take (sink.room bytes.length)
  let next : Sink := { sink with bytes := sink.bytes ++ fitting }
  if fitting.length = bytes.length then .ok (.ok (), next)
  else .ok (.error (.transport .sinkFull), next)

end Sink
end RawVideo

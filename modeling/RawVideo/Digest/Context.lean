import RawVideo.Digest.Adler32.Vector
import RawVideo.Digest.Md5
import RawVideo.Error
import RawVideo.Text.Hex

/-!
# Digest contexts

A context digests a message that comes in pieces.  It is ready until the first
byte, accumulates bytes, and once finished it keeps its value and takes no more
bytes until it is started again.  The last value stays readable all the while.
-/

namespace RawVideo

namespace Algorithm

/-- The digest of a message.  Adler-32 is taken from a zero state here. -/
def digest (algorithm : Algorithm) (message : List UInt8) : List UInt8 :=
  match algorithm with
  | .adler32 => (toLittleEndian 4 (Adler32.updateScalar 0 message).toNat).reverse
  | .md5 => Md5.digest message

/-- The algorithm with a name, or an error that shows it. -/
def ofName (name : String) : Except Error Algorithm :=
  match ofName? name with
  | some algorithm => .ok algorithm
  | none => .error (.unknownAlgorithm name)

end Algorithm

/-- The state after some bytes, computed by a kernel. -/
def Kernel.update (kernel : Kernel) (state : UInt32) (bytes : List UInt8) : UInt32 :=
  match kernel with
  | .scalar => Adler32.updateScalar state bytes
  | .chunked => Adler32.updateChunked state bytes
  | .ssse3 => Adler32.updateVector state bytes

/-!
## Accumulators
-/

/-- What a context knows about the bytes so far. -/
inductive Accumulator where
  | adler32 (state : UInt32)
  | md5 (context : Md5.Context)
  deriving DecidableEq, Repr

namespace Accumulator

/-- No bytes yet. -/
def initial : Algorithm -> Accumulator
  | .adler32 => .adler32 Adler32.seed
  | .md5 => .md5 Md5.Context.initial

def algorithm : Accumulator -> Algorithm
  | .adler32 _ => .adler32
  | .md5 _ => .md5

def update (kernel : Kernel) (bytes : List UInt8) : Accumulator -> Accumulator
  | .adler32 state => .adler32 (kernel.update state bytes)
  | .md5 context => .md5 (context.update bytes)

/-- The value of the bytes so far; Adler-32 puts the high byte first. -/
def value : Accumulator -> List UInt8
  | .adler32 state => (toLittleEndian 4 state.toNat).reverse
  | .md5 context => context.finish

end Accumulator

/-!
## Contexts
-/

/-- The phases of a context. -/
inductive Phase where
  /-- Started, and no bytes yet. -/
  | ready
  /-- Some bytes since the start. -/
  | accumulating
  /-- The value is computed. -/
  | finalized
  deriving DecidableEq, Repr

def Phase.name : Phase -> String
  | .ready => "Ready"
  | .accumulating => "Accumulating"
  | .finalized => "Finalized"

/-- A digest of a message that comes in pieces. -/
structure Context where
  kernel : Kernel
  phase : Phase
  accumulator : Accumulator
  /-- The last value, zeros before the first. -/
  value : List UInt8
  deriving DecidableEq, Repr

namespace Context

def new (algorithm : Algorithm) (kernel : Kernel) : Context :=
  ⟨kernel, .ready, .initial algorithm, List.replicate algorithm.length 0⟩

/-- A context that uses the fastest kernel of a processor. -/
def best (features : Features) (algorithm : Algorithm) : Context :=
  new algorithm (Kernel.best features)

/-- A context that uses a kernel, if the processor can run it. -/
def withKernel (features : Features) (algorithm : Algorithm) (kernel : Kernel) :
    Except Error Context :=
  if kernel.isSupported features then .ok (new algorithm kernel)
  else .error (.unavailableKernel kernel)

def algorithm (context : Context) : Algorithm :=
  context.accumulator.algorithm

/-- Start again; the last value stays. -/
def restart (context : Context) : Context :=
  { context with phase := .ready, accumulator := .initial context.algorithm }

/-- Take bytes, unless the context is finished. -/
def update (context : Context) (bytes : List UInt8) : Context :=
  match bytes, context.phase with
  | [], _ => context
  | _, .finalized => context
  | _, _ =>
      { context with
        phase := .accumulating
        accumulator := context.accumulator.update context.kernel bytes }

/-- Compute the value, unless that is done. -/
def finalize (context : Context) : Context :=
  match context.phase with
  | .finalized => context
  | _ =>
      { context with
        phase := .finalized
        accumulator := finished context.accumulator
        value := context.accumulator.value }
where
  /-- Only the running sums outlast the value. -/
  finished : Accumulator -> Accumulator
    | .adler32 state => .adler32 state
    | .md5 _ => .md5 Md5.Context.initial

/-- The last value in hexadecimal. -/
def hex (context : Context) : String :=
  Hex.ofBytes context.value

/-- The text of a context in diagnostics. -/
def describe (context : Context) : String :=
  "HashContext \x7b " ++ s!"hash_type: {context.algorithm.label}, " ++
    s!"strategy: {context.kernel.name}, state: {context.phase.name}" ++ " \x7d"

end Context

/-- The value of a message in hexadecimal. -/
def Algorithm.hexDigest (algorithm : Algorithm) (message : List UInt8) : String :=
  (((Context.best .full algorithm).update message).finalize).hex

end RawVideo

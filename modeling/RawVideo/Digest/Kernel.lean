/-!
# Algorithms and kernels

The digest algorithms, the kernels that compute the additive one, and the vector
features of a processor that decide which kernels it can run.
-/

namespace RawVideo

/-- The vector features that kernels use. -/
structure Features where
  /-- Byte-wise multiply and add. -/
  ssse3 : Bool
  /-- Streaming loads. -/
  sse41 : Bool
  deriving DecidableEq, Repr

namespace Features

/-- No vector feature. -/
def none : Features := ⟨false, false⟩

/-- Every vector feature. -/
def full : Features := ⟨true, true⟩

/-- Check whether any feature is there. -/
def any (features : Features) : Bool :=
  features.ssse3 || features.sse41

/-- The name of the highest level that the features reach. -/
def level (features : Features) : String :=
  if features.sse41 then "SSE4.1" else if features.ssse3 then "SSSE3" else "Scalar"

end Features

inductive Algorithm where
  /-- Adler-32 from a zero seed. -/
  | adler32
  | md5
  deriving DecidableEq, Repr

namespace Algorithm

def all : List Algorithm := [.adler32, .md5]

def name : Algorithm -> String
  | .adler32 => "adler32"
  | .md5 => "md5"

/-- The name of an algorithm in diagnostic texts. -/
def label : Algorithm -> String
  | .adler32 => "Adler32"
  | .md5 => "Md5"

/-- The length of a value in bytes. -/
def length : Algorithm -> Nat
  | .adler32 => 4
  | .md5 => 16

def ofName? (name : String) : Option Algorithm :=
  all.find? fun algorithm => algorithm.name == name

end Algorithm

/-- How Adler-32 sums are computed. -/
inductive Kernel where
  /-- One remainder for each byte. -/
  | scalar
  /-- One remainder for each long run. -/
  | chunked
  /-- Blocks of 32 bytes in vector lanes. -/
  | ssse3
  deriving DecidableEq, Repr

namespace Kernel

def all : List Kernel := [.scalar, .chunked, .ssse3]

def name : Kernel -> String
  | .scalar => "Scalar"
  | .chunked => "Chunked"
  | .ssse3 => "Ssse3"

/-- Check whether a processor can run a kernel. -/
def isSupported (kernel : Kernel) (features : Features) : Bool :=
  match kernel with
  | .ssse3 => features.ssse3
  | _ => true

/-- The fastest kernel that a processor can run. -/
def best (features : Features) : Kernel :=
  if features.ssse3 then .ssse3 else .chunked

end Kernel
end RawVideo

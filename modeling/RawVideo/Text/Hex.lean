/-!
# Hexadecimal text

Bytes are shown as two lower-case digits each, numbers with the fewest digits.
-/

namespace RawVideo
namespace Hex

/-- The digit of a number below sixteen. -/
def digit (n : Nat) : Char :=
  Nat.digitChar (n % 16)

/-- The two digits of a byte. -/
def ofByte (b : UInt8) : List Char :=
  [digit (b.toNat / 16), digit b.toNat]

/-- Two digits for each byte. -/
def ofBytes (bytes : List UInt8) : String :=
  String.ofList (bytes.flatMap ofByte)

/-- The digits of a number, without leading zeros. -/
def ofNat (n : Nat) : List Char :=
  Nat.toDigits 16 n

/-- The two or four lowest digits of a sample of `bytes` bytes. -/
def ofSample (bytes value : Nat) : List Char :=
  (List.range (2 * bytes)).reverse.map fun place => digit (value >>> (4 * place))

end Hex
end RawVideo

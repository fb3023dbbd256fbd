/-!
# Test ids

A test id is sixteen random bytes in hexadecimal digits, in five groups. Six of its bits are fixed:
they tell that the others are random.
-/

namespace Stagehand.TestId

def byteDigits (b : UInt8) : List Char :=
  [Nat.digitChar (b.toNat / 16), Nat.digitChar (b.toNat % 16)]

/-- Bytes with the fixed bits set. -/
def marked (bytes : List UInt8) : List UInt8 :=
  let bytes := bytes.modify 6 fun b => b % 16 + 64
  bytes.modify 8 fun b => b % 64 + 128

/-- How many bytes stand in each group. -/
def groups : List Nat := [4, 2, 2, 2, 6]

/-- Bytes in groups of some sizes, with hyphens between them. -/
def grouped : List Nat → List UInt8 → List Char
  | [], _ => []
  | [n], bytes => (bytes.take n).flatMap byteDigits
  | n :: rest, bytes => (bytes.take n).flatMap byteDigits ++ '-' :: grouped rest (bytes.drop n)

/-- The test id of sixteen bytes. -/
def ofBytes (bytes : List UInt8) : String := String.ofList (grouped groups (marked bytes))

end Stagehand.TestId

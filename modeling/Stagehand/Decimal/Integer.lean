/-!
# Whole numbers as text

`parseInt64?` reads a number of 64 bits: an optional sign, then ASCII digits and nothing else. A
number out of range is refused, never cut down. `satAdd` and `satMul` hold what is too large for 64
bits at the largest number.
-/

namespace Stagehand.Decimal

def digit? (c : Char) : Option Nat := if c.isDigit then some (c.toNat - '0'.toNat) else none

/-- The value of a digit of a base up to 36, in either case. -/
def digitOfBase? (base : Nat) (c : Char) : Option Nat :=
  let v :=
    if c.isDigit then some (c.toNat - '0'.toNat)
    else if c.isLower then some (c.toNat - 'a'.toNat + 10)
    else if c.isUpper then some (c.toNat - 'A'.toNat + 10)
    else none
  v.filter (· < base)

/-- Reads digits of a base onto what was read before them. -/
def readOnto? (base acc : Nat) : List Char → Option Nat
  | [] => some acc
  | c :: rest =>
    match digitOfBase? base c with
    | some d => readOnto? base (acc * base + d) rest
    | none => none

/-- The number that a non-empty list of digits writes. -/
def ofDigits? (base : Nat) : List Char → Option Nat
  | [] => none
  | cs => readOnto? base 0 cs

/-- A signed number whose digits have the given base. -/
def signedOfBase? (base : Nat) : List Char → Option Int
  | '-' :: cs => (ofDigits? base cs).map (fun n => -(n : Int))
  | '+' :: cs => (ofDigits? base cs).map Int.ofNat
  | cs => (ofDigits? base cs).map Int.ofNat

def fitsInt64 (n : Int) : Bool := -0x8000000000000000 ≤ n && n ≤ 0x7FFFFFFFFFFFFFFF

/-- The largest number of 64 bits without a sign. -/
def maxNat64 : Nat := 0xFFFFFFFFFFFFFFFF

/-- Reads a signed decimal number of 64 bits. -/
def parseInt64? (s : String) : Option Int := (signedOfBase? 10 s.toList).filter fitsInt64

/-- The sum, held at the largest number of 64 bits. -/
def satAdd (a b : Nat) : Nat := min (a + b) maxNat64

/-- The product, held at the largest number of 64 bits. -/
def satMul (a b : Nat) : Nat := min (a * b) maxNat64

/-- The quotient, rounded up. -/
def ceilDiv (a b : Nat) : Nat := (a + b - 1) / b

end Stagehand.Decimal

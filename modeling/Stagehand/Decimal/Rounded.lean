import Stagehand.Decimal.Shortest

/-!
# Rounded numbers

A number rounded to a fixed count of places or of digits, where a half goes to the even
neighbour. It is written with its places, with an exponent of at least two digits, or in the
shorter of the two ways.
-/

namespace Stagehand.Decimal

/-- The number rounded to some digits, with the exponent of the first one. Zero has the
exponent zero. -/
def Binary.rounded (b : Binary) (count : Nat) : List Char × Int :=
  if b.m = 0 then (List.replicate count '0', 0)
  else
    let (num, den) := b.ratio
    let e := leadingExponent num den
    let last := e - (count : Int) + 1
    let n := if 0 ≤ last then roundHalfEven num (den * Nat.pow 10 last.toNat)
      else roundHalfEven (num * Nat.pow 10 (-last).toNat) den
    let ds := Nat.toDigits 10 n
    if count < ds.length then (ds.take count, e + 1) else (ds, e)

/-- Digits behind a point, if there are any. -/
def behindPoint (alternate : Bool) (ds : List Char) : List Char :=
  if ds.isEmpty && !alternate then [] else '.' :: ds

/-- The number with some places; `alternate` keeps the point if there are none. -/
def Binary.withPlaces (b : Binary) (alternate : Bool) (places : Nat) : List Char :=
  let (num, den) := b.ratio
  let n := roundHalfEven (num * Nat.pow 10 places) den
  let ds := Nat.toDigits 10 n
  let ds := List.replicate (places + 1 - ds.length) '0' ++ ds
  ds.take (ds.length - places) ++ behindPoint alternate (ds.drop (ds.length - places))

def withExponent (alternate : Bool) (ds : List Char) (e : Int) : List Char :=
  let digits := Nat.toDigits 10 e.natAbs
  let digits := List.replicate (2 - digits.length) '0' ++ digits
  ds.take 1 ++ behindPoint alternate (ds.drop 1) ++ ['e', if e < 0 then '-' else '+'] ++ digits

/-- The number with an exponent, and with some places in front of it. -/
def Binary.scientific (b : Binary) (alternate : Bool) (places : Nat) : List Char :=
  let (ds, e) := b.rounded (places + 1)
  withExponent alternate ds e

/-- The digits of a number in base sixteen, with at least some of them. -/
def hexDigits (count n : Nat) : List Char :=
  let ds := Nat.toDigits 16 n
  List.replicate (count - ds.length) '0' ++ ds

/-- The number in base sixteen with an exponent of two, without the mark in front: with some places,
or with as many as it needs. -/
def Binary.hexadecimal (b : Binary) (alternate : Bool) (places : Option Nat) : List Char :=
  let count := min (places.getD 13) 13
  let n := roundHalfEven b.m (Nat.pow 16 (13 - count))
  let unit := Nat.pow 16 count
  let ds := if count = 0 then [] else hexDigits count (n % unit)
  let ds := match places with
    | some p => ds ++ List.replicate (p - count) '0'
    | none => (ds.reverse.dropWhile (· == '0')).reverse
  let e := if b.m = 0 then 0 else b.q + 52
  Nat.toDigits 16 (n / unit) ++ behindPoint alternate ds ++ ['p', if e < 0 then '-' else '+'] ++
    Nat.toDigits 10 e.natAbs

/-- Digits without the zeros at their end. -/
def withoutZeros (ds : List Char) : List Char := (ds.reverse.dropWhile (· == '0')).reverse

/-- The number with some digits, in the way that suits its size. Zeros at its end are left out
unless `alternate` is set. -/
def Binary.general (b : Binary) (alternate : Bool) (count : Nat) : List Char :=
  let count := max count 1
  let (ds, e) := b.rounded count
  let shown := fun ds : List Char => if alternate then ds else withoutZeros ds
  if e < -4 || (count : Int) ≤ e then withExponent alternate (ds.take 1 ++ shown (ds.drop 1)) e
  else if e < 0 then '0' :: behindPoint alternate (List.replicate (-e - 1).toNat '0' ++ shown ds)
  else
    let whole := e.toNat + 1
    ds.take whole ++ behindPoint alternate (shown (ds.drop whole))

end Stagehand.Decimal

/-!
# The shortest decimal of a binary fraction

A binary floating point number is `m · 2^q`. Every real number nearer to it than to its two
neighbours reads back as it. `shortest` gives the fewest digits that do, and of those the decimal
nearest to the number: for 1, 2, … 17 digits it tests the two neighbours of the number on that
decimal grid, in exact arithmetic. If a point of a grid reads back, so does one of these two.

`fixed` writes a number with a fixed count of places, where a half goes to the even neighbour.
-/

namespace Stagehand.Decimal

/-! ## Binary numbers -/

/-- A number `m · 2^q`, with a flag for the numbers whose lower neighbour is only half as far away
as the upper one. -/
structure Binary where
  m : Nat
  q : Int
  narrowBelow : Bool := false
  deriving DecidableEq, Repr

/-- The digits and the exponent of a number: `digits · 10^exponent`. -/
structure Digits where
  digits : Nat
  exponent : Int
  deriving DecidableEq, Repr

/-- The number that a finite, positive double holds. -/
def Binary.ofBits (bits : UInt64) : Binary :=
  let fraction := bits.toNat % Nat.pow 2 52
  let e : Nat := bits.toNat / Nat.pow 2 52 % Nat.pow 2 11
  if e = 0 then ⟨fraction, -1074, false⟩
  else ⟨fraction + Nat.pow 2 52, (e : Int) - 1075, fraction == 0 && e != 1⟩

/-- Numerator and denominator of `m · 2^q`. -/
def Binary.ratio (b : Binary) : Nat × Nat :=
  if 0 ≤ b.q then (b.m * Nat.pow 2 b.q.toNat, 1) else (b.m, Nat.pow 2 (-b.q).toNat)

/-- The decimal exponent of the leading digit of `num / den`, for a positive number. -/
def leadingExponent (num den : Nat) : Int :=
  if den ≤ num then ((Nat.toDigits 10 (num / den)).length : Int) - 1
  else
    let places := (List.range 400).find? (fun j => den ≤ num * Nat.pow 10 (j + 1))
    Int.negSucc (places.getD 399)

/-- `num / den` lies between the two midpoints around the number, ends included if `m` is even. The
midpoints are `low / 4` and `high / 4` in units of `2^q`. -/
def Binary.readsBack (b : Binary) (num den : Nat) : Bool :=
  let low := 4 * b.m - (if b.narrowBelow then 1 else 2)
  let high := 4 * b.m + 2
  let (n, d) := if 0 ≤ b.q then (4 * num, den * Nat.pow 2 b.q.toNat)
    else (4 * num * Nat.pow 2 (-b.q).toNat, den)
  if b.m % 2 == 0 then low * d ≤ n && n ≤ high * d else low * d < n && n < high * d

/-- Numerator and denominator of `digits · 10^exponent`. -/
def Digits.ratio (x : Digits) : Nat × Nat :=
  if 0 ≤ x.exponent then (x.digits * Nat.pow 10 x.exponent.toNat, 1)
  else (x.digits, Nat.pow 10 (-x.exponent).toNat)

/-- The number of the grid with `count` digits that reads back and is nearest to the number. -/
def Binary.onGrid? (b : Binary) (count : Nat) : Option Digits :=
  let (num, den) := b.ratio
  let e := leadingExponent num den - (count : Int) + 1
  let (n, d) := if 0 ≤ e then (num, den * Nat.pow 10 e.toNat)
    else (num * Nat.pow 10 (-e).toNat, den)
  let below := n / d
  let reads := fun k : Nat => let (a, c) := (Digits.mk k e).ratio; b.readsBack a c
  let nearer := if 2 * (n % d) < d || (2 * (n % d) == d && below % 2 == 0) then below else below + 1
  if reads nearer then some ⟨nearer, e⟩
  else if reads below then some ⟨below, e⟩
  else if reads (below + 1) then some ⟨below + 1, e⟩
  else none

/-- The fewest digits that read back, and of those the nearest. -/
def Binary.shortest (b : Binary) : Digits :=
  let found := (List.range 17).findSome? fun k => b.onGrid? (k + 1)
  found.getD ⟨b.m, 0⟩

/-! ## Text -/

def zeros (n : Nat) : String := String.ofList (List.replicate n '0')

/-- Writes a number with a point and at least one place; exponents are written with their sign, and
only for numbers below `0.00001` or from `10^16` on. -/
def Digits.render (x : Digits) : String :=
  let ds := Nat.toDigits 10 x.digits
  let point : Int := (ds.length : Int) + x.exponent
  if 0 ≤ x.exponent && point ≤ 16 then String.ofList ds ++ zeros x.exponent.toNat ++ ".0"
  else if 0 < point && point ≤ 16 then
    String.ofList (ds.take point.toNat) ++ "." ++ String.ofList (ds.drop point.toNat)
  else if -5 < point && point ≤ 0 then "0." ++ zeros (-point).toNat ++ String.ofList ds
  else
    let tail := ds.drop 1
    let mantissa := String.ofList (ds.take 1) ++
      (if tail.isEmpty then "" else "." ++ String.ofList tail)
    mantissa ++ (if 0 < point then "e+" else "e") ++ toString (point - 1)

/-- Drops trailing zeros of the digits. -/
def Digits.reduced : Nat → Digits → Digits
  | 0, x => x
  | fuel + 1, x =>
    if x.digits != 0 && x.digits % 10 == 0 then reduced fuel ⟨x.digits / 10, x.exponent + 1⟩ else x

/-- The shortest text of a number that reads back as it. -/
def Binary.render (b : Binary) : String :=
  if b.m = 0 then "0.0" else (b.shortest.reduced 20).render

/-- `num / den` to the nearest whole number, a half to the even one. -/
def roundHalfEven (num den : Nat) : Nat :=
  let below := num / den
  if 2 * (num % den) < den || (2 * (num % den) == den && below % 2 == 0) then below else below + 1

/-- A number with a fixed count of places. -/
def Binary.fixed (b : Binary) (places : Nat) : String :=
  let (num, den) := b.ratio
  let n := roundHalfEven (num * Nat.pow 10 places) den
  let frac := toString (n % Nat.pow 10 places)
  toString (n / Nat.pow 10 places) ++ "." ++ zeros (places - frac.length) ++ frac

end Stagehand.Decimal

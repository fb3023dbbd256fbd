import Stagehand.Decimal.Integer
import Stagehand.Decimal.Rounded
import Stagehand.Text.Bytes

/-!
# Real numbers of scripts

The real numbers that printing under a format reads and writes: decimal or hexadecimal digits with a
point and an exponent, an infinity, or no number at all. What is too large or too small for a double
is told as such.
-/

namespace Stagehand.Shell

/-- What a text writes. -/
structure RealReading where
  value : Float
  /-- The text behind the number. -/
  rest : List Char
  isOutOfRange : Bool := false

/-- The whole digits and the digits behind a point. -/
def realDigits (base : Nat) (cs : List Char) : List Char × List Char × List Char :=
  let isDigit := fun c : Char => (Decimal.digitOfBase? base c).isSome
  let whole := cs.takeWhile isDigit
  let rest := cs.drop whole.length
  match rest with
  | '.' :: behind =>
    let places := behind.takeWhile isDigit
    if whole.isEmpty && places.isEmpty then ([], [], cs)
      else (whole, places, behind.drop places.length)
  | _ => (whole, [], rest)

/-- The exponent behind one of some letters, with what follows it. -/
def realExponent (letters : List Char) (cs : List Char) : Int × List Char :=
  match cs with
  | c :: rest =>
    let (sign, ds) : Int × List Char := match rest with
      | '-' :: ds => (-1, ds)
      | '+' :: ds => (1, ds)
      | ds => (1, ds)
    let digits := ds.takeWhile Char.isDigit
    match letters.contains c, Decimal.ofDigits? 10 digits with
    | true, some n => (sign * n, ds.drop digits.length)
    | _, _ => (0, cs)
  | [] => (0, [])

/-- The largest exponent that is worth computing. -/
def exponentBound : Nat := 20000

/-- The value of digits of a base, times `radix` to an exponent. -/
def scaled (base radix : Nat) (digits : List Char) (exponent : Int) : Float :=
  let n := (Decimal.ofDigits? base digits).getD 0
  if n == 0 then 0.0
  else if (exponentBound : Int) < exponent then 1.0 / 0.0
  else if exponent < -(exponentBound : Int) then 0.0
  else if radix == 10 then Float.ofScientific n (exponent < 0) exponent.natAbs
  else Float.scaleB (Float.ofNat n) exponent

/-- A name at the start of a text in either case, with what follows it. -/
def leadingWord? (word : String) (cs : List Char) : Option (List Char) :=
  if (cs.take word.length).map Char.toLower == word.toList then some (cs.drop word.length) else none

/-- Reads a number without its sign. -/
def readMagnitude? (cs : List Char) : Option RealReading :=
  match (leadingWord? "infinity" cs).or (leadingWord? "inf" cs), leadingWord? "nan" cs with
  | some rest, _ => some ⟨1.0 / 0.0, rest, false⟩
  | none, some rest => some ⟨0.0 / 0.0, rest, false⟩
  | none, none =>
    let hex := match cs with
      | '0' :: x :: rest =>
        if x == 'x' || x == 'X' then
          let (whole, places, rest) := realDigits 16 rest
          if whole.isEmpty && places.isEmpty then none else some (whole, places, rest)
        else none
      | _ => none
    let (base, whole, places, rest) := match hex with
      | some (whole, places, rest) => (16, whole, places, rest)
      | none => let (whole, places, rest) := realDigits 10 cs; (10, whole, places, rest)
    if whole.isEmpty && places.isEmpty then none
    else
      let letters := if base == 16 then ['p', 'P'] else ['e', 'E']
      let (exponent, rest) := realExponent letters rest
      let perPlace : Int := if base == 16 then 4 else 1
      let x := scaled base (if base == 16 then 2 else 10) (whole ++ places)
        (exponent - perPlace * places.length)
      let isZero := (whole ++ places).all (· == '0')
      some ⟨x, rest, !isZero && (x.isInf || x < 2.2250738585072014e-308)⟩

/-- Reads a number, with blanks in front of it. -/
def readReal? (cs : List Char) : Option RealReading :=
  match cs.dropWhile Text.isSpace with
  | '-' :: cs => (readMagnitude? cs).map fun r => { r with value := -r.value }
  | '+' :: cs => readMagnitude? cs
  | cs => readMagnitude? cs

/-- A number under a directive: its sign and its digits. The letter tells how it is written, an
upper one that its letters are so too. -/
def realText (letter : Char) (alternate : Bool) (precision : Option Nat) (x : Float) :
    Bool × List Char :=
  let isNegative := x.toBits.toNat / Nat.pow 2 63 == 1
  let magnitude := Decimal.Binary.ofBits (x.abs).toBits
  let cs :=
    if x.isNaN then "nan".toList
    else if x.isInf then "inf".toList
    else
      match letter.toLower with
      | 'f' => magnitude.withPlaces alternate (precision.getD 6)
      | 'e' => magnitude.scientific alternate (precision.getD 6)
      | 'a' => magnitude.hexadecimal alternate precision
      | _ => magnitude.general alternate (precision.getD 6)
  (isNegative, if letter.isUpper then cs.map Char.toUpper else cs)

end Stagehand.Shell

import Stagehand.Decimal.Integer
import Stagehand.Text.Blank

/-!
# IPv4 addresses

An address is four octets. It is written as four decimal numbers with points between them, without
leading zeros, and read only in that form: `parse?` undoes `render`, and accepts nothing else.
-/

namespace Stagehand.Network

/-- Four octets. -/
structure Address where
  a : UInt8
  b : UInt8
  c : UInt8
  d : UInt8
  deriving DecidableEq, Repr, Inhabited

namespace Address

def octetText (x : UInt8) : List Char := Nat.toDigits 10 x.toNat

/-- The dotted form. -/
def renderChars (x : Address) : List Char :=
  octetText x.a ++ '.' :: (octetText x.b ++ '.' :: (octetText x.c ++ '.' :: octetText x.d))

def render (x : Address) : String := String.ofList x.renderChars

instance : ToString Address := ⟨render⟩

/-- An octet: one to three digits without a leading zero, at most 255. -/
def octet? (cs : List Char) : Option UInt8 :=
  if cs.isEmpty || 3 < cs.length then none
  else if cs.head? == some '0' && 1 < cs.length then none
  else if !cs.all Char.isDigit then none
  else
    match Decimal.ofDigits? 10 cs with
    | some n => if n < 256 then some n.toUInt8 else none
    | none => none

def parseChars? (cs : List Char) : Option Address :=
  match Text.pieces (· == '.') cs with
  | [p, q, r, s] =>
    match octet? p, octet? q, octet? r, octet? s with
    | some a, some b, some c, some d => some ⟨a, b, c, d⟩
    | _, _, _, _ => none
  | _ => none

/-- Reads the dotted form of a string. -/
def parse? (s : String) : Option Address := parseChars? s.toList

end Address

end Stagehand.Network

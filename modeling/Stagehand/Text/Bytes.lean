import Stagehand.Text.Search

/-!
# Texts of bytes

A text of bytes holds one character for each byte. So bytes that are no text can be taken apart like
any other, and each byte counts as one character. `narrow` makes such a text of a text, and `widen`
reads it back; what is no text stays as it is.
-/

namespace Stagehand.Text

def ofBytes (bytes : List UInt8) : String := String.ofList (bytes.map fun b => Char.ofNat b.toNat)

def toBytes (s : String) : List UInt8 := s.toList.map fun c => c.toNat.toUInt8

/-- A text as a text of bytes. -/
def narrow (s : String) : String := ofBytes s.toUTF8.toList

/-- The text that bytes write. -/
def widen (s : String) : String := (String.fromUTF8? ⟨(toBytes s).toArray⟩).getD s

/-- Bytes that separate words. -/
def isSpace (c : Char) : Bool := " \t\n\r\x0b\x0c".toList.contains c

/-- A text of bytes without what separates words at its ends. -/
def withoutSpace (cs : List Char) : List Char :=
  ((cs.dropWhile isSpace).reverse.dropWhile isSpace).reverse

end Stagehand.Text

/-!
# Blanks, words and lines

Text is cut at separators (`pieces`), at blanks (`words`) and at line ends (`lines`), and loses the
blanks at its ends (`trim`). A blank is any character with Unicode's `White_Space` property.

`pieces` keeps every character that is no separator, in order; `words` keeps the pieces that are not
empty, so that runs of blanks count once.
-/

namespace Stagehand.Text

/-! ## Blanks -/

/-- The characters of Unicode's `White_Space` property. -/
def isBlank (c : Char) : Bool :=
  let n := c.toNat
  (9 ≤ n && n ≤ 13) || n == 0x20 || n == 0x85 || n == 0xA0 || n == 0x1680 ||
  (0x2000 ≤ n && n ≤ 0x200A) || n == 0x2028 || n == 0x2029 || n == 0x202F || n == 0x205F ||
  n == 0x3000

def trimLeft (cs : List Char) : List Char := cs.dropWhile isBlank

def trimRight (cs : List Char) : List Char := (cs.reverse.dropWhile isBlank).reverse

/-- Drops the blanks at both ends. -/
def trimmed (cs : List Char) : List Char := trimRight (trimLeft cs)

/-- Drops the blanks at both ends of a string. -/
def trim (s : String) : String := String.ofList (trimmed s.toList)

/-! ## Pieces -/

/-- The text between separators; a text with `n` separators has `n + 1` pieces. -/
def pieces (sep : Char → Bool) : List Char → List (List Char)
  | [] => [[]]
  | c :: rest =>
    if sep c then [] :: pieces sep rest
    else
      match pieces sep rest with
      | [] => [[c]]
      | w :: ws => (c :: w) :: ws

/-- The pieces that are not empty. -/
def fields (sep : Char → Bool) (cs : List Char) : List (List Char) :=
  (pieces sep cs).filter (fun w => !w.isEmpty)

/-- The words of a text: its maximal runs without a blank. -/
def words (s : String) : List String := (fields isBlank s.toList).map String.ofList

/-- The parts of a string between separators, as strings. -/
def split (sep : Char → Bool) (s : String) : List String := (pieces sep s.toList).map String.ofList

/-! ## Lines -/

/-- Drops one carriage return at the end. -/
def dropReturn (cs : List Char) : List Char :=
  match cs.reverse with
  | '\r' :: rest => rest.reverse
  | _ => cs

/-- The lines among the pieces of a text: all but the last ended in a line feed, and lose a carriage
return before it; the last counts only if it holds something. -/
def endedLines : List (List Char) → List (List Char)
  | [] => []
  | [rest] => if rest.isEmpty then [] else [rest]
  | w :: ws => dropReturn w :: endedLines ws

def lines (s : String) : List String :=
  (endedLines (pieces (· == '\n') s.toList)).map String.ofList

/-! ## Letters -/

/-- ASCII letters in lower case, all else unchanged. -/
def asciiLower (s : String) : String := String.ofList (s.toList.map Char.toLower)

/-- ASCII letters in upper case, all else unchanged. -/
def asciiUpper (s : String) : String := String.ofList (s.toList.map Char.toUpper)

end Stagehand.Text

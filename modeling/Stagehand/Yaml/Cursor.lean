import Stagehand.Text.Search

/-!
# Reading positions in YAML text

A cursor is the text still to be read, with the line, the column and the count of bytes read before
it. Five characters end a line; a carriage return and the line feed after it end one line.
-/

namespace Stagehand.Yaml

/-! ## Characters -/

/-- Characters that may stand in a stream. -/
def isAllowed (c : Char) : Bool :=
  let n := c.toNat
  n == 0x09 || n == 0x0A || n == 0x0D || (0x20 ≤ n && n ≤ 0x7E) || n == 0x85 ||
  (0xA0 ≤ n && n ≤ 0xD7FF) || (0xE000 ≤ n && n ≤ 0xFFFD) || 0x10000 ≤ n

/-- A space or a tab. -/
def isGap (c : Char) : Bool := c == ' ' || c == '\t'

/-- A character that ends a line. -/
def isBreak (c : Char) : Bool :=
  c == '\n' || c == '\r' || c.toNat == 0x85 || c.toNat == 0x2028 || c.toNat == 0x2029

/-- A character that ends a word: a gap or the end of a line. -/
def endsWord (c : Char) : Bool := isGap c || isBreak c

/-- Characters of names: ASCII letters and digits, the underscore and the hyphen. -/
def isNameChar (c : Char) : Bool := c.isAlphanum || c == '_' || c == '-'

/-- The number of bytes of the first characters. -/
def bytesOfFirst (n : Nat) (cs : List Char) : Nat := ((cs.take n).map Char.utf8Size).foldl (· + ·) 0

/-! ## Cursors -/

/-- A reading position. Columns count characters, and the index counts bytes. -/
structure Cursor where
  rest : List Char
  line : Nat := 0
  column : Nat := 0
  index : Nat := 0

namespace Cursor

def peek? (c : Cursor) : Option Char := c.rest.head?

def sees (c : Cursor) (x : Char) : Bool := c.peek? == some x

/-- The next character is one of these. -/
def seesOneOf (c : Cursor) (xs : String) : Bool :=
  match c.peek? with
  | some x => xs.toList.contains x
  | none => false

def atEnd (c : Cursor) : Bool := c.rest.isEmpty

def test (c : Cursor) (p : Char → Bool) : Bool := (c.peek?.map p).getD false

/-- A word ends at this many characters from here. -/
def wordEndsAfter (c : Cursor) (n : Nat) : Bool :=
  match c.rest.drop n with
  | [] => true
  | x :: _ => endsWord x

def wordEnds (c : Cursor) : Bool := c.wordEndsAfter 0

def lineEnds (c : Cursor) : Bool := c.atEnd || c.test isBreak

/-- Passes characters that end no line. -/
def skip (c : Cursor) (n : Nat := 1) : Cursor :=
  { c with rest := c.rest.drop n, column := c.column + n,
           index := c.index + bytesOfFirst n c.rest }

/-- Reads the characters that pass a test, none of which ends a line. -/
def span (c : Cursor) (p : Char → Bool) : List Char × Cursor :=
  let taken := c.rest.takeWhile p
  (taken, c.skip taken.length)

/-- Passes the characters that pass a test, none of which ends a line. -/
def skipWhile (c : Cursor) (p : Char → Bool) : Cursor := (c.span p).2

/-- Goes to the next line, over this many characters. -/
def newLine (c : Cursor) (n : Nat) : Cursor :=
  { rest := c.rest.drop n, line := c.line + 1, column := 0,
    index := c.index + bytesOfFirst n c.rest }

/-- Reads the end of a line, if one is here. It counts as a line feed, unless it is one of the two
separators of Unicode. -/
def readBreak (c : Cursor) : List Char × Cursor :=
  match c.rest with
  | '\r' :: '\n' :: _ => (['\n'], c.newLine 2)
  | x :: _ =>
    if x.toNat == 0x2028 || x.toNat == 0x2029 then ([x], c.newLine 1)
    else if isBreak x then (['\n'], c.newLine 1)
    else ([], c)
  | [] => ([], c)

/-- A line starts here with three of these marks, and nothing else is in the word. -/
def atMarks (c : Cursor) (x : Char) : Bool :=
  c.column == 0 && c.rest.take 3 == [x, x, x] && c.wordEndsAfter 3

/-- A line that starts or ends a document is here. -/
def atDocumentMark (c : Cursor) : Bool := c.atMarks '-' || c.atMarks '.'

end Cursor

end Stagehand.Yaml

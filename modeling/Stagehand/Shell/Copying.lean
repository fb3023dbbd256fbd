/-!
# Copied bytes

Bytes are copied as they are, or so that what cannot be seen shows: numbered lines, marked line
ends, tabs and control characters. A line goes on from one file to the next.
-/

namespace Stagehand.Shell

/-- How bytes are shown. -/
structure CopyStyle where
  numbers : Bool := false
  /-- Only lines that are not empty are numbered. -/
  numbersFull : Bool := false
  /-- Of empty lines in a row only one is kept. -/
  squeezes : Bool := false
  marksEnds : Bool := false
  showsTabs : Bool := false
  showsControls : Bool := false

namespace CopyStyle

/-- The style that asks for nothing. -/
def isPlain (s : CopyStyle) : Bool :=
  !(s.numbers || s.numbersFull || s.squeezes || s.marksEnds || s.showsTabs || s.showsControls)

/-- A style with what a letter asks for. -/
def withLetter? (s : CopyStyle) : Char → Option CopyStyle
  | 'A' => some { s with marksEnds := true, showsTabs := true, showsControls := true }
  | 'b' => some { s with numbersFull := true }
  | 'e' => some { s with marksEnds := true, showsControls := true }
  | 'E' => some { s with marksEnds := true }
  | 'n' => some { s with numbers := true }
  | 's' => some { s with squeezes := true }
  | 't' => some { s with showsTabs := true, showsControls := true }
  | 'T' => some { s with showsTabs := true }
  | 'u' => some s
  | 'v' => some { s with showsControls := true }
  | _ => none

def longLetters : List (String × Char) :=
  [("number-nonblank", 'b'), ("number", 'n'), ("squeeze-blank", 's'), ("show-nonprinting", 'v'),
    ("show-ends", 'E'), ("show-tabs", 'T'), ("show-all", 'A')]

end CopyStyle

/-- Where copying stands. -/
structure CopyState where
  /-- The number of the last line that was numbered. -/
  line : Nat := 0
  atStart : Bool := true
  /-- The line before was empty. -/
  afterEmpty : Bool := false
  deriving Inhabited

/-- A byte below the first printable one, or the last, behind a hat. -/
def hatted (b : UInt8) : List UInt8 := [94, if b == 127 then 63 else b + 64]

def shownByte (s : CopyStyle) (b : UInt8) : List UInt8 :=
  if b == 9 then if s.showsTabs then hatted 9 else [9]
  else if !s.showsControls then [b]
  else if b < 32 || b == 127 then hatted b
  else if b < 128 then [b]
  else
    let low := b - 128
    [77, 45] ++ (if low < 32 || low == 127 then hatted low else [low])

def lineNumber (n : Nat) : List UInt8 :=
  let ds := (toString n).toList.map fun c => c.toNat.toUInt8
  List.replicate (6 - ds.length) 32 ++ ds ++ [9]

/-- What is shown of a byte, and where copying stands behind it. -/
def copyByte (s : CopyStyle) (st : CopyState) (b : UInt8) : List UInt8 × CopyState :=
  if b == 10 then
    if st.atStart && s.squeezes && st.afterEmpty then ([], st)
    else
      let numbered := st.atStart && s.numbers && !s.numbersFull
      let st' :=
        { st with
          line := if numbered then st.line + 1 else st.line
          atStart := true, afterEmpty := st.atStart }
      ((if numbered then lineNumber st'.line else []) ++
        (if s.marksEnds then [36, 10] else [10]), st')
  else
    let numbered := st.atStart && (s.numbers || s.numbersFull)
    let line := if numbered then st.line + 1 else st.line
    ((if numbered then lineNumber line else []) ++ shownByte s b, { line, atStart := false })

def copyBytes (s : CopyStyle) : List UInt8 → CopyState → List UInt8 × CopyState
  | [], st => ([], st)
  | b :: rest, st =>
    let (shown, st) := copyByte s st b
    let (more, st) := copyBytes s rest st
    (shown ++ more, st)

end Stagehand.Shell

import Stagehand.Decimal.Integer
import Stagehand.Yaml.Cursor

/-!
# Scalars

The texts of a YAML stream: plain, in quotes, or as a block of lines. Where a plain or
quoted text goes over the end of a line, the break is folded: one break is a space, more
breaks lose their first.

Each reader gives the text and the position behind it, or a reason why the stream is malformed.
-/

namespace Stagehand.Yaml

/-- What is read, or why the stream is malformed. -/
abbrev Reading := Except String

inductive ScalarStyle where
  | plain
  | singleQuoted
  | doubleQuoted
  | literal
  | folded
  deriving DecidableEq, Repr

/-! ## Gaps inside a text -/

/-- Blanks and line ends inside a text. -/
structure Gap where
  /-- A line ended. -/
  broken : Bool := false
  /-- Blanks before any line end. -/
  blanks : List Char := []
  /-- The first line end. -/
  first : List Char := []
  /-- The line ends after it. -/
  more : List Char := []

/-- What a gap stands for. -/
def Gap.fold (g : Gap) : List Char :=
  if g.broken then
    if g.first.head? == some '\n' then
      if g.more.isEmpty then [' '] else g.more
    else g.first ++ g.more
  else g.blanks

/-- Reads a gap. Below `tabColumn`, a tab at the start of a line is refused. -/
def readGap (tabColumn : Int) : Nat → Gap → Cursor → Reading (Gap × Cursor)
  | 0, g, c => .ok (g, c)
  | fuel + 1, g, c =>
    match c.peek? with
    | none => .ok (g, c)
    | some x =>
      if isGap x then
        if g.broken && (c.column : Int) < tabColumn && x == '\t' then
          .error "a tab where indentation is expected"
        else if g.broken then readGap tabColumn fuel g c.skip
        else readGap tabColumn fuel { g with blanks := g.blanks ++ [x] } c.skip
      else if isBreak x then
        let (text, c) := c.readBreak
        if g.broken then readGap tabColumn fuel { g with more := g.more ++ text } c
        else readGap tabColumn fuel { g with broken := true, blanks := [], first := text } c
      else .ok (g, c)

/-! ## Plain scalars -/

/-- The characters up to the end of a word of a plain scalar. -/
def plainWord (inFlow : Bool) : List Char → Reading (List Char)
  | [] => .ok []
  | x :: rest =>
    let next := rest.head?
    if endsWord x then .ok []
    else if inFlow && x == ':' &&
      (next.map fun y => ",?[]\x7b\x7d".toList.contains y).getD false then
      .error "an unexpected colon"
    else if x == ':' && (next.map endsWord).getD true then .ok []
    else if inFlow && ",[]\x7b\x7d".toList.contains x then .ok []
    else (plainWord inFlow rest).map (x :: ·)

/-- Reads the words of a plain scalar; the answer tells whether a line ended behind it. -/
def plainWords (inFlow : Bool) (indent : Int) :
    Nat → List Char → Gap → Cursor → Reading (List Char × Bool × Cursor)
  | 0, text, gap, c => .ok (text, gap.broken, c)
  | fuel + 1, text, gap, c => do
    if c.atDocumentMark || c.sees '#' then .ok (text, gap.broken, c)
    else
      let word ← plainWord inFlow c.rest
      let c := c.skip word.length
      let (text, gap) := if word.isEmpty then (text, gap) else (text ++ gap.fold ++ word, {})
      if !c.test endsWord then .ok (text, gap.broken, c)
      else
        let (gap, c) ← readGap indent (c.rest.length + 1) {} c
        if !inFlow && (c.column : Int) < indent then .ok (text, gap.broken, c)
        else plainWords inFlow indent fuel text gap c

/-- Reads a plain scalar inside an indentation. -/
def readPlain (inFlow : Bool) (indent : Int) (c : Cursor) : Reading (List Char × Bool × Cursor) :=
  plainWords inFlow (indent + 1) (c.rest.length + 1) [] {} c

/-! ## Quoted scalars -/

/-- The character that one letter behind a backslash stands for. -/
def escaped? (x : Char) : Option Char :=
  match x with
  | '0' => some '\x00'
  | 'a' => some '\x07'
  | 'b' => some '\x08'
  | 't' => some '\t'
  | '\t' => some '\t'
  | 'n' => some '\n'
  | 'v' => some '\x0b'
  | 'f' => some '\x0c'
  | 'r' => some '\r'
  | 'e' => some '\x1b'
  | ' ' => some ' '
  | '"' => some '"'
  | '/' => some '/'
  | '\\' => some '\\'
  | 'N' => some '\u0085'
  | '_' => some '\u00a0'
  | 'L' => some '\u2028'
  | 'P' => some '\u2029'
  | _ => none

/-- How many digits follow a letter behind a backslash. -/
def escapeDigits? (x : Char) : Option Nat :=
  match x with
  | 'x' => some 2
  | 'u' => some 4
  | 'U' => some 8
  | _ => none

/-- Reads a character written with a backslash, from behind the backslash. -/
def readEscape (c : Cursor) : Reading (Char × Cursor) :=
  match c.peek? with
  | none => .error "an unfinished escape"
  | some x =>
    match escaped? x, escapeDigits? x with
    | some y, _ => .ok (y, c.skip)
    | none, some count =>
      let digits := (c.rest.drop 1).take count
      match Decimal.ofDigits? 16 digits with
      | some n =>
        if digits.length < count then .error "too few digits in an escape"
        else if h : n.isValidChar then .ok (Char.ofNatAux n h, c.skip (count + 1))
        else .error "an escape that is no character"
      | none => .error "an escape without digits"
    | none, none => .error "an unknown escape"

/-- Reads the characters of a quoted scalar up to a gap or its end; the answer tells whether a line
end was escaped. -/
def quotedWord (single : Bool) : Nat → List Char → Cursor → Reading (List Char × Bool × Cursor)
  | 0, text, c => .ok (text, false, c)
  | fuel + 1, text, c => do
    match c.rest with
    | [] => .ok (text, false, c)
    | x :: rest =>
      if endsWord x then .ok (text, false, c)
      else if single then
        if x == '\'' then
          if rest.head? == some '\'' then quotedWord single fuel (text ++ ['\'']) (c.skip 2)
          else .ok (text, false, c)
        else quotedWord single fuel (text ++ [x]) c.skip
      else if x == '"' then .ok (text, false, c)
      else if x == '\\' then
        if (rest.head?.map isBreak).getD false then .ok (text, true, c.skip.readBreak.2)
        else
          let (y, c) ← readEscape c.skip
          quotedWord single fuel (text ++ [y]) c
      else quotedWord single fuel (text ++ [x]) c.skip

/-- Reads the words of a quoted scalar up to its closing quote. -/
def quotedWords (single : Bool) : Nat → List Char → Cursor → Reading (List Char × Cursor)
  | 0, _, _ => .error "an unfinished quoted scalar"
  | fuel + 1, text, c => do
    if c.atDocumentMark then .error "a document mark inside quotes"
    else if c.atEnd then .error "the stream ends inside quotes"
    else
      let (text, escapedBreak, c) ← quotedWord single (c.rest.length + 1) text c
      if c.sees (if single then '\'' else '"') then .ok (text, c.skip)
      else
        let (gap, c) ← readGap 0 (c.rest.length + 1) { broken := escapedBreak } c
        quotedWords single fuel (text ++ gap.fold) c

def readQuoted (single : Bool) (c : Cursor) : Reading (List Char × Cursor) :=
  quotedWords single (c.rest.length + 2) [] c.skip

/-! ## Blocks -/

/-- What becomes of the line ends behind a block. -/
inductive Chomping where
  | strip
  | clip
  | keep
  deriving DecidableEq

def readChomping (c : Cursor) : Option Chomping × Cursor :=
  if c.sees '+' then (some .keep, c.skip)
  else if c.sees '-' then (some .strip, c.skip)
  else (none, c)

/-- Reads the digit of an indentation. -/
def readIncrement (c : Cursor) : Reading (Option Nat × Cursor) :=
  match c.peek?.bind Decimal.digit? with
  | some 0 => .error "an indentation of zero"
  | some n => .ok (some n, c.skip)
  | none => .ok (none, c)

/-- Reads what stands behind the sign of a block: chomping and indentation, in either order. -/
def readBlockHead (c : Cursor) : Reading (Chomping × Option Nat × Cursor) := do
  match readChomping c with
  | (some chomping, c) =>
    let (increment, c) ← readIncrement c
    .ok (chomping, increment, c)
  | (none, c) =>
    let (increment, c) ← readIncrement c
    let (chomping, c) := if increment.isSome then readChomping c else (none, c)
    .ok (chomping.getD .clip, increment, c)

/-- Passes a comment and the blanks in front of it; a line has to end behind them. -/
def skipComment (c : Cursor) : Reading Cursor :=
  let c := c.skipWhile isGap
  let c := if c.sees '#' then c.skipWhile (fun x => !isBreak x) else c
  if c.lineEnds then .ok c.readBreak.2 else .error "text where a line has to end"

/-- Reads the empty lines of a block. While its indentation is not known, the deepest
line counts. -/
def blockBreaks (indent : Option Nat) :
    Nat → Nat → List Char → Cursor → Reading (Nat × List Char × Cursor)
  | 0, deepest, breaks, c => .ok (deepest, breaks, c)
  | fuel + 1, deepest, breaks, c =>
    let below := match indent with
      | none => c.rest.length
      | some n => n - c.column
    let c := c.skip ((c.rest.take below).takeWhile (· == ' ')).length
    let deepest := max deepest c.column
    let open? := match indent with
      | none => true
      | some n => c.column < n
    if open? && c.sees '\t' then .error "a tab where indentation is expected"
    else if c.test isBreak then
      let (text, c) := c.readBreak
      blockBreaks indent fuel deepest (breaks ++ text) c
    else .ok (deepest, breaks, c)

/-- Reads the lines of a block. `pending` is the end of the line before and `breaks` the empty lines
after it; the line before was indented further if `wasGap`. -/
def blockLines (style : ScalarStyle) (indent : Nat) :
    Nat → List Char → List Char → List Char → Bool → Cursor →
    Reading (List Char × List Char × List Char × Cursor)
  | 0, text, pending, breaks, _, c => .ok (text, pending, breaks, c)
  | fuel + 1, text, pending, breaks, wasGap, c => do
    if c.column != indent || c.atEnd then .ok (text, pending, breaks, c)
    else
      let isGapLine := c.test isGap
      let joined :=
        if style == .folded && pending.head? == some '\n' && !wasGap && !isGapLine then
          if breaks.isEmpty then [' '] else []
        else pending
      let (line, c) := c.span (fun x => !isBreak x)
      let (pending, c) := c.readBreak
      let (_, later, c) ← blockBreaks (some indent) (c.rest.length + 1) 0 [] c
      blockLines style indent fuel (text ++ joined ++ breaks ++ line) pending later isGapLine c

/-- Reads a block inside an indentation. -/
def readBlock (style : ScalarStyle) (outer : Int) (c : Cursor) : Reading (List Char × Cursor) := do
  let (chomping, increment, c) ← readBlockHead c.skip
  let c ← skipComment c
  let given := increment.map fun n => if 0 ≤ outer then outer.toNat + n else n
  let (deepest, breaks, c) ← blockBreaks given (c.rest.length + 1) 0 [] c
  let indent := given.getD (max deepest (max (outer + 1) 1).toNat)
  let (text, pending, breaks, c) ←
    blockLines style indent (c.rest.length + 1) [] [] breaks false c
  .ok
    (text ++ (if chomping == .strip then [] else pending) ++
      (if chomping == .keep then breaks else []), c)

end Stagehand.Yaml

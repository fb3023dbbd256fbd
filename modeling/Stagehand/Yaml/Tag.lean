import Stagehand.Yaml.Scalar

/-!
# Tags, anchors and directives

The names that may stand in front of a node, and the lines in front of a document that declare them.
-/

namespace Stagehand.Yaml

/-! ## Tags -/

/-- A tag as it is written: a declared handle, which may be empty, and what follows it. -/
structure Tag where
  handle : List Char
  suffix : List Char
  deriving DecidableEq, Repr

/-- The bytes of characters written with percent signs, two digits each. -/
def percentBytes : Nat → List Char → Reading (List UInt8)
  | 0, _ => .ok []
  | count + 1, '%' :: x :: y :: rest =>
    match Decimal.ofDigits? 16 [x, y] with
    | some n => (percentBytes count rest).map (n.toUInt8 :: ·)
    | none => .error "a percent sign without two digits"
  | _ + 1, _ => .error "a percent sign without two digits"

/-- How many bytes a character has whose first byte is given. -/
def utf8Width? (first : UInt8) : Option Nat :=
  let n := first.toNat
  if n < 0x80 then some 1
  else if 0xC0 ≤ n && n < 0xE0 then some 2
  else if 0xE0 ≤ n && n < 0xF0 then some 3
  else if 0xF0 ≤ n && n < 0xF8 then some 4
  else none

/-- Reads one character that is written with percent signs. -/
def readPercent (c : Cursor) : Reading (Char × Cursor) := do
  let first ← percentBytes 1 c.rest
  match first.head?.bind utf8Width? with
  | none => .error "a percent sign with a byte that starts no character"
  | some width =>
    let bytes ← percentBytes width c.rest
    match String.fromUTF8? ⟨bytes.toArray⟩ with
    | some s =>
      match s.toList with
      | [x] => .ok (x, c.skip (3 * width))
      | _ => .error "percent signs that write no character"
    | none => .error "percent signs that write no character"

def isTagChar (wide : Bool) (x : Char) : Bool :=
  isNameChar x || ";/?:@&=+$.%!~*'()".toList.contains x || (wide && ",[]".toList.contains x)

def tagChars (wide : Bool) : Nat → List Char → Cursor → Reading (List Char × Cursor)
  | 0, text, c => .ok (text, c)
  | fuel + 1, text, c => do
    match c.peek? with
    | none => .ok (text, c)
    | some x =>
      if x == '%' then
        let (y, c) ← readPercent c
        tagChars wide fuel (text ++ [y]) c
      else if isTagChar wide x then tagChars wide fuel (text ++ [x]) c.skip
      else .ok (text, c)

/-- Reads the rest of a tag behind `head`; something has to be there. -/
def readTagRest (wide : Bool) (head : List Char) (c : Cursor) : Reading (List Char × Cursor) := do
  let (text, c) ← tagChars wide (c.rest.length + 1) [] c
  if head.isEmpty && text.isEmpty then .error "a tag without text" else .ok (head.drop 1 ++ text, c)

/-- Reads a handle: an exclamation mark, a name, and a second mark if the name is declared. -/
def readHandle (declared : Bool) (c : Cursor) : Reading (List Char × Cursor) :=
  if !c.sees '!' then .error "a handle without its mark"
  else
    let (name, c) := c.skip.span isNameChar
    if c.sees '!' then .ok ('!' :: name ++ ['!'], c.skip)
    else if declared && !name.isEmpty then .error "a handle without its second mark"
    else .ok ('!' :: name, c)

def readTag (inFlow : Bool) (c : Cursor) : Reading (Tag × Cursor) := do
  let (tag, c) ←
    if (c.rest.drop 1).head? == some '<' then do
      let (suffix, c) ← readTagRest true [] (c.skip 2)
      if c.sees '>' then pure (⟨[], suffix⟩, c.skip) else .error "a tag without its closing sign"
    else do
      let (handle, c) ← readHandle false c
      if 1 < handle.length && handle.getLast? == some '!' then
        let (suffix, c) ← readTagRest false [] c
        pure (⟨handle, suffix⟩, c)
      else
        let (suffix, c) ← readTagRest false handle c
        pure (if suffix.isEmpty then ⟨[], ['!']⟩ else ⟨['!'], suffix⟩, c)
  if c.wordEnds || (inFlow && c.sees ',') then .ok (tag, c)
  else .error "text right behind a tag"

/-! ## Anchors -/

/-- Reads the name of an anchor, or of an alias to it. -/
def readAnchor (c : Cursor) : Reading (List Char × Cursor) :=
  let (name, c) := c.skip.span isNameChar
  if !name.isEmpty && (c.wordEnds || c.seesOneOf "?:,]\x7d%@\x60") then .ok (name, c)
  else .error "an anchor without a name"

/-! ## Directives -/

/-- A line that declares something for the document behind it. -/
inductive Directive where
  | version (major minor : Nat)
  | tag (handle stem : List Char)
  deriving DecidableEq, Repr

def readVersionNumber (c : Cursor) : Reading (Nat × Cursor) :=
  let (digits, c) := c.span Char.isDigit
  match Decimal.ofDigits? 10 digits with
  | some n => if digits.length ≤ 9 then .ok (n, c) else .error "a version number that is too long"
  | none => .error "a version without a number"

def readVersion (c : Cursor) : Reading (Directive × Cursor) := do
  let (major, c) ← readVersionNumber (c.skipWhile isGap)
  if !c.sees '.' then .error "a version without a point"
  else
    let (minor, c) ← readVersionNumber c.skip
    .ok (.version major minor, c)

def readTagDeclaration (c : Cursor) : Reading (Directive × Cursor) := do
  let (handle, c) ← readHandle true (c.skipWhile isGap)
  if !c.test isGap then .error "text right behind a handle"
  else
    let (stem, c) ← readTagRest true [] (c.skipWhile isGap)
    if c.wordEnds then .ok (.tag handle stem, c) else .error "text right behind a tag"

def readDirective (c : Cursor) : Reading (Directive × Cursor) := do
  let (name, c) := c.skip.span isNameChar
  if name.isEmpty || !c.wordEnds then .error "a directive without a name"
  else
    let (directive, c) ←
      if name == "YAML".toList then readVersion c
      else if name == "TAG".toList then readTagDeclaration c
      else .error "an unknown directive"
    .ok (directive, ← skipComment c)

end Stagehand.Yaml

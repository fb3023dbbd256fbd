import Stagehand.Yaml.Tag

/-!
# Tokens

A YAML stream as tokens. Indentation opens and closes collections: `blockEnd` stands where a line is
indented less than the collection that is open.

**Simple keys.** A node may turn out to be a key when a colon follows it on its line. Where one
may stand, its place among the tokens is kept in a slot, one per flow collection, and the key
token is put there afterwards. A key that starts a line at the indentation of a mapping has to be
followed by its colon.
-/

namespace Stagehand.Yaml

inductive Token where
  | directive (d : Directive)
  | documentStart
  | documentEnd
  | sequenceStart
  | mappingStart
  | blockEnd
  | flowSequenceStart
  | flowSequenceEnd
  | flowMappingStart
  | flowMappingEnd
  | blockEntry
  | flowEntry
  | key
  | value
  | aliasOf (name : List Char)
  | anchor (name : List Char)
  | tag (tag : Tag)
  | scalar (text : List Char) (style : ScalarStyle)
  deriving DecidableEq, Repr

/-! ## The state of reading -/

/-- A place where a simple key may stand. -/
structure KeySlot where
  /-- Something that may be a key has been read. -/
  possible : Bool := false
  /-- Its colon has to follow. -/
  required : Bool := false
  /-- Where its key token goes. -/
  place : Nat := 0
  line : Nat := 0
  column : Nat := 0
  index : Nat := 0

/-- The state of reading tokens. -/
structure Scan where
  cursor : Cursor
  tokens : Array Token := #[]
  /-- The slot of the collection that is open. -/
  slot : KeySlot := {}
  /-- The slots of the collections around it. -/
  outerSlots : List KeySlot := []
  /-- The column of the block that is open. -/
  indent : Int := -1
  /-- The columns of the blocks around it. -/
  outerIndents : List Int := []
  /-- A simple key may start here. -/
  keyAllowed : Bool := true

namespace Scan

/-- A flow collection is open. -/
def inFlow (s : Scan) : Bool := !s.outerSlots.isEmpty

def emit (s : Scan) (t : Token) : Scan := { s with tokens := s.tokens.push t }

/-- Adds a token of some characters. -/
def emitSkip (s : Scan) (t : Token) (n : Nat) : Scan :=
  { s.emit t with cursor := s.cursor.skip n }

/-! ## Simple keys -/

/-- A slot whose key has gone by without its colon. -/
def dropSlot (slot : KeySlot) : Reading KeySlot :=
  if slot.possible && slot.required then .error "a key without its colon"
  else .ok { slot with possible := false }

/-- Empties the slot. -/
def forgetKey (s : Scan) : Reading Scan := do .ok { s with slot := ← dropSlot s.slot }

/-- Notes that a simple key may start here. -/
def noteKey (s : Scan) : Reading Scan :=
  if s.keyAllowed then do
    let s ← s.forgetKey
    .ok { s with slot :=
      { possible := true
        required := !s.inFlow && s.indent == (s.cursor.column : Int)
        place := s.tokens.size
        line := s.cursor.line
        column := s.cursor.column
        index := s.cursor.index } }
  else .ok s

/-- Drops a key that is on an earlier line or more than 1024 bytes back. -/
def dropStale (c : Cursor) (slot : KeySlot) : Reading KeySlot :=
  if slot.possible && (slot.line < c.line || slot.index + 1024 < c.index) then dropSlot slot
  else .ok slot

/-- Drops all keys that are too far back. -/
def dropStaleKeys (s : Scan) : Reading Scan := do
  .ok { s with
    slot := ← dropStale s.cursor s.slot
    outerSlots := ← s.outerSlots.mapM (dropStale s.cursor) }

/-! ## Indentation -/

/-- Opens a block at a column, if it is further right; its token goes to a place among
the others. -/
def openBlock (s : Scan) (column : Nat) (place : Nat) (t : Token) : Scan :=
  if s.inFlow || (column : Int) ≤ s.indent then s
  else
    { s with
      indent := column
      outerIndents := s.indent :: s.outerIndents
      tokens := s.tokens.insertIdxIfInBounds place t }

/-- Closes the blocks that are further right than a column. -/
def closeTo (column : Int) : List Int → Scan → Scan
  | [], s => s
  | outer :: rest, s =>
    if column < s.indent then
      closeTo column rest { s.emit .blockEnd with indent := outer, outerIndents := rest }
    else s

/-- Closes the blocks that are further right than a column. -/
def closeBlocks (s : Scan) (column : Int) : Scan :=
  if s.inFlow then s else closeTo column s.outerIndents s

/-! ## Single tokens -/

/-- Passes blanks, comments and line ends. A mark of the order of bytes is passed where a line
starts, and takes the first column of the line. -/
def skipToToken : Nat → Scan → Scan
  | 0, s => s
  | fuel + 1, s =>
    let c := s.cursor
    let c := if c.column == 0 && c.sees '\ufeff' then c.skip else c
    let tabs := s.inFlow || !s.keyAllowed
    let c := c.skipWhile fun x => x == ' ' || (tabs && x == '\t')
    let c := if c.sees '#' then c.skipWhile (fun x => !isBreak x) else c
    if c.test isBreak then
      skipToToken fuel
        { s with cursor := c.readBreak.2, keyAllowed := s.keyAllowed || !s.inFlow }
    else { s with cursor := c }

/-- A token that stands between nodes, after which a key may start or not. -/
def mark (s : Scan) (t : Token) (n : Nat) (keyAllowed : Bool) : Reading Scan := do
  let s ← s.forgetKey
  .ok { s.emitSkip t n with keyAllowed }

/-- A token that stands at the start of a line outside all blocks. -/
def topMark (s : Scan) (t : Token) : Reading Scan := (s.closeBlocks (-1)).mark t 3 false

def directive (s : Scan) : Reading Scan := do
  let s ← (s.closeBlocks (-1)).forgetKey
  let (d, cursor) ← readDirective s.cursor
  .ok { s.emit (.directive d) with cursor, keyAllowed := false }

/-- The start of a flow collection. -/
def openFlow (s : Scan) (t : Token) : Reading Scan := do
  let s ← s.noteKey
  .ok { s.emitSkip t 1 with slot := {}, outerSlots := s.slot :: s.outerSlots, keyAllowed := true }

/-- The end of a flow collection. -/
def closeFlow (s : Scan) (t : Token) : Reading Scan := do
  let s ← s.mark t 1 false
  match s.outerSlots with
  | slot :: outerSlots => .ok { s with slot, outerSlots }
  | [] => .ok s

/-- The mark of an entry or of a key, which opens a block where there is none. -/
def blockMark (s : Scan) (t opener : Token) (keyAfter : Bool) : Reading Scan := do
  if !s.inFlow && !s.keyAllowed then .error "an entry that is not allowed here"
  else (s.openBlock s.cursor.column s.tokens.size opener).mark t 1 keyAfter

def value (s : Scan) : Reading Scan := do
  if s.slot.possible then
    let tokens := s.tokens.insertIdxIfInBounds s.slot.place .key
    let s := { s with tokens, slot := { s.slot with possible := false } }
    let s := s.openBlock s.slot.column s.slot.place .mappingStart
    .ok { s.emitSkip .value 1 with keyAllowed := false }
  else if !s.inFlow && !s.keyAllowed then .error "a value that is not allowed here"
  else
    let s := s.openBlock s.cursor.column s.tokens.size .mappingStart
    .ok { s.emitSkip .value 1 with keyAllowed := !s.inFlow }

/-- A token of a node, after which no key may start. -/
def nodeToken {α : Type} (s : Scan) (read : Cursor → Reading (α × Cursor)) (token : α → Token) :
    Reading Scan := do
  let s ← s.noteKey
  let (a, cursor) ← read s.cursor
  .ok { s.emit (token a) with cursor, keyAllowed := false }

def block (s : Scan) (style : ScalarStyle) : Reading Scan := do
  let s ← s.forgetKey
  let (text, cursor) ← readBlock style s.indent s.cursor
  .ok { s.emit (.scalar text style) with cursor, keyAllowed := true }

def plain (s : Scan) : Reading Scan := do
  let s ← s.noteKey
  let (text, broken, cursor) ← readPlain s.inFlow s.indent s.cursor
  .ok { s.emit (.scalar text .plain) with cursor, keyAllowed := broken }

/-- Characters that no plain scalar starts with. -/
def indicators : List Char := "-?:,[]\x7b\x7d#&*!|>'\"%@\x60".toList

def plainStarts (s : Scan) : Bool :=
  let c := s.cursor
  let lone := c.wordEndsAfter 1
  (!c.wordEnds && !c.test indicators.contains) ||
  (c.sees '-' && !((c.rest.drop 1).head?.map isGap).getD false) ||
  (!s.inFlow && c.seesOneOf "?:" && !lone)

def token (s : Scan) : Reading Scan :=
  let c := s.cursor
  let lone := c.wordEndsAfter 1
  if c.column == 0 && c.sees '%' then s.directive
  else if c.atMarks '-' then s.topMark .documentStart
  else if c.atMarks '.' then s.topMark .documentEnd
  else if c.sees '[' then s.openFlow .flowSequenceStart
  else if c.sees '\x7b' then s.openFlow .flowMappingStart
  else if c.sees ']' then s.closeFlow .flowSequenceEnd
  else if c.sees '\x7d' then s.closeFlow .flowMappingEnd
  else if c.sees ',' then s.mark .flowEntry 1 true
  else if c.sees '-' && lone then
    if s.inFlow then s.mark .blockEntry 1 true else s.blockMark .blockEntry .sequenceStart true
  else if c.sees '?' && (s.inFlow || lone) then s.blockMark .key .mappingStart (!s.inFlow)
  else if c.sees ':' && (s.inFlow || lone) then s.value
  else if c.sees '*' then s.nodeToken readAnchor .aliasOf
  else if c.sees '&' then s.nodeToken readAnchor .anchor
  else if c.sees '!' then s.nodeToken (readTag s.inFlow) .tag
  else if c.sees '|' && !s.inFlow then s.block .literal
  else if c.sees '>' && !s.inFlow then s.block .folded
  else if c.sees '\'' then s.nodeToken (readQuoted true) (.scalar · .singleQuoted)
  else if c.sees '"' then s.nodeToken (readQuoted false) (.scalar · .doubleQuoted)
  else if s.plainStarts then s.plain
  else .error "a character that starts no token"

def finish (s : Scan) : Reading Scan := (s.closeBlocks (-1)).forgetKey

/-- Reads tokens up to the end of the stream. -/
def all : Nat → Scan → Reading Scan
  | 0, _ => .error "a stream that does not end"
  | fuel + 1, s => do
    let s ← (skipToToken (s.cursor.rest.length + 1) s).dropStaleKeys
    let s := s.closeBlocks s.cursor.column
    if s.cursor.atEnd then s.finish
    else all fuel (← s.token)

end Scan

def Token.ofText (text : List Char) : Reading (List Token) :=
  if !text.all isAllowed then .error "a control character"
  else do
    let s ← Scan.all (text.length + 1) { cursor := { rest := text } }
    .ok s.tokens.toList

end Stagehand.Yaml

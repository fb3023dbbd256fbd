import Stagehand.NameMap
import Stagehand.Yaml.Node

/-!
# Records in documents

A record is a mapping whose keys are names; what a name leads to is read as text, as a whole number,
or as a collection of texts. An empty document, and an empty plain scalar, is a record without
members and a collection without items.

A text is the text of any scalar. A plain scalar that is empty or a word for nothing is an absent
value where a value may be absent.
-/

namespace Stagehand.Yaml

/-! ## Single values -/

def nothingWords : List (List Char) := ["null", "Null", "NULL", "~"].map String.toList

def nothingTag : List Char := "tag:yaml.org,2002:null".toList

def wholeTag : List Char := "tag:yaml.org,2002:int".toList

namespace Node

def isEmptyPlain : Node → Bool
  | scalar _ _ [] .plain => true
  | _ => false

def readText (root n : Node) : Reading String :=
  match root.target n with
  | scalar _ _ text _ => .ok (String.ofList text)
  | _ => .error "a text is missing"

/-- A node stands for nothing. -/
def isNothing (root n : Node) : Reading Bool :=
  match root.target n with
  | scalar _ tag text .plain =>
    match tag with
    | some t =>
      if t != nothingTag then .ok false
      else if nothingWords.contains text then .ok true
      else .error "nothing is expected"
    | none => .ok (text.isEmpty || nothingWords.contains text)
  | _ => .ok false

/-- A value that may be absent. -/
def readOptional {α : Type} (read : Node → Node → Reading α) (root n : Node) :
    Reading (Option α) := do
  if ← isNothing root n then .ok none else (read root n).map some

/-! ## Whole numbers -/

/-- The digits behind a mark, after an optional sign. A plus sign is kept out of the digits. -/
def markedDigits? (base : Nat) (mark : List Char) (text : List Char) : Option Int :=
  match text with
  | '-' :: rest => (Text.stripLeading? mark rest).bind fun ds =>
      (Decimal.ofDigits? base ds).map fun n => -(n : Int)
  | '+' :: rest => (Text.stripLeading? mark rest).bind fun ds =>
      (Decimal.ofDigits? base ds).map Int.ofNat
  | _ => (Text.stripLeading? mark text).bind fun ds => (Decimal.ofDigits? base ds).map Int.ofNat

/-- Digits that start with a zero and have more digits behind it. -/
def hasIdleZero (text : List Char) : Bool :=
  let digits := match text with
    | '-' :: rest | '+' :: rest => rest
    | _ => text
  1 < digits.length && digits.head? == some '0' && digits.all Char.isDigit

/-- A whole number of 64 bits: decimal, or behind a mark with sixteen, eight or two digits. -/
def wholeNumber? (text : List Char) : Option Int :=
  let marked := [(16, "0x"), (8, "0o"), (2, "0b")].findSome? fun m =>
    (markedDigits? m.1 m.2.toList text).filter Decimal.fitsInt64
  match marked with
  | some n => some n
  | none =>
    if hasIdleZero text then none else (Decimal.signedOfBase? 10 text).filter Decimal.fitsInt64

/-- Reads a whole number; only plain scalars and blocks with its tag are numbers. -/
def readWhole (root n : Node) : Reading Int :=
  match root.target n with
  | scalar _ tag text style =>
    if style == .plain || (style == .literal && tag == some wholeTag) then
      match wholeNumber? text with
      | some n => .ok n
      | none => .error "a whole number is missing"
    else .error "a whole number is missing"
  | _ => .error "a whole number is missing"

/-! ## Collections -/

def readTexts (root n : Node) : Reading (List String) :=
  match root.target n with
  | list _ items => items.mapM (readText root)
  | n => if n.isEmptyPlain then .ok [] else .error "a list is missing"

def membersOf (root n : Node) : Reading (List (Node × Node)) :=
  match root.target n with
  | map _ members => .ok members
  | n => if n.isEmptyPlain then .ok [] else .error "a mapping is missing"

/-- Texts by name; the last text of a name counts. -/
def readTextMap (root n : Node) : Reading (NameMap String) := do
  let entries ← (← membersOf root n).mapM fun m => do
    .ok (← readText root m.1, ← readText root m.2)
  .ok (NameMap.ofList entries)

end Node

/-! ## Records -/

/-- Members of a record by name, inside a document. -/
structure Record where
  root : Node
  members : List (String × Node)

namespace Record

/-- The record that a document is. -/
def ofText (text : String) : Reading Record := do
  match ← Node.ofText? text with
  | none => .ok ⟨Node.absent, []⟩
  | some root =>
    let members ← (← root.membersOf root).mapM fun m => do .ok (← root.readText m.1, m.2)
    .ok ⟨root, members⟩

/-- The value of a name, which may be given once. -/
def field {α : Type} (r : Record) (name : String) (read : Node → Node → Reading α) (default : α) :
    Reading α :=
  match r.members.filter fun m => m.1 == name with
  | [] => .ok default
  | [m] => read r.root m.2
  | _ => .error "a name that is given twice"

end Record

end Stagehand.Yaml

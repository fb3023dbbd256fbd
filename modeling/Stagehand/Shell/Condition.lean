import Stagehand.Decimal.Integer
import Stagehand.Files.Tree
import Stagehand.Text.Bytes

/-!
# Conditions of scripts

Conditions on texts, numbers and files, written as words. Alternatives bind weaker than conditions
that all have to hold, and both are read to their end whatever the first answer is.

A word that could be an operator on one word is an operand if nothing follows it, or if an
operator on two words does. What is left over behind a condition is a fault that names the last
word of the condition.
-/

namespace Stagehand.Shell

/-! ## Faults -/

/-- Why a condition has no answer. -/
inductive ConditionFault where
  | notNumber (text : String)
  | missingOperand (op : String)
  | leftOver (last : String)
  | missingBracket
  | openBracket
  /-- The words are nested too deep. -/
  | tooDeep
  deriving DecidableEq, Repr

/-- The wording of a fault. -/
def ConditionFault.message : ConditionFault → String
  | notNumber text => "Illegal number: " ++ text
  | missingOperand op => op ++ ": argument expected"
  | leftOver "" => "unexpected operator"
  | leftOver last => last ++ ": unexpected operator"
  | missingBracket => "missing ]"
  | openBracket => "closing paren expected"
  | tooDeep => "too deep"

/-! ## Operators -/

inductive ConditionWord where
  | operand
  | unary
  | binary
  | negation
  | both
  | either
  | opening
  | closing
  /-- There is no word. -/
  | nothing
  deriving DecidableEq, Repr

/-- Operators on one word. -/
def unaryOperators : List String :=
  ["-r", "-w", "-x", "-e", "-f", "-d", "-c", "-b", "-p", "-u", "-g", "-k", "-s", "-t", "-z", "-n",
    "-h", "-O", "-G", "-L", "-S"]

def binaryOperators : List String :=
  ["=", "!=", "<", ">", "-eq", "-ne", "-ge", "-gt", "-le", "-lt", "-nt", "-ot", "-ef"]

/-- The kind of a word that stands by itself. -/
def ConditionWord.of (word : String) : ConditionWord :=
  if unaryOperators.contains word then .unary
  else if binaryOperators.contains word then .binary
  else
    match word with
    | "!" => .negation
    | "-a" => .both
    | "-o" => .either
    | "(" => .opening
    | ")" => .closing
    | _ => .operand

def ConditionWord.first : List String → ConditionWord
  | [] => .nothing
  | word :: rest =>
    match ConditionWord.of word, rest with
    | .unary, [] => .operand
    | .unary, next :: _ :: _ => if ConditionWord.of next == .binary then .operand else .unary
    | .opening, [] => .operand
    | kind, _ => kind

/-- Files as a condition sees them. -/
structure FileView where
  files : FileTree
  cwd : List String
  /-- When what is at a place was changed. -/
  changed : List String → Nat

namespace FileView

/-- What is at a path. -/
def entry? (v : FileView) (path : String) : Option FileEntry :=
  v.files.lookup? v.cwd (Text.widen path)

/-- The answer of an operator on one word. -/
def unary (v : FileView) (op word : String) : Bool :=
  match op with
  | "-n" => word != ""
  | "-z" => word == ""
  | "-e" | "-r" | "-w" | "-O" | "-G" => (v.entry? word).isSome
  | "-f" | "-d" | "-c" | "-x" | "-s" =>
    match op, v.entry? word with
    | "-f", some (.file _ _) | "-d", some (.dir _) | "-c", some .device => true
    | "-x", some (.dir _) | "-s", some (.dir _) => true
    | "-x", some (.file _ executable) => executable
    | "-s", some (.file bytes _) => bytes.size != 0
    | _, _ => false
  | _ => false

def place? (v : FileView) (path : String) : Option (List String) :=
  ((v.files.locate v.cwd (Text.widen path)).toOption).filter fun place =>
    (v.files.find? place).isSome

/-- Two paths lead to places that compare. -/
def compares (v : FileView) (f : List String → List String → Bool) (a b : String) : Bool :=
  match v.place? a, v.place? b with
  | some p, some q => f p q
  | _, _ => false

/-- The answer of an operator on two paths. -/
def binary (v : FileView) (op a b : String) : Bool :=
  match op with
  | "-ef" => v.compares (· == ·) a b
  | "-nt" => v.compares (fun p q => v.changed q < v.changed p) a b
  | "-ot" => v.compares (fun p q => v.changed p < v.changed q) a b
  | _ => false

end FileView

def numberComparison? (op : String) : Option (Int → Int → Bool) :=
  match op with
  | "-eq" => some fun a b => a == b
  | "-ne" => some fun a b => a != b
  | "-lt" => some fun a b => a < b
  | "-le" => some fun a b => a ≤ b
  | "-gt" => some fun a b => b < a
  | "-ge" => some fun a b => b ≤ a
  | _ => none

/-- The number of a word, in decimal and with at most 64 bits. -/
def decimalWord (word : String) : Except ConditionFault Int :=
  match Decimal.signedOfBase? 10 (Text.withoutSpace word.toList) with
  | some n => if Decimal.fitsInt64 n then .ok n else .error (.notNumber word)
  | none => .error (.notNumber word)

def binaryAnswer (v : FileView) (a op b : String) : Except ConditionFault Bool :=
  match numberComparison? op with
  | some f => do .ok (f (← decimalWord a) (← decimalWord b))
  | none =>
    .ok (match op with
      | "=" => a == b
      | "!=" => a != b
      | "<" => a < b
      | ">" => b < a
      | _ => v.binary op a b)

/-! ## Reading

Each reader answers with the words from the last one on that it took.
-/

mutual

/-- Reads alternatives. -/
def anyCondition (v : FileView) :
    Nat → ConditionWord → List String → Except ConditionFault (Bool × List String)
  | 0, _, _ => .error .tooDeep
  | fuel + 1, kind, ws => do
    let (a, last) ← allConditions v fuel kind ws
    if ConditionWord.first last.tail == .either then
      let ws := last.drop 2
      let (b, last) ← anyCondition v fuel (ConditionWord.first ws) ws
      .ok (a || b, last)
    else .ok (a, last)

/-- Reads conditions that all have to hold. -/
def allConditions (v : FileView) :
    Nat → ConditionWord → List String → Except ConditionFault (Bool × List String)
  | 0, _, _ => .error .tooDeep
  | fuel + 1, kind, ws => do
    let (a, last) ← negatedCondition v fuel kind ws
    if ConditionWord.first last.tail == .both then
      let ws := last.drop 2
      let (b, last) ← allConditions v fuel (ConditionWord.first ws) ws
      .ok (a && b, last)
    else .ok (a, last)

/-- Reads a condition that may be negated. -/
def negatedCondition (v : FileView) :
    Nat → ConditionWord → List String → Except ConditionFault (Bool × List String)
  | 0, _, _ => .error .tooDeep
  | fuel + 1, kind, ws => do
    if kind == .negation then
      let next := ConditionWord.first ws.tail
      let (a, last) ← negatedCondition v fuel next (if next == .nothing then ws else ws.tail)
      .ok (!a, last)
    else oneCondition v fuel kind ws

def oneCondition (v : FileView) :
    Nat → ConditionWord → List String → Except ConditionFault (Bool × List String)
  | 0, _, _ => .error .tooDeep
  | fuel + 1, kind, ws =>
    match kind, ws with
    | .nothing, _ | _, [] => .ok (false, ws)
    | .opening, _ :: inside =>
      if ConditionWord.first inside == .closing then .ok (false, inside)
      else do
        let (a, last) ← anyCondition v fuel (ConditionWord.first inside) inside
        if ConditionWord.first last.tail == .closing then .ok (a, last.tail)
        else .error .openBracket
    | .unary, op :: rest =>
      match rest with
      | word :: _ =>
        if op == "-t" then (decimalWord word).map fun _ => (false, rest)
        else .ok (v.unary op word, rest)
      | [] => .error (.missingOperand op)
    | _, word :: rest =>
      match rest, ConditionWord.first rest with
      | op :: b :: after, .binary => (binaryAnswer v word op b).map fun a => (a, b :: after)
      | [op], .binary => .error (.missingOperand op)
      | _, _ => .ok (word != "", ws)

end

/-- Reads words to their end. -/
def wholeCondition (v : FileView) (kind : ConditionWord) (ws : List String) :
    Except ConditionFault Bool := do
  match ← anyCondition v (4 * ws.length + 8) kind ws with
  | (_, last :: _ :: _) => .error (.leftOver last)
  | (a, _) => .ok a

/-- The answer to a condition. Three words with an operator in the middle, words in brackets, and
negated ones are recognised by their number. -/
def holdsCondition (v : FileView) (ws : List String) : Except ConditionFault Bool :=
  match ws with
  | [] => .ok false
  | [a, op, b] =>
    if ConditionWord.of op == .binary then wholeCondition v .operand ws
    else if a == "(" && b == ")" then wholeCondition v (ConditionWord.first [op]) [op]
    else if a == "!" then (holdsCondition v [op, b]).map (!·)
    else wholeCondition v (ConditionWord.first ws) ws
  | [a, b, c, d] =>
    if a == "(" && d == ")" then wholeCondition v (ConditionWord.first [b, c]) [b, c]
    else if a == "!" then (holdsCondition v [b, c, d]).map (!·)
    else wholeCondition v (ConditionWord.first ws) ws
  | _ => wholeCondition v (ConditionWord.first ws) ws
termination_by ws.length

/-- The answer to a condition between brackets. -/
def holdsBracket (v : FileView) (ws : List String) : Except ConditionFault Bool :=
  match ws.reverse with
  | "]" :: back => holdsCondition v back.reverse
  | _ => .error .missingBracket

end Stagehand.Shell

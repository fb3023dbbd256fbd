import Stagehand.Shell.Script
import Stagehand.Text.Search

/-!
# Tokens of a script

The characters and words that mean something to a shell, and what a script is made of: words,
operators and line ends.
-/

namespace Stagehand.Shell

/-! ## Characters -/

def startsName (c : Char) : Bool := c.isAlpha || c == '_'

def inName (c : Char) : Bool := c.isAlphanum || c == '_'

def endsWord (c : Char) : Bool := " \t\n;&|()<>".toList.contains c

/-- Parameters whose names are one sign. -/
def isSpecial (c : Char) : Bool := "@*#?-$!".toList.contains c

def isName (s : String) : Bool :=
  match s.toList with
  | [] => false
  | c :: rest => startsName c && rest.all inName

/-- The first of some operators that the text starts with, and what follows it. -/
def readSign (ops : List String) (cs : List Char) : Option (String × List Char) :=
  ops.findSome? fun op => (Text.stripLeading? op.toList cs).map fun rest => (op, rest)

/-! ## Names -/

/-- Words that structure commands. -/
def reservedWords : List String :=
  ["!", "\x7b", "\x7d", "case", "do", "done", "elif", "else", "esac", "fi", "for", "if", "in",
    "then", "until", "while"]

/-- Words that end a list of commands. -/
def closingWords : List String := ["\x7d", "do", "done", "elif", "else", "esac", "fi", "then"]

/-- Built-in commands whose assignments stay, and whose failures end a script. -/
def specialBuiltins : List String :=
  [".", ":", "break", "continue", "eval", "exec", "exit", "export", "local", "readonly", "return",
    "set", "shift", "times", "trap", "unset"]

/-- The number that digits write. -/
def digitsOf? (word : String) : Option Nat :=
  if word != "" && word.toList.all Char.isDigit then word.toNat? else none

/-- The number of a word that is not negative and fits into 31 bits. -/
def countOf? (word : String) : Option Nat := (digitsOf? word).filter (· < 0x80000000)

/-! ## Tokens -/

inductive Token where
  | word (w : Word)
  /-- A word that structures commands. -/
  | reserved (s : String)
  /-- An operator between commands. -/
  | sign (s : String)
  /-- An operator of a redirection, with its descriptor if that is written. -/
  | redirect (descriptor : Option Nat) (s : String)
  | newline
  | ending

namespace Token

/-- How a token is named in a fault. -/
def describe : Token → String
  | word _ => "word"
  | reserved s | sign s => "\"" ++ s ++ "\""
  | redirect _ _ => "redirection"
  | newline => "newline"
  | ending => "end of file"

def isSign (s : String) : Token → Bool
  | sign x => x == s
  | _ => false

def isReserved (s : String) : Token → Bool
  | reserved x => x == s
  | _ => false

/-- The token ends a list of commands. -/
def isClosing : Token → Bool
  | reserved s => closingWords.contains s
  | sign s => s == ")" || s == ";;"
  | ending => true
  | _ => false

end Token

/-! ## Parts of words -/

/-- Where the characters of a word stand. -/
inductive Setting where
  | bare
  | quotes
  /-- The operand of a parameter. -/
  | braces (quoted : Bool)
  /-- An arithmetic expression, inside this many brackets. -/
  | arithmetic (depth : Nat)
  /-- A text that is input of a command. -/
  | input
  deriving DecidableEq

/-- The characters here are as if quoted. -/
def Setting.isQuoted : Setting → Bool
  | bare => false
  | braces quoted => quoted
  | quotes | arithmetic _ | input => true

/-- Parts, the last one first, with one more character. -/
def addText (c : Char) (quoted : Bool) : List Part → List Part
  | .text cs q :: rest =>
    if q == quoted then .text (c :: cs) q :: rest else .text [c] quoted :: .text cs q :: rest
  | ps => .text [c] quoted :: ps

/-- Parts from the last one to the first, with their texts from the last character to the first. -/
def orderParts (ps : List Part) : List Part :=
  ps.reverse.map fun p => match p with
    | .text cs q => .text cs.reverse q
    | p => p

/-- The text up to the next back quote, and what follows it. -/
def closeBackQuote (quoted : Bool) : List Char → Option (List Char × List Char)
  | [] => none
  | '\x60' :: rest => some ([], rest)
  | '\\' :: c :: rest =>
    let kept := if "$\\\x60".toList.contains c || (quoted && c == '"') then [c] else ['\\', c]
    (closeBackQuote quoted rest).map fun r => (kept ++ r.1, r.2)
  | c :: rest => (closeBackQuote quoted rest).map fun r => (c :: r.1, r.2)

/-- The use that an operator asks for, with what follows the operator. -/
def readUse (cs : List Char) : ParameterUse × List Char :=
  match cs with
  | ':' :: '-' :: rest => (.orElse true, rest)
  | ':' :: '=' :: rest => (.orAssign true, rest)
  | ':' :: '?' :: rest => (.orFail true, rest)
  | ':' :: '+' :: rest => (.insteadOf true, rest)
  | '-' :: rest => (.orElse false, rest)
  | '=' :: rest => (.orAssign false, rest)
  | '?' :: rest => (.orFail false, rest)
  | '+' :: rest => (.insteadOf false, rest)
  | '#' :: '#' :: rest => (.withoutStart true, rest)
  | '#' :: rest => (.withoutStart false, rest)
  | '%' :: '%' :: rest => (.withoutEnd true, rest)
  | '%' :: rest => (.withoutEnd false, rest)
  | '\x7d' :: rest => (.value, '\x7d' :: rest)
  | _ => (.unknown, cs)

/-- The operand of a use is a pattern, and what is in it counts as quoted only if it is
quoted there. -/
def ParameterUse.isTrim : ParameterUse → Bool
  | withoutStart _ | withoutEnd _ => true
  | _ => false

/-- The name of a parameter, with what follows it. -/
def readName (cs : List Char) : Option (String × List Char) :=
  match cs with
  | c :: rest =>
    if startsName c then
      let name := cs.takeWhile inName
      some (String.ofList name, cs.drop name.length)
    else if c.isDigit || isSpecial c then some (String.singleton c, rest)
    else none
  | [] => none

/-- The name of a parameter between braces: numbers may have more than one digit there. -/
def readBracedName (cs : List Char) : Option (String × List Char) :=
  let digits := cs.takeWhile Char.isDigit
  if digits.isEmpty then readName cs else some (String.ofList digits, cs.drop digits.length)

/-- A parameter between braces up to its operand: its name, its use, and what follows. -/
def readBracedUse (cs : List Char) : String × ParameterUse × List Char :=
  match cs with
  | '#' :: '\x7d' :: _ => ("#", .value, cs.drop 1)
  | '#' :: rest =>
    match readBracedName rest with
    | some (name, '\x7d' :: rest) => (name, .length, '\x7d' :: rest)
    | _ => ("#", readUse rest)
  | _ =>
    match readBracedName cs with
    | some (name, rest) => (name, readUse rest)
    | none => ("", .unknown, cs)

/-! ## Texts that are input -/

/-- A text that is input: its number, the line that ends it, whether tabs are dropped in front of
its lines, and whether it is taken as it is. -/
structure InputMark where
  number : Nat
  last : List Char
  dropTabs : Bool
  verbatim : Bool

/-- The lines up to the one that ends a text, those behind it, and whether it was there. -/
def inputLines (m : InputMark) : List (List Char) → List (List Char) × List (List Char) × Bool
  | [] => ([], [], false)
  | l :: rest =>
    let l := if m.dropTabs then l.dropWhile (· == '\t') else l
    if l == m.last then ([], rest, true)
    else
      let (inside, rest, ended) := inputLines m rest
      (l :: inside, rest, ended)

/-- The text up to the line that ends it, whether that line is there with its end, and
what follows it. -/
def takeInput (m : InputMark) (cs : List Char) : (List Char × Bool) × List Char :=
  let (inside, rest, ended) := inputLines m (Text.pieces (· == '\n') cs)
  let text := List.intercalate ['\n'] (if ended then inside ++ [[]] else inside)
  ((text, ended && !rest.isEmpty), List.intercalate ['\n'] rest)

end Stagehand.Shell

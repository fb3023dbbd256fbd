import Stagehand.Decimal.Integer
import Stagehand.NameMap
import Stagehand.Shell.Token
import Stagehand.Text.Bytes

/-!
# Arithmetic in scripts

Expressions over whole numbers of 64 bits, which wrap around, and variables. A variable that has no
value, or a blank one, counts as zero.
-/

namespace Stagehand.Shell

/-! ## Expressions -/

inductive BinaryOp where
  | mul | div | mod | add | sub | shiftLeft | shiftRight
  | less | atMost | greater | atLeast | equal | differs
  | bitAnd | bitXor | bitOr | both | either
  deriving DecidableEq, Repr

inductive UnaryOp where
  | plus | minus | complement | negate
  deriving DecidableEq, Repr

inductive Expr where
  | number (n : Int)
  | variable (name : String)
  | unary (op : UnaryOp) (e : Expr)
  | binary (op : BinaryOp) (e f : Expr)
  | conditional (test yes no : Expr)
  /-- Assigns the value, or what the operator makes of the old value and it. -/
  | assign (name : String) (op : Option BinaryOp) (e : Expr)

/-! ## Reading -/

/-- Tokens of an expression. -/
inductive ExprToken where
  | number (n : Int)
  | name (s : String)
  | sign (s : String)
  /-- A character that starts no token. -/
  | stray
  deriving DecidableEq

/-- Signs, longest first. -/
def exprSigns : List String :=
  ["<<=", ">>=", "&&", "||", "<<", ">>", "<=", ">=", "==", "!=", "+=", "-=", "*=", "/=", "%=", "&=",
    "^=", "|=", "+", "-", "*", "/", "%", "<", ">", "=", "!", "~", "&", "^", "|", "?", ":", "(", ")",
    ","]

/-- Digits of a base at the start of a text: their number, and what follows them. -/
def leadingDigits (base : Nat) (cs : List Char) : Option (Nat × List Char) :=
  let ds := cs.takeWhile fun c => (Decimal.digitOfBase? base c).isSome
  (Decimal.ofDigits? base ds).map fun n => (n, cs.drop ds.length)

/-- A number at the start of a text, and what follows it: decimal, behind `0x` with sixteen digits,
behind `0b` with two, behind `0` with eight. -/
def leadingNumber (cs : List Char) : Option (Nat × List Char) :=
  let marked := fun base ds => (leadingDigits base ds).or (some (0, cs.drop 1))
  match cs with
  | '0' :: 'x' :: ds => marked 16 ds
  | '0' :: 'X' :: ds => marked 16 ds
  | '0' :: 'b' :: ds => marked 2 ds
  | '0' :: 'B' :: ds => marked 2 ds
  | '0' :: _ => leadingDigits 8 cs
  | _ => leadingDigits 10 cs

/-- The largest number of 64 bits. -/
def largest : Nat := 0x7FFFFFFFFFFFFFFF

/-- Reads tokens. A number that is too large counts as the largest. -/
def exprTokens : Nat → List Char → List ExprToken
  | 0, _ => []
  | fuel + 1, cs =>
    match cs with
    | [] => []
    | c :: rest =>
      if " \t\n".toList.contains c then exprTokens fuel rest
      else if startsName c then
        let name := cs.takeWhile inName
        .name (String.ofList name) :: exprTokens fuel (cs.drop name.length)
      else
        match leadingNumber cs, readSign exprSigns cs with
        | some (n, rest), _ => .number (min n largest) :: exprTokens fuel rest
        | none, some (s, rest) => .sign s :: exprTokens fuel rest
        | none, none => [.stray]

/-- An operator with two operands and how tight it binds. -/
def binaryOp? : String → Option (BinaryOp × Nat)
  | "*" => some (.mul, 10)
  | "/" => some (.div, 10)
  | "%" => some (.mod, 10)
  | "+" => some (.add, 9)
  | "-" => some (.sub, 9)
  | "<<" => some (.shiftLeft, 8)
  | ">>" => some (.shiftRight, 8)
  | "<" => some (.less, 7)
  | "<=" => some (.atMost, 7)
  | ">" => some (.greater, 7)
  | ">=" => some (.atLeast, 7)
  | "==" => some (.equal, 6)
  | "!=" => some (.differs, 6)
  | "&" => some (.bitAnd, 5)
  | "^" => some (.bitXor, 4)
  | "|" => some (.bitOr, 3)
  | "&&" => some (.both, 2)
  | "||" => some (.either, 1)
  | _ => none

def assignOp? (s : String) : Option (Option BinaryOp) :=
  if s == "=" then some none
  else if ["*=", "/=", "%=", "+=", "-=", "<<=", ">>=", "&=", "^=", "|="].contains s then
    (binaryOp? (String.ofList s.toList.dropLast)).map fun o => some o.1
  else none

/-- What a text lacks to be an expression. -/
inductive Lacking where
  | operand
  | closing
  | colon
  /-- Something is left over. -/
  | ending
  deriving DecidableEq, Repr

/-- What is expected where an expression cannot be read. -/
def Lacking.name : Lacking → String
  | operand => "primary"
  | closing => "')'"
  | colon => "':'"
  | ending => "EOF"

/-- Answers of readers: what was read, and the tokens behind it. -/
abbrev ExprReading := Except Lacking (Expr × List ExprToken)

mutual

def readExpr : Nat → List ExprToken → ExprReading
  | 0, _ => .error .operand
  | fuel + 1, ts =>
    match ts with
    | .name x :: .sign s :: rest =>
      match assignOp? s with
      | some op => (readExpr fuel rest).map fun r => (.assign x op r.1, r.2)
      | none => readConditional fuel ts
    | _ => readConditional fuel ts

/-- Reads an expression that may be a conditional. -/
def readConditional : Nat → List ExprToken → ExprReading
  | 0, _ => .error .operand
  | fuel + 1, ts => do
    let (test, rest) ← readBinary fuel 1 ts
    match rest with
    | .sign "?" :: rest =>
      let (yes, rest) ← readExpr fuel rest
      match rest with
      | .sign ":" :: rest =>
        let (no, rest) ← readConditional fuel rest
        .ok (.conditional test yes no, rest)
      | _ => .error .colon
    | _ => .ok (test, rest)

/-- Reads operators that bind at least this tight. -/
def readBinary : Nat → Nat → List ExprToken → ExprReading
  | 0, _, _ => .error .operand
  | fuel + 1, level, ts => do
    let (e, rest) ← readUnary fuel ts
    readOperands fuel level e rest

/-- Reads what operators that bind at least this tight put behind an operand. -/
def readOperands : Nat → Nat → Expr → List ExprToken → ExprReading
  | 0, _, _, _ => .error .operand
  | fuel + 1, level, e, ts =>
    match ts with
    | .sign s :: rest =>
      match binaryOp? s with
      | some (op, tight) =>
        if level ≤ tight then do
          let (f, rest) ← readBinary fuel (tight + 1) rest
          readOperands fuel level (.binary op e f) rest
        else .ok (e, ts)
      | none => .ok (e, ts)
    | _ => .ok (e, ts)

def readUnary : Nat → List ExprToken → ExprReading
  | 0, _ => .error .operand
  | fuel + 1, ts =>
    match ts with
    | .number n :: rest => .ok (.number n, rest)
    | .name x :: rest => .ok (.variable x, rest)
    | .sign "+" :: rest => (readUnary fuel rest).map fun r => (.unary .plus r.1, r.2)
    | .sign "-" :: rest => (readUnary fuel rest).map fun r => (.unary .minus r.1, r.2)
    | .sign "~" :: rest => (readUnary fuel rest).map fun r => (.unary .complement r.1, r.2)
    | .sign "!" :: rest => (readUnary fuel rest).map fun r => (.unary .negate r.1, r.2)
    | .sign "(" :: rest => do
      let (e, rest) ← readExpr fuel rest
      match rest with
      | .sign ")" :: rest => .ok (e, rest)
      | _ => .error .closing
    | _ => .error .operand

end

def Expr.ofText (cs : List Char) : Except Lacking Expr := do
  let ts := exprTokens (cs.length + 1) cs
  let (e, rest) ← readExpr (4 * ts.length + 8) ts
  if rest.isEmpty then .ok e else .error .ending

/-! ## Values -/

/-- A number cut to 64 bits. -/
def wrap64 (n : Int) : Int := Int.bmod n 0x10000000000000000

def ofBool (b : Bool) : Int := if b then 1 else 0

def bits (n : Int) : Nat := (n % 0x10000000000000000).toNat

/-- What an operator makes of two numbers; nothing for a division by zero. -/
def BinaryOp.apply (op : BinaryOp) (a b : Int) : Option Int :=
  match op with
  | .mul => some (wrap64 (a * b))
  | .div => if b == 0 then none else some (wrap64 (a.tdiv b))
  | .mod => if b == 0 then none else some (wrap64 (a.tmod b))
  | .add => some (wrap64 (a + b))
  | .sub => some (wrap64 (a - b))
  | .shiftLeft => some (wrap64 (a * Nat.pow 2 (b % 64).toNat))
  | .shiftRight => some (wrap64 (a / Nat.pow 2 (b % 64).toNat))
  | .less => some (ofBool (a < b))
  | .atMost => some (ofBool (a ≤ b))
  | .greater => some (ofBool (b < a))
  | .atLeast => some (ofBool (b ≤ a))
  | .equal => some (ofBool (a == b))
  | .differs => some (ofBool (a != b))
  | .bitAnd => some (wrap64 (bits a &&& bits b : Nat))
  | .bitXor => some (wrap64 (bits a ^^^ bits b : Nat))
  | .bitOr => some (wrap64 (bits a ||| bits b : Nat))
  | .both => some (ofBool (a != 0 && b != 0))
  | .either => some (ofBool (a != 0 || b != 0))

/-- What an operator makes of a number. -/
def UnaryOp.apply (op : UnaryOp) (a : Int) : Int :=
  match op with
  | .plus => a
  | .minus => wrap64 (-a)
  | .complement => wrap64 (-a - 1)
  | .negate => ofBool (a == 0)

/-- Why an expression has no value. -/
inductive ExprFault where
  | divisionByZero
  | notNumber (text : String)
  deriving DecidableEq, Repr

/-- The number that a text starts with, in the range of 64 bits, and what follows it. -/
def signedNumber (cs : List Char) : Option (Int × List Char) :=
  let (sign, ds) := match cs with
    | '-' :: ds => (-1, ds)
    | '+' :: ds => (1, ds)
    | ds => (1, ds)
  (leadingNumber ds).map fun r => (sign * r.1, r.2)

/-- A number brought into the range of 64 bits. -/
def clamp64 (n : Int) : Int := max (-largest - 1) (min largest n)

/-- The number that a text writes, with blanks around it. -/
def numberOf? (text : String) : Option Int :=
  match Text.withoutSpace text.toList with
  | [] => some 0
  | cs =>
    match signedNumber cs with
    | some (n, []) => some (clamp64 n)
    | _ => none

/-- The number that a variable holds; `given` are values that were assigned, the newest first. -/
def variableValue (vars : NameMap String) (given : List (String × String)) (name : String) :
    Except ExprFault Int :=
  let text := ((given.lookup name).or (vars.get? name)).getD ""
  match numberOf? text with
  | some n => .ok n
  | none => .error (.notNumber text)

/-- The value of an expression, and the values that it assigns, the newest first; `given` are those
that were assigned before. -/
def Expr.eval (vars : NameMap String) :
    Expr → List (String × String) → Except ExprFault (Int × List (String × String))
  | .number n, given => .ok (wrap64 n, given)
  | .variable x, given => do .ok (← variableValue vars given x, given)
  | .unary op e, given => do
    let (a, given) ← e.eval vars given
    .ok (op.apply a, given)
  | .binary op e f, given => do
    let (a, given) ← e.eval vars given
    if op == .both && a == 0 then .ok (0, given)
    else if op == .either && a != 0 then .ok (1, given)
    else
      let (b, given) ← f.eval vars given
      match op.apply a b with
      | some n => .ok (n, given)
      | none => .error .divisionByZero
  | .conditional t e f, given => do
    let (a, given) ← t.eval vars given
    if a != 0 then e.eval vars given else f.eval vars given
  | .assign x op e, given => do
    let old ← match op with
      | some _ => variableValue vars given x
      | none => .ok 0
    let (b, given) ← e.eval vars given
    match op with
    | none => .ok (b, (x, toString b) :: given)
    | some op =>
      match op.apply old b with
      | some n => .ok (n, (x, toString n) :: given)
      | none => .error .divisionByZero

end Stagehand.Shell

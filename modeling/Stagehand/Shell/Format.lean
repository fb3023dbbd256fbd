import Stagehand.Decimal.Integer
import Stagehand.Shell.Arithmetic
import Stagehand.Shell.Real

/-!
# Printed texts of scripts

The two ways in which scripts print: words with escapes in them, and words under a format. Words are
texts of bytes, and what is printed is bytes.
-/

namespace Stagehand.Shell

def bytesOf (cs : List Char) : List UInt8 := cs.map fun c => c.toNat.toUInt8

/-! ## Escapes -/

/-- The value of at most `n` octal digits, with what follows them. -/
def octal (n : Nat) (cs : List Char) : Nat × List Char :=
  let ds := (cs.take n).takeWhile fun c => '0' ≤ c && c ≤ '7'
  ((Decimal.ofDigits? 8 ds).getD 0, cs.drop ds.length)

/-- The byte that a letter behind a backslash stands for. -/
def letterByte? : Char → Option UInt8
  | 'a' => some 7
  | 'b' => some 8
  | 'e' => some 27
  | 'f' => some 12
  | 'n' => some 10
  | 'r' => some 13
  | 't' => some 9
  | 'v' => some 11
  | '\\' => some 92
  | _ => none

/-- The byte of an escape from behind its backslash, with what follows it; without an escape the
backslash stands for itself. -/
def readEscapeByte (cs : List Char) : UInt8 × List Char :=
  match cs with
  | [] => (92, [])
  | c :: rest =>
    if '0' ≤ c && c ≤ '7' then
      let (n, rest) := octal 3 cs
      (n.toUInt8, rest)
    else
      match letterByte? c with
      | some b => (b, rest)
      | none => (92, cs)

/-- The bytes of a word with escapes; the flag tells whether an escape ends all printing. -/
def escapedBytes : Nat → List Char → List UInt8 × Bool
  | 0, _ => ([], false)
  | fuel + 1, cs =>
    match cs with
    | [] => ([], false)
    | '\\' :: 'c' :: _ => ([], true)
    | '\\' :: '0' :: rest =>
      let (n, rest) := octal 3 rest
      let (bs, ends) := escapedBytes fuel rest
      (n.toUInt8 :: bs, ends)
    | '\\' :: rest =>
      let (b, rest) := readEscapeByte rest
      let (bs, ends) := escapedBytes fuel rest
      (b :: bs, ends)
    | c :: rest =>
      let (bs, ends) := escapedBytes fuel rest
      (bytesOf [c] ++ bs, ends)

/-- Words with blanks between them, as they are echoed. A first word `-n` leaves the line open. -/
def echoed (words : List String) : List UInt8 :=
  let (open?, words) := match words with
    | "-n" :: rest => (true, rest)
    | ws => (false, ws)
  let cs := (Text.joinWith " " words).toList
  let (bs, ends) := escapedBytes (cs.length + 1) cs
  if open? || ends then bs else bs ++ [10]

/-! ## Formats -/

structure Directive where
  left : Bool := false
  plus : Bool := false
  space : Bool := false
  alternate : Bool := false
  zeros : Bool := false
  /-- Nothing stands for an argument. -/
  width : Option (Option Nat) := none
  precision : Option (Option Nat) := none
  kind : Char := 's'
  /-- The text of the directive, without its percent sign. -/
  text : String := ""

/-- A part of a format. -/
inductive FormatPart where
  | bytes (bs : List UInt8)
  | directive (d : Directive)
  /-- The format ends inside a directive. -/
  | unfinished

/-- Reads the flags of a directive. -/
def readFlags : List Char → Directive → Directive × List Char
  | '-' :: rest, d => readFlags rest { d with left := true }
  | '+' :: rest, d => readFlags rest { d with plus := true }
  | ' ' :: rest, d => readFlags rest { d with space := true }
  | '#' :: rest, d => readFlags rest { d with alternate := true }
  | '0' :: rest, d => readFlags rest { d with zeros := true }
  | cs, d => (d, cs)

def readCount (cs : List Char) : Option (Option Nat) × List Char :=
  match cs with
  | '*' :: rest => (some none, rest)
  | _ =>
    let ds := cs.takeWhile Char.isDigit
    if ds.isEmpty then (none, cs) else (some (Decimal.ofDigits? 10 ds), cs.drop ds.length)

/-- Reads a directive from behind its percent sign. -/
def readDirectiveOf (all : List Char) : Option (Directive × List Char) :=
  let (d, cs) := readFlags all {}
  let (width, cs) := readCount cs
  let (precision, cs) := match cs with
    | '.' :: rest =>
      let (p, rest) := readCount rest
      (some (p.getD (some 0)), rest)
    | _ => (none, cs)
  match cs with
  | k :: rest =>
    let text := String.ofList (all.take (all.length - rest.length))
    some ({ d with width, precision, kind := k, text }, rest)
  | [] => none

def formatParts : Nat → List Char → List FormatPart
  | 0, _ => []
  | fuel + 1, cs =>
    match cs with
    | [] => []
    | '%' :: '%' :: rest => .bytes [37] :: formatParts fuel rest
    | '%' :: rest =>
      match readDirectiveOf rest with
      | some (d, rest) => .directive d :: formatParts fuel rest
      | none => [.unfinished]
    | '\\' :: rest =>
      let (b, rest) := readEscapeByte rest
      .bytes [b] :: formatParts fuel rest
    | c :: rest => .bytes (bytesOf [c]) :: formatParts fuel rest

def fill (left : Bool) (width : Nat) (pad : UInt8) (bs : List UInt8) : List UInt8 :=
  let more := List.replicate (width - bs.length) pad
  if left then bs ++ more else more ++ bs

/-- The digits of a number under a directive. -/
def digitsOf (kind : Char) (n : Nat) : List Char :=
  let base := if kind == 'o' then 8 else if kind == 'x' || kind == 'X' then 16 else 10
  let ds := Nat.toDigits base n
  if kind == 'X' then ds.map Char.toUpper else ds

def formatNumber (d : Directive) (width : Nat) (precision : Option Nat) (n : Int) : List UInt8 :=
  let signed := d.kind == 'd' || d.kind == 'i'
  let magnitude := if signed then n.natAbs else bits n
  let ds := digitsOf d.kind magnitude
  let ds := List.replicate ((precision.getD 1) - ds.length) '0' ++ ds
  let mark :=
    if signed && n < 0 then ['-']
    else if signed && d.plus then ['+']
    else if signed && d.space then [' ']
    else if d.alternate && magnitude != 0 && (d.kind == 'x' || d.kind == 'X') then ['0', d.kind]
    else if d.alternate && d.kind == 'o' && ds.head? != some '0' then ['0']
    else []
  if d.zeros && !d.left && precision.isNone then
    bytesOf (mark ++ List.replicate (width - mark.length - ds.length) '0' ++ ds)
  else fill d.left width 32 (bytesOf (mark ++ ds))

/-- What is wrong with a format or its arguments. -/
inductive PrintFault where
  | notNumber (arg : String)
  | partlyNumber (arg : String)
  | outOfRange (arg : String)
  | badDirective (text : String)
  | unfinished
  deriving DecidableEq, Repr

def PrintFault.message : PrintFault → String
  | notNumber arg => arg ++ ": expected numeric value"
  | partlyNumber arg => arg ++ ": not completely converted"
  | outOfRange arg => arg ++ ": Numerical result out of range"
  | badDirective text => "%" ++ text ++ ": invalid directive"
  | unfinished => "missing format character"

/-- Nothing is printed after this fault. -/
def PrintFault.isFatal : PrintFault → Bool
  | badDirective _ | unfinished => true
  | _ => false

/-- The number that an argument writes, and what is wrong with it. A quote stands for the code of
the character behind it. -/
def argumentNumber (arg : String) : Int × Option PrintFault :=
  match arg.toList with
  | [] => (0, none)
  | '\'' :: cs | '"' :: cs => ((cs.head?.map fun c => (c.toNat : Int)).getD 0, none)
  | cs =>
    match signedNumber (cs.dropWhile Text.isSpace) with
    | none => (0, some (.notNumber arg))
    | some (n, rest) =>
      (clamp64 n,
        if clamp64 n != n then some (.outOfRange arg)
        else if rest.isEmpty then none
        else some (.partlyNumber arg))

/-- The real number that an argument writes, and what is wrong with it. -/
def argumentReal (arg : String) : Float × Option PrintFault :=
  match arg.toList with
  | [] => (0.0, none)
  | '\'' :: cs | '"' :: cs => (Float.ofNat ((cs.head?.map Char.toNat).getD 0), none)
  | cs =>
    match readReal? cs with
    | none => (0.0, some (.notNumber arg))
    | some r =>
      (r.value,
        if !r.rest.isEmpty then some (.partlyNumber arg)
        else if r.isOutOfRange then some (.outOfRange arg)
        else none)

def formatReal (d : Directive) (width : Nat) (precision : Option Nat) (x : Float) : List UInt8 :=
  let (isNegative, ds) := realText d.kind d.alternate precision x
  let sign := if isNegative then ['-'] else if d.plus then ['+'] else if d.space then [' '] else []
  let isFinite := !x.isNaN && !x.isInf
  let mark := sign ++ (match d.kind, isFinite with
    | 'a', true => ['0', 'x']
    | 'A', true => ['0', 'X']
    | _, _ => [])
  if d.zeros && !d.left && isFinite then
    bytesOf (mark ++ List.replicate (width - mark.length - ds.length) '0' ++ ds)
  else fill d.left width 32 (bytesOf (mark ++ ds))

/-- What printing under a format leaves. -/
structure Printed where
  bytes : List UInt8 := []
  faults : List PrintFault := []
  /-- An escape or a fault ended the printing. -/
  ends : Bool := false

/-- Prints one part; the arguments that are left follow. -/
def printPart (part : FormatPart) (args : List String) (p : Printed) : Printed × List String :=
  match part with
  | .bytes bs => ({ p with bytes := p.bytes ++ bs }, args)
  | .unfinished => ({ p with ends := true, faults := p.faults ++ [.unfinished] }, args)
  | .directive d =>
    let (width, args) := match d.width with
      | some none => ((argumentNumber (args.headD "")).1, args.tail)
      | some (some n) => ((n : Int), args)
      | none => (0, args)
    let d := if width < 0 then { d with left := true } else d
    let (precision, args) := match d.precision with
      | some none => (some (argumentNumber (args.headD "")).1.toNat, args.tail)
      | some (some n) => (some n, args)
      | none => (none, args)
    let arg := args.headD ""
    let cut := fun bs : List UInt8 => match precision with
      | some n => bs.take n
      | none => bs
    if d.kind == 's' then
      ({ p with bytes := p.bytes ++ fill d.left width.natAbs 32 (cut (Text.toBytes arg)) },
        args.tail)
    else if d.kind == 'b' then
      let (bs, ends) := escapedBytes (arg.length + 1) arg.toList
      ({ p with bytes := p.bytes ++ fill d.left width.natAbs 32 (cut bs), ends }, args.tail)
    else if d.kind == 'c' then
      ({ p with
          bytes := p.bytes ++ fill d.left width.natAbs 32 [((Text.toBytes arg).head?).getD 0] },
        args.tail)
    else if "diuoxX".toList.contains d.kind then
      let (n, fault) := argumentNumber arg
      ({ p with
          bytes := p.bytes ++ formatNumber d width.natAbs precision n
          faults := p.faults ++ fault.toList }, args.tail)
    else if "aAeEfFgG".toList.contains d.kind then
      let (x, fault) := argumentReal arg
      ({ p with
          bytes := p.bytes ++ formatReal d width.natAbs precision x
          faults := p.faults ++ fault.toList }, args.tail)
    else ({ p with ends := true, faults := p.faults ++ [.badDirective d.text] }, args)

def printParts : List FormatPart → List String → Printed → Printed × List String
  | [], args, p => (p, args)
  | part :: rest, args, p =>
    if p.ends then (p, args)
    else
      let (p, args) := printPart part args p
      printParts rest args p

/-- Prints the parts again and again until the arguments are used up. -/
def printAll (parts : List FormatPart) : Nat → List String → Printed → Printed
  | 0, _, p => p
  | fuel + 1, args, p =>
    let (p, left) := printParts parts args p
    if p.ends || left.isEmpty || left.length == args.length then p else printAll parts fuel left p

def formatted (format : String) (args : List String) : Printed :=
  let cs := format.toList
  printAll (formatParts (cs.length + 1) cs) (args.length + 1) args {}

end Stagehand.Shell

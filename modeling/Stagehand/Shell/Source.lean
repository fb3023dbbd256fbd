import Stagehand.Shell.Token

/-!
# The commands of a source text

A script is read one complete command after the other, so that each one is read under the
aliases that the ones in front of it made. A word that is an alias is replaced by its text
where a command starts, and behind an alias that ends with a blank; inside its own text an
alias is not replaced again.

Texts that are input of a command stand behind its line. They are read at the end of the line, and
handed out by number.
-/

namespace Stagehand.Shell

/-- Why a text cannot be read, and on which line. -/
structure SyntaxFault where
  reason : String
  line : Nat
  /-- The end of the text had been reached. -/
  atEnd : Bool

/-! ## What is still to be read -/

/-- A text that is being read: a script, or what an alias stands for. -/
structure Passage where
  chars : List Char
  /-- The aliases that are not replaced in the text: those that led to it. -/
  names : List String := []
  /-- The word behind the text may be an alias too. -/
  ledOn : Bool := false

/-- What is still to be read. -/
structure Pending where
  /-- The innermost text first. -/
  passages : List Passage
  line : Nat := 1
  /-- The end was reached, so that what was read may not be complete. -/
  sawEnd : Bool := false
  aliases : List (String × String) := []
  /-- The next token, if it was looked at. -/
  ahead : Option Token := none
  /-- The word that is read next may be an alias. -/
  ledOn : Bool := false
  /-- The aliases whose texts ended with the word that was read last. -/
  ended : List String := []
  /-- The word that is read names the end of a text: nothing in it is expanded. -/
  asIs : Bool := false
  /-- The texts that the line asks for. -/
  marks : List InputMark := []
  /-- The texts that were read. -/
  inputs : List (Nat × Word) := []
  nextInput : Nat := 0

/-- Reads something, or finds a fault. -/
abbrev Parse := StateT Pending (Except SyntaxFault)

/-- A text to be read under some aliases. -/
def Pending.ofText (text : String) (aliases : List (String × String)) (nextInput : Nat) : Pending :=
  { passages := [⟨text.toList, [], false⟩], aliases, nextInput }

/-- The text with more of it. -/
def Pending.extended (cs : List Char) (p : Pending) : Pending :=
  match p.passages.reverse with
  | x :: inner => { p with passages := ({ x with chars := x.chars ++ cs } :: inner).reverse }
  | [] => { p with passages := [⟨cs, [], false⟩] }

/-- The characters that are left of the text itself. -/
def Pending.left (p : Pending) : List Char := (p.passages.getLast?.map (·.chars)).getD []

/-- Nothing but the end is left. -/
def Pending.atEnd (p : Pending) : Bool := p.ahead matches some .ending

/-- How many steps reading may take. -/
def Pending.fuel (p : Pending) : Nat :=
  8 * (p.passages.map fun x => x.chars.length).foldl (· + ·) 0 + 10000

/-! ## Characters -/

/-- Drops line ends that are escaped, and counts them. -/
def dropJoins : List Char → Nat → List Char × Nat
  | '\\' :: '\n' :: rest, n => dropJoins rest (n + 1)
  | cs, n => (cs, n)

/-- Drops blanks, comments and escaped line ends, and counts the latter. -/
def dropBlanks (inComment : Bool) : List Char → Nat → List Char × Nat
  | [], n => ([], n)
  | '\\' :: '\n' :: rest, n =>
    if inComment then ('\n' :: rest, n) else dropBlanks false rest (n + 1)
  | c :: rest, n =>
    if inComment then if c == '\n' then (c :: rest, n) else dropBlanks true rest n
    else if c == ' ' || c == '\t' then dropBlanks false rest n
    else if c == '#' then dropBlanks true rest n
    else (c :: rest, n)

/-- Drops characters in front of what is still to be read, and texts that are used up by that. -/
def settle (drop : List Char → Nat → List Char × Nat) (p : Pending) : List Passage → Nat → Pending
  | [], line => { p with passages := [], line }
  | x :: rest, line =>
    let (chars, line) := drop x.chars line
    if chars.isEmpty && !rest.isEmpty then
      settle drop { p with ledOn := x.ledOn, ended := x.names ++ p.ended } rest line
    else { p with passages := { x with chars } :: rest, line }

def dropText (drop : List Char → Nat → List Char × Nat) : Parse Unit :=
  modify fun p => settle drop p p.passages p.line

/-- Takes something off the innermost text. Its line ends count. -/
def scan {α : Type} (f : List Char → α × List Char) : Parse α := do
  let p ← get
  match p.passages with
  | [] => return (f []).1
  | x :: rest =>
    let (a, left) := f x.chars
    let passed := (x.chars.take (x.chars.length - left.length)).count '\n'
    set { p with passages := { x with chars := left } :: rest, line := p.line + passed }
    return a

def noteEnd : Parse Unit := modify fun p => { p with sawEnd := true }

def peek? : Parse (Option Char) := do
  dropText dropJoins
  let c := (← get).passages.head?.bind fun x => x.chars.head?
  if c.isNone then noteEnd
  return c

def passChar : Parse Unit := scan fun cs => ((), cs.drop 1)

def passIf (c : Char) : Parse Bool := do
  if (← peek?) == some c then
    passChar
    return true
  else return false

/-! ## Faults -/

/-- Finds a fault here. -/
def fault {α : Type} (reason : String) : Parse α := do
  let p ← get
  throw (SyntaxFault.mk reason p.line p.sawEnd)

/-- Finds a fault at the token ahead, with what was expected in its place. -/
def unexpected {α : Type} (expected : Option String) : Parse α := do
  let found := ((← get).ahead.getD .ending).describe ++ " unexpected"
  fault (match expected with
    | some e => found ++ " (expecting " ++ e ++ ")"
    | none => found)

/-- A script is nested too deep to be read. -/
def tooDeep {α : Type} : Parse α := fault "a script that is nested too deep"

/-! ## Tokens -/

/-- What may stand in place of a plain token. -/
structure Place where
  /-- Line ends are passed over. -/
  passesLines : Bool := false
  /-- Words may structure commands. -/
  hasReserved : Bool := false
  hasAliases : Bool := false

/-- Where a command starts. -/
def Place.command : Place := { hasReserved := true, hasAliases := true }

/-- Where a command starts, or a line in front of it ends. -/
def Place.lineOrCommand : Place := { Place.command with passesLines := true }

/-- The token ahead is used. -/
def pass : Parse Unit := modify fun p => { p with ahead := none }

/-- Looks at a token again as another one. -/
def putBack (t : Token) : Parse Unit := modify fun p => { p with ahead := some t }

/-- The text of an alias, unless it is being read. -/
def Pending.aliasText? (p : Pending) (name : String) : Option String :=
  if p.ended.contains name || p.passages.any fun x => x.names.contains name then none
  else p.aliases.lookup name

/-- Reads the text of an alias in its place. -/
def enter (name text : String) : Parse Unit :=
  modify fun p =>
    let ledOn := (text.toList.getLast?.map fun c => c == ' ' || c == '\t').getD false
    { p with ahead := none, passages := ⟨text.toList, name :: p.ended, ledOn⟩ :: p.passages }

/-- Reads something in another text. -/
def within {α : Type} (text : List Char) (x : Parse α) : Parse α := do
  let p ← get
  set { p with passages := [⟨text, [], false⟩], ahead := none, marks := [] }
  let a ← x
  modify fun q =>
    { q with
      passages := p.passages, ahead := p.ahead, marks := p.marks
      line := p.line, sawEnd := p.sawEnd }
  return a

/-- The name and the value of a word that assigns. -/
def assignment? : Word → Option (String × Word)
  | .text cs false :: rest =>
    match cs.dropWhile (· != '=') with
    | _ :: value =>
      let name := String.ofList (cs.takeWhile (· != '='))
      if isName name then
        some (name, if value.isEmpty then rest else .text value false :: rest)
      else none
    | [] => none
  | _ => none

/-- The descriptor and the stream that a word behind `<&` or `>&` asks for. -/
def sameRedirect (descriptor : Nat) (w : Word) : Parse Redirect :=
  match plainText? w with
  | some s =>
    if s == "-" || (s.length == 1 && s.toList.all Char.isDigit) then return .same descriptor w
    else fault "Bad fd number"
  | none => return .same descriptor w

/-- Asks for a text that is input, and answers its number. -/
def askInput (op : String) (w : Word) : Parse Nat := do
  let p ← get
  let (last, quoted) := literalText w
  set { p with
    nextInput := p.nextInput + 1
    marks := p.marks ++ [InputMark.mk p.nextInput last.toList (op == "<<-") quoted] }
  return p.nextInput

def redirectToken (descriptor : Option Nat) : Parse Token := do
  let ops := ["<<-", "<<", "<&", "<>", ">>", ">&", ">|", "<", ">"]
  let op ← scan fun cs => (readSign ops cs).getD ("<", cs.drop 1)
  return .redirect descriptor op

/-! ## Commands -/

inductive ListEnd where
  /-- At the end of a line. -/
  | line
  /-- At a word or sign that closes it; there has to be a command. -/
  | closing
  /-- At a word or sign that closes it. -/
  | closingOrEmpty
  deriving DecidableEq

/-- What stands in quotes is there even if it is empty, but for the parameters of the
script alone. -/
def inQuotes : List Part → List Part
  | [.parameter "@" .value operand quoted] => [.parameter "@" .value operand quoted]
  | ps => .text [] true :: ps

def Command.ofList : List Command → Command
  | [c] => c
  | cs => .list cs

mutual

/-- Reads parts up to the end of their setting; `seen` are those in front, the last one first. -/
def readParts (s : Setting) (seen : List Part) : Nat → Parse (List Part)
  | 0 => tooDeep
  | fuel + 1 => do
    let plain := fun (c : Char) (quoted : Bool) => do
      passChar
      readParts s (addText c quoted seen) fuel
    let keep := fun (ps : List Part) => readParts s (orderParts ps ++ seen) fuel
    match ← peek? with
    | none =>
      match s with
      | .bare | .input => return orderParts seen
      | .quotes | .braces true => fault "Unterminated quoted string"
      | .braces false => fault "Missing '\x7d'"
      | .arithmetic _ => fault "Missing '))'"
    | some c =>
      if s == .bare && endsWord c then return orderParts seen
      else if (s == .quotes && c == '"') ||
        ((s == .braces true || s == .braces false) && c == '\x7d') then
        passChar
        return orderParts seen
      else if c == '$' && !(← get).asIs then
        passChar
        match ← readDollar s.isQuoted fuel with
        | some p => keep [p]
        | none => readParts s (addText '$' s.isQuoted seen) fuel
      else if c == '\x60' && !(← get).asIs then
        passChar
        keep [← readBackQuoted (s == .quotes) s.isQuoted fuel]
      else if c == '\\' then
        passChar
        match ← peek? with
        | some x =>
          if !s.isQuoted || "$\\\x60".toList.contains x || (x == '"' && s != .input) ||
              (x == '\x7d' && s == .braces true) then
            plain x true
          else readParts s (addText '\\' true seen) fuel
        | none => readParts s (addText '\\' true seen) fuel
      else if c == '\'' && !s.isQuoted then
        passChar
        let inside ← scan fun cs =>
          let inside := cs.takeWhile (· != '\'')
          (inside, cs.drop inside.length)
        if ← passIf '\'' then keep [.text inside true] else fault "Unterminated quoted string"
      else if c == '"' && (s == .bare || s == .braces false || s == .braces true) then
        passChar
        let ps ← readParts .quotes [] fuel
        keep (inQuotes ps)
      else
        match s with
        | .arithmetic depth =>
          passChar
          if c == '(' then
            let ps ← readParts (.arithmetic (depth + 1)) (addText '(' true seen) fuel
            return ps
          else if c == ')' then
            match depth with
            | 0 =>
              if ← passIf ')' then return orderParts seen
              else readParts s (addText ')' true seen) fuel
            | depth + 1 => readParts (.arithmetic depth) (addText ')' true seen) fuel
          else readParts s (addText c true seen) fuel
        | _ => plain c s.isQuoted

/-- Reads what a dollar sign starts; nothing if it stands for itself. -/
def readDollar (quoted : Bool) : Nat → Parse (Option Part)
  | 0 => tooDeep
  | fuel + 1 => do
    if ← passIf '(' then
      if ← passIf '(' then return some (.arithmetic (← readParts (.arithmetic 0) [] fuel) quoted)
      else
        let p ← get
        set { p with marks := [], ahead := none, ledOn := false }
        let cs ← commandList .closingOrEmpty [] fuel
        needSign ")" fuel
        modify fun q => { q with marks := p.marks, ledOn := false }
        return some (.output (.list cs) quoted)
    else if ← passIf '\x7b' then
      let (name, use) ← scan fun cs =>
        let (name, use, rest) := readBracedUse cs
        ((name, use), rest)
      let operand ← readParts (.braces (quoted && !use.isTrim)) [] fuel
      return some (.parameter name use operand quoted)
    else
      let name ← scan fun cs =>
        match readName cs with
        | some (name, rest) => (some name, rest)
        | none => (none, cs)
      return name.map fun name => .parameter name .value [] quoted

/-- Reads a script between back quotes. What is left over behind its commands is lost. -/
def readBackQuoted (isInside quoted : Bool) : Nat → Parse Part
  | 0 => tooDeep
  | fuel + 1 => do
    let source ← scan fun cs =>
      match closeBackQuote isInside cs with
      | some (source, rest) => (some source, rest)
      | none => (none, [])
    match source with
    | some source =>
      let cs ← within source (commandList .closingOrEmpty [] fuel)
      return .output (.list cs) quoted
    | none =>
      noteEnd
      fault "EOF in backquote substitution"

def rawToken : Nat → Parse Token
  | 0 => tooDeep
  | fuel + 1 => do
    modify fun p => { p with ledOn := false }
    dropText (dropBlanks false)
    modify fun p => { p with ended := [] }
    match ← peek? with
    | none => return .ending
    | some '\n' =>
      passChar
      return .newline
    | some '<' | some '>' => redirectToken none
    | some c =>
      if "&|;".toList.contains c then
        passChar
        let s := String.singleton c
        if ← passIf c then return .sign (s ++ s) else return .sign s
      else if c == '(' || c == ')' then
        passChar
        return .sign (String.singleton c)
      else
        let w ← readParts .bare [] fuel
        match w, ← peek? with
        | [.text [d] false], some '<' | [.text [d] false], some '>' =>
          if d.isDigit then redirectToken (some (d.toNat - '0'.toNat)) else return .word w
        | w, _ => return .word w

def peekToken (here : Place) : Nat → Parse Token
  | 0 => tooDeep
  | fuel + 1 => do
    let t ← match (← get).ahead with
      | some t => pure t
      | none => rawToken fuel
    putBack t
    match t with
    | .newline =>
      if here.passesLines then
        pass
        readInputs fuel
        peekToken here fuel
      else return t
    | .word w =>
      match (plainText? w).filter (· != "") with
      | none => return t
      | some s =>
        if here.hasReserved && reservedWords.contains s then
          putBack (.reserved s)
          return .reserved s
        else
          let p ← get
          match if here.hasAliases || p.ledOn then p.aliasText? s else none with
          | some text =>
            enter s text
            peekToken { here with hasAliases := true } fuel
          | none => return t
    | _ => return t

/-- Reads the texts that the line asked for. -/
def readInputs : Nat → Parse Unit
  | 0 => tooDeep
  | fuel + 1 => do
    match (← get).marks with
    | [] => return ()
    | m :: rest =>
      modify fun p => { p with marks := rest }
      let (text, isComplete) ← scan (takeInput m)
      if !isComplete then noteEnd
      let w ← if m.verbatim then pure [.text text true] else within text (readParts .input [] fuel)
      modify fun p => { p with inputs := (m.number, w) :: p.inputs }
      readInputs fuel

def needSign (s : String) : Nat → Parse Unit
  | 0 => tooDeep
  | fuel + 1 => do
    if (← peekToken {} fuel).isSign s then pass else unexpected (some ("\"" ++ s ++ "\""))

/-- Passes a reserved word that has to be there. -/
def needReserved (here : Place) (s : String) : Nat → Parse Unit
  | 0 => tooDeep
  | fuel + 1 => do
    if (← peekToken here fuel).isReserved s then pass else unexpected (some ("\"" ++ s ++ "\""))

/-- Reads commands up to the end of their list; `seen` are those in front, the last one first. -/
def commandList (ends : ListEnd) (seen : List Command) : Nat → Parse (List Command)
  | 0 => tooDeep
  | fuel + 1 => do
    let t ← peekToken { Place.command with passesLines := ends != .line } fuel
    match t with
    | .newline =>
      pass
      readInputs fuel
      return seen.reverse
    | .ending =>
      readInputs fuel
      return seen.reverse
    | t =>
      if t.isClosing && (ends == .closingOrEmpty || (ends == .closing && !seen.isEmpty)) then
        return seen.reverse
      else
        let c ← andOr Place.command fuel
        let t ← peekToken {} fuel
        if t.isSign "&" then
          pass
          commandList ends (.background c :: seen) fuel
        else if t.isSign ";" then
          pass
          commandList ends (c :: seen) fuel
        else
          match t with
          | .newline => commandList ends (c :: seen) fuel
          | .ending =>
            readInputs fuel
            return (c :: seen).reverse
          | _ => if ends == .line then unexpected none else return (c :: seen).reverse

/-- Reads the commands of a part, of which there has to be one. -/
def body : Nat → Parse Command
  | 0 => tooDeep
  | fuel + 1 => do return .list (← commandList .closing [] fuel)

/-- Reads commands that depend on one another. -/
def andOr (here : Place) : Nat → Parse Command
  | 0 => tooDeep
  | fuel + 1 => do
    let c ← pipeline here fuel
    andOrRest c fuel

/-- Reads what depends on a command. -/
def andOrRest (c : Command) : Nat → Parse Command
  | 0 => tooDeep
  | fuel + 1 => do
    let t ← peekToken {} fuel
    if t.isSign "&&" then
      pass
      let d ← pipeline Place.lineOrCommand fuel
      andOrRest (.andThen c d) fuel
    else if t.isSign "||" then
      pass
      let d ← pipeline Place.lineOrCommand fuel
      andOrRest (.orElse c d) fuel
    else return c

def pipeline (here : Place) : Nat → Parse Command
  | 0 => tooDeep
  | fuel + 1 => do
    if (← peekToken here fuel).isReserved "!" then
      pass
      return .negated (← stages Place.command [] fuel)
    else stages here [] fuel

/-- Reads the stages of a pipeline; `seen` are those in front, the last one first. -/
def stages (here : Place) (seen : List Command) : Nat → Parse Command
  | 0 => tooDeep
  | fuel + 1 => do
    let c ← command here fuel
    if (← peekToken {} fuel).isSign "|" then
      pass
      stages Place.lineOrCommand (c :: seen) fuel
    else
      match seen with
      | [] => return c
      | _ => return .pipeline (c :: seen).reverse

def command (here : Place) : Nat → Parse Command
  | 0 => tooDeep
  | fuel + 1 => do
    let t ← peekToken here fuel
    let line := (← get).line
    let compound := fun (x : Parse (Nat → Command)) => do
      pass
      let c ← x
      let rs ← redirects fuel
      return if rs.isEmpty then c line else .redirected line (c line) rs
    match t with
    | .word _ | .redirect _ _ =>
      let c ← simpleCommand [] [] [] true fuel
      return c line
    | .sign "(" =>
      pass
      let c ← body fuel
      needSign ")" fuel
      return .subshell line c (← redirects fuel)
    | .reserved "\x7b" => compound do
      let c ← body fuel
      needReserved {} "\x7d" fuel
      return fun _ => c
    | .reserved "if" => compound do
      let c ← ifRest fuel
      return fun _ => c
    | .reserved "while" => compound do
      let c ← loopRest true fuel
      return fun _ => c
    | .reserved "until" => compound do
      let c ← loopRest false fuel
      return fun _ => c
    | .reserved "for" => compound (forRest fuel)
    | .reserved "case" => compound (caseRest fuel)
    | _ => unexpected none

def redirects : Nat → Parse (List Redirect)
  | 0 => tooDeep
  | fuel + 1 => do
    match ← peekToken Place.command fuel with
    | .redirect d op =>
      let r ← redirection d op fuel
      return r :: (← redirects fuel)
    | _ => return []

def redirection (descriptor : Option Nat) (op : String) : Nat → Parse Redirect
  | 0 => tooDeep
  | fuel + 1 => do
    pass
    modify fun p => { p with asIs := op == "<<" || op == "<<-" }
    let t ← peekToken {} fuel
    modify fun p => { p with asIs := false }
    match t with
    | .word w =>
      pass
      let d := descriptor.getD (if op.startsWith "<" then 0 else 1)
      match op with
      | "<" => return .file d .read w
      | ">" => return .file d .write w
      | ">|" => return .file d .overwrite w
      | ">>" => return .file d .append w
      | "<>" => return .file d .readWrite w
      | "<&" | ">&" => sameRedirect d w
      | _ => return .text d (← askInput op w)
    | _ => unexpected none

/-- Reads a simple command; `starts` tells that no word of it was read yet. What is answered waits
for the line of the command. -/
def simpleCommand (as : List (String × Word)) (ws : List Word) (rs : List Redirect)
    (starts : Bool) :
    Nat → Parse (Nat → Command)
  | 0 => tooDeep
  | fuel + 1 => do
    let finished := fun line => Command.simple line as.reverse ws.reverse rs.reverse
    match ← peekToken { hasAliases := starts } fuel with
    | .redirect d op =>
      let r ← redirection d op fuel
      simpleCommand as ws (r :: rs) starts fuel
    | .word w =>
      pass
      match if starts then assignment? w else none with
      | some a => simpleCommand (a :: as) ws rs true fuel
      | none => simpleCommand as (w :: ws) rs false fuel
    | .sign "(" =>
      match as, ws, rs with
      | [], [w], [] =>
        pass
        needSign ")" fuel
        match (plainText? w).filter fun s => isName s && !specialBuiltins.contains s with
        | some name =>
          let c ← command Place.lineOrCommand fuel
          return fun _ => .define name c
        | none => fault "Bad function name"
      | _, _, _ => return finished
    | _ => return finished

/-- Reads a condition from behind its first word. -/
def ifRest : Nat → Parse Command
  | 0 => tooDeep
  | fuel + 1 => do
    let test ← body fuel
    needReserved {} "then" fuel
    let yes ← body fuel
    let t ← peekToken {} fuel
    if t.isReserved "elif" then
      pass
      return .branch test yes (← ifRest fuel)
    else if t.isReserved "else" then
      pass
      let no ← body fuel
      needReserved {} "fi" fuel
      return .branch test yes no
    else
      needReserved {} "fi" fuel
      return .branch test yes .nothing

/-- Reads a loop from behind its first word. -/
def loopRest (onSuccess : Bool) : Nat → Parse Command
  | 0 => tooDeep
  | fuel + 1 => do
    let test ← body fuel
    needReserved {} "do" fuel
    let inside ← body fuel
    needReserved {} "done" fuel
    return .loop onSuccess test inside

/-- Reads a loop over words from behind its first word. -/
def forRest : Nat → Parse (Nat → Command)
  | 0 => tooDeep
  | fuel + 1 => do
    let name := match ← peekToken {} fuel with
      | .word w => (plainText? w).filter isName
      | _ => none
    match name with
    | none => fault "Bad for loop variable"
    | some name =>
      pass
      let words ←
        if (← peekToken Place.lineOrCommand fuel).isReserved "in" then do
          pass
          let ws ← loopWords [] fuel
          pure (some ws)
        else do
          if (← peekToken {} fuel).isSign ";" then pass
          pure none
      needReserved Place.lineOrCommand "do" fuel
      let inside ← body fuel
      needReserved {} "done" fuel
      return fun line => .each line name words inside

/-- The words of a loop up to the end of its line; `seen` are those in front, the last one first. -/
def loopWords (seen : List Word) : Nat → Parse (List Word)
  | 0 => tooDeep
  | fuel + 1 => do
    match ← peekToken {} fuel with
    | .word w =>
      pass
      loopWords (w :: seen) fuel
    | .newline | .sign ";" =>
      pass
      return seen.reverse
    | _ => unexpected none

/-- Reads a selection from behind its first word. -/
def caseRest : Nat → Parse (Nat → Command)
  | 0 => tooDeep
  | fuel + 1 => do
    match ← peekToken {} fuel with
    | .word w =>
      pass
      needReserved Place.lineOrCommand "in" fuel
      let as ← arms [] fuel
      return fun line => .select line w as
    | _ => unexpected (some "word")

/-- Reads the arms of a selection up to its end; `seen` are those in front, the last one first. -/
def arms (seen : List (List Word × Command)) : Nat → Parse (List (List Word × Command))
  | 0 => tooDeep
  | fuel + 1 => do
    let here : Place := { passesLines := true, hasReserved := true }
    let t ← peekToken here fuel
    if t.isReserved "esac" then
      pass
      return seen.reverse
    else
      if t.isSign "(" then pass
      let ps ← armPatterns [] fuel
      let cs ← commandList .closingOrEmpty [] fuel
      let t ← peekToken here fuel
      if t.isReserved "esac" then
        pass
        return ((ps, .list cs) :: seen).reverse
      else if t.isSign ";;" then
        pass
        arms ((ps, .list cs) :: seen) fuel
      else unexpected (some "\";;\"")

/-- The patterns of an arm, up to the bracket behind them; `seen` are those in front, the last one
first. -/
def armPatterns (seen : List Word) : Nat → Parse (List Word)
  | 0 => tooDeep
  | fuel + 1 => do
    let w := match ← peekToken {} fuel with
      | .word w => w
      | .reserved s => [.text s.toList false]
      | _ => []
    pass
    let t ← peekToken {} fuel
    if t.isSign "|" then
      pass
      armPatterns (w :: seen) fuel
    else if t.isSign ")" then
      pass
      return (w :: seen).reverse
    else unexpected (some "\")\"")

end

/-! ## Complete commands -/

/-- Reads the commands of a line; nothing if there is nothing left but the end. -/
def lineCommands (fuel : Nat) : Parse (Option (List Command)) := do
  let cs ← commandList .line [] fuel
  let p ← get
  return if cs.isEmpty && p.atEnd then none else some cs

/-- The commands of the next line, and what is left behind it. -/
def Pending.next (p : Pending) : Except SyntaxFault (Option (List Command) × Pending) :=
  (lineCommands p.fuel).run p

/-- A text whose parameters are to be replaced, as if it stood between quotes; nothing if it
cannot be read. -/
def inputWord? (text : String) : Option Word :=
  let p := Pending.ofText text [] 0
  match (readParts .input [] p.fuel).run p with
  | .ok (w, _) => some w
  | .error _ => none

end Stagehand.Shell

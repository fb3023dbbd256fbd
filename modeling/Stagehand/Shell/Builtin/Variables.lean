import Stagehand.Shell.Builtin.Words
import Stagehand.Shell.Expansion

/-!
# Variables and parameters

The built-in commands on the variables, the parameters and the options of a shell, and
on its aliases.
-/

namespace Stagehand.Shell

open Sh

/-! ## Variables -/

/-- Sets variables, or only names them, and does something for each name. -/
def declare (effect : String → Sh Unit) : List String → Sh Unit
  | [] => setStatus 0
  | word :: rest => do
    let (name, value) := splitAssignment word
    if isName name then
      match value with
      | some v => assign name v
      | none => pure ()
      effect name
      declare effect rest
    else fail (word ++ ": bad variable name")

def tellVariables (command : String) (names : List String) : Sh Unit := do
  let vars := (← shell).vars
  print (asLines ((names.mergeSort fun a b => decide (a ≤ b)).map fun name =>
    command ++ " " ++
      (match vars.get? name with
        | some v => shownAssignment name v
        | none => name)))
  setStatus 0

/-- Marks variables, or tells those that are marked. -/
def markVariables (command : String) (marked : ShellState → List String) (mark : String → Sh Unit)
    (args : List String) : Sh Unit := do
  let g ← needOptions "p" args
  if g.has 'p' || g.rest.isEmpty then tellVariables command (marked (← shell))
  else declare mark g.rest

/-- Makes variables local to the function; a hyphen stands for the options. -/
def localVariables (args : List String) : Sh Unit := do
  if (← shell).calls == 0 then fail "not in a function"
  else
    args.forM fun word => do
      let (name, value) := splitAssignment word
      if word == "-" then
        change fun s => { s with hiddenOptions := some (s.hiddenOptions.getD s.options) }
      else if isName name then
        change fun s =>
          { s with hidden := ⟨name, s.vars.get? name, s.exported.contains name⟩ :: s.hidden }
        match value with
        | some v => assign name v
        | none => pure ()
      else fail (word ++ ": bad variable name")
    setStatus 0

def unsetNames (args : List String) : Sh Unit := do
  let g ← needOptions "vf" args
  if (g.options.getLast?.map (·.1)) == some 'f' then
    change fun s => { s with functions := s.functions.filter (!g.rest.contains ·.1) }
  else
    g.rest.forM fun name => do
      let s ← shell
      if !isName name then fail (name ++ ": bad variable name")
      else if s.fixed.contains name then fail (name ++ ": is read only")
      else
        change fun s =>
          { s with vars := s.vars.filter (·.1 != name), exported := s.exported.filter (· != name) }
        if name == "OPTIND" then restartOptions ""
  setStatus 0

/-! ## Options and parameters -/

/-- The options with their names, in the order in which they are told. -/
def optionNames : List (String × Char) :=
  [("errexit", 'e'), ("noglob", 'f'), ("ignoreeof", 'I'), ("interactive", 'i'), ("monitor", 'm'),
    ("noexec", 'n'), ("stdin", 's'), ("xtrace", 'x'), ("verbose", 'v'), ("vi", 'V'), ("emacs", 'E'),
    ("noclobber", 'C'), ("allexport", 'a'), ("notify", 'b'), ("nounset", 'u'), ("privileged", 'p'),
    ("nolog", '.'), ("debug", ':')]

def tellOptions (asCommands : Bool) (o : Options) : String :=
  if asCommands then
    asLines (optionNames.map fun n => "set " ++ (if o.has n.2 then "-o " else "+o ") ++ n.1)
  else
    "Current option settings\n" ++ asLines (optionNames.map fun n =>
      n.1 ++ String.ofList (List.replicate (16 - n.1.length) ' ') ++
        (if o.has n.2 then "on" else "off"))

/-- Why options of a shell cannot be set. -/
def illegalOption (name : String) : String := "Illegal option " ++ name

/-- Switches options by their letters; answers what is wrong with one of them. -/
def setLetters (on : Bool) : List Char → Options → Except String Options
  | [], o => .ok o
  | c :: rest, o =>
    if c.isAlpha && optionNames.any fun n => n.2 == c then setLetters on rest (o.set on c)
    else .error (illegalOption ("-" ++ String.singleton c))

/-- Words for a shell: options, and what follows them. -/
structure ShellWords where
  options : Options
  /-- A script stands in the words. -/
  hasScript : Bool := false
  /-- The options were asked for by a bare option for names, as commands or not. -/
  told : List Bool := []
  /-- The parameters, if there are new ones. -/
  params : Option (List String) := none

/-- Reads words for a shell. Where a shell is started, a letter tells that a script follows. -/
def readShellWords (starts : Bool) : Nat → List String → ShellWords → Except String ShellWords
  | 0, _, w | _ + 1, [], w => .ok w
  | fuel + 1, word :: rest, w =>
    let letters (on : Bool) (cs : List Char) : Except String ShellWords := do
      let names := cs.filter fun c => c != 'o' && !(starts && c == 'c')
      let options ← setLetters on names w.options
      let w := { w with options, hasScript := w.hasScript || (starts && cs.contains 'c') }
      if !cs.contains 'o' then readShellWords starts fuel rest w
      else
        match rest with
        | [] => .ok { w with told := w.told ++ [!on] }
        | name :: rest =>
          match optionNames.lookup name with
          | some c => readShellWords starts fuel rest { w with options := w.options.set on c }
          | none => .error (illegalOption ("-o " ++ name))
    match word.toList with
    | ['-'] =>
      let options := if starts then w.options else (w.options.set false 'x').set false 'v'
      .ok { w with options, params := if rest.isEmpty then w.params else some rest }
    | ['-', '-'] => .ok { w with params := some rest }
    | '-' :: cs => letters true cs
    | '+' :: cs => letters false cs
    | _ => .ok { w with params := some (word :: rest) }

def ShellState.withParams (params : List String) (s : ShellState) : ShellState :=
  { s with params, optionNext := 1, optionOffset := none }

/-- Sets options and parameters, or tells the variables. -/
def setCommand (args : List String) : Sh Unit := do
  let s ← shell
  if args.isEmpty then
    print (asLines (s.vars.toList.map fun v => shownAssignment v.1 v.2))
  else
    match readShellWords false (args.length + 1) args { options := s.options } with
    | .error e => fail e
    | .ok w =>
      if w.options.has 'm' && !s.options.has 'm' then
        complain "can't access tty; job control turned off"
      change fun s => { s with options := w.options.set false 'm' }
      w.told.forM fun asCommands => print (tellOptions asCommands w.options)
      match w.params with
      | some params => change (ShellState.withParams params)
      | none => pure ()
  setStatus 0

def shiftParams (args : List String) : Sh Unit := do
  let n ← match args with
    | [] => pure 1
    | word :: _ => needCount word
  if (← shell).params.length < n then fail "can't shift that many"
  else
    change fun s => s.withParams (s.params.drop n)
    setStatus 0

/-! ## Options of a script -/

/-- What reading an option came to. -/
structure OptionStep where
  /-- The letter of the option, or a sign that it is not right. -/
  letter : Char := '?'
  /-- The argument; nothing if there is none any more. -/
  argument : Option String := none
  next : Nat
  offset : Option Nat := none
  fault : Option OptionFault := none
  isOver : Bool := false

/-- Reads the option at an offset of the word in front of the next one. -/
def optionAt (known : List Char) (words : List String) (next : Nat) (cs : List Char)
    (offset : Nat) : OptionStep :=
  match cs with
  | [] => { next, isOver := true }
  | c :: rest =>
    let quiet := known.head? == some ':'
    let known := if quiet then known.drop 1 else known
    if !known.contains c || c == ':' then
      let step : OptionStep := { next, offset := some (offset + 1) }
      if quiet then { step with argument := some (String.singleton c) }
      else { step with fault := some (.illegal c) }
    else if asksForArgument known c then
      match rest, words[next - 1]? with
      | [], none =>
        if quiet then { letter := ':', argument := some (String.singleton c), next }
        else { next, fault := some (.noArgument c) }
      | [], some word => { letter := c, argument := some word, next := next + 1 }
      | rest, _ => { letter := c, argument := some (String.ofList rest), next }
    else { letter := c, argument := some "", next, offset := some (offset + 1) }

def nextOption (known : List Char) (words : List String) (next : Nat) (offset : Option Nat) :
    OptionStep :=
  let current := if next ≤ 1 then none else offset.bind fun o =>
    (words[next - 2]?).bind fun w => if o < w.length then some (o, w.toList.drop o) else none
  match current with
  | some (o, cs) => optionAt known words next cs o
  | none =>
    match words[next - 1]? with
    | none => { next, isOver := true }
    | some word =>
      match word.toList with
      | ['-', '-'] => { next := next + 1, isOver := true }
      | '-' :: c :: cs => optionAt known words (next + 1) (c :: cs) 1
      | _ => { next, isOver := true }

/-- Reads an option of the script into variables. -/
def getOption : List String → Sh Unit
  | known :: name :: words => do
    let s ← shell
    let words := if words.isEmpty then s.params else words
    let (next, offset) := if words.length + 1 < s.optionNext then (1, none)
      else (s.optionNext, s.optionOffset)
    let step := nextOption known.toList words next offset
    match step.fault with
    | some f => note (f.message ++ "\n")
    | none => pure ()
    match step.argument with
    | some a => assign "OPTARG" a
    | none =>
      if step.fault.isSome then change fun s => { s with vars := s.vars.filter (·.1 != "OPTARG") }
    change fun s => { s with vars := s.vars.insert "OPTIND" (toString step.next) }
    assign name (String.singleton step.letter)
    change fun s => { s with optionNext := step.next, optionOffset := step.offset }
    setTruth (!step.isOver)
  | _ => fail "Usage: getopts optstring var [arg...]"

/-! ## Reading lines -/

/-- The size of the line that some bytes start with, with its end; nothing if it does not end. -/
def lineSize? (raw : Bool) : List UInt8 → Nat → Option Nat
  | [], _ => none
  | 92 :: rest, n =>
    if raw then lineSize? raw rest (n + 1)
    else
      match rest with
      | _ :: rest => lineSize? raw rest (n + 2)
      | [] => none
  | 10 :: _, n => some (n + 1)
  | _ :: rest, n => lineSize? raw rest (n + 1)

/-- Takes a line from a stream; the flag tells whether it ended. -/
def takeLine (stream : Nat) (raw : Bool) : Nat → List UInt8 → Sh (List UInt8 × Bool)
  | 0, _ => hang
  | fuel + 1, seen => do
    match ← awaitSource stream with
    | some (.bytes bs) =>
      match lineSize? raw (seen ++ bs.toList) 0 with
      | some n =>
        let k := n - seen.length
        changeMachine (dropFront stream k)
        return (seen ++ (bs.extract 0 k).toList, true)
      | none =>
        changeMachine (dropFront stream bs.size)
        takeLine stream raw fuel (seen ++ bs.toList)
    | _ => return (seen, false)

/-- The characters of a line with escapes resolved; an escaped line end goes on in the next line. -/
def unescapeLine : List Char → List Mark
  | '\\' :: '\n' :: rest => unescapeLine rest
  | '\\' :: c :: rest => .char c true false :: unescapeLine rest
  | ['\\'] => []
  | c :: rest => .char c false true :: unescapeLine rest
  | [] => []

def isSeparator (separators : List Char) : Mark → Bool
  | .char c _ splits => splits && separators.contains c
  | _ => false

def isBlankMark (separators : List Char) : Mark → Bool
  | .char c quoted splits => isSeparator separators (.char c quoted splits) && isBlankSeparator c
  | _ => false

/-- Drops blank separators at both ends. -/
def trimMarks (separators : List Char) (ms : List Mark) : List Mark :=
  let blank := isBlankMark separators
  ((ms.dropWhile blank).reverse.dropWhile blank).reverse

/-- The first field of marks, and what is left behind its separator. -/
def firstField (separators : List Char) (ms : List Mark) : List Mark × List Mark :=
  let blank := isBlankMark separators
  let ms := ms.dropWhile blank
  let field := ms.takeWhile fun m => !isSeparator separators m
  let behind := (ms.drop field.length).dropWhile blank
  match behind with
  | m :: rest =>
    if isSeparator separators m then (field, rest.dropWhile blank) else (field, behind)
  | [] => (field, [])

/-- What is left for the last name: the line end and, of one field, the separator behind it do not
count. -/
def lastField (separators : List Char) (ms : List Mark) : List Mark :=
  let ms := trimMarks separators ms
  let (field, rest) := firstField separators ms
  if rest.isEmpty then field else ms

/-- Assigns the fields of a line; the last name takes all that is left. -/
def readFields (separators : List Char) : List String → List Mark → Sh Unit
  | [], _ => pure ()
  | [name], ms => assign name (String.ofList (markedText (lastField separators ms)))
  | name :: rest, ms => do
    let (field, left) := firstField separators ms
    assign name (String.ofList (markedText field))
    readFields separators rest left

def readCommand (args : List String) : Sh Unit := do
  let g ← needOptions "p:r" args
  if g.rest.isEmpty then fail "arg count"
  else
    let raw := g.has 'r'
    let (bytes, ended) ← match (← machine).bound? 0 with
      | some n => takeLine n raw 100000 []
      | none => pure ([], false)
    let cs := (Text.ofBytes bytes).toList.filter (· != '\x00')
    let cs := if ended then cs.dropLast else cs
    let ms := if raw then cs.map fun c => .char c false true else unescapeLine cs
    readFields (← shell).separators g.rest ms
    setTruth ended

/-! ## Aliases -/

/-- The place of an alias among those that are told. -/
def aliasPlace (name : String) : Nat :=
  let codes := name.toList.map Char.toNat
  (codes.headD 0 * 16 + codes.foldl (· + ·) 0) % 39

def shownAlias (a : String × String) : String := shownAssignment a.1 a.2

/-- Makes aliases, or tells them. -/
def aliasCommand (args : List String) : Sh Unit := do
  if args.isEmpty then
    let known := (← shell).aliases
    print
      (asLines
        ((known.mergeSort fun a b => decide (aliasPlace a.1 ≤ aliasPlace b.1)).map shownAlias))
    setStatus 0
  else
    setStatus 0
    args.forM fun word => do
      match splitAliasWord word with
      | some (name, value) =>
        change fun s =>
          { s with aliases :=
              if (s.aliases.lookup name).isSome then
                s.aliases.map fun a => if a.1 == name then (name, value) else a
              else s.aliases ++ [(name, value)] }
      | none =>
        match (← shell).aliases.lookup word with
        | some value => print (asLines [shownAlias (word, value)])
        | none =>
          note ("alias: " ++ word ++ " not found\n")
          setStatus 1
where
  /-- The name and the text of a word that makes an alias; the name has at least one character. -/
  splitAliasWord (word : String) : Option (String × String) :=
    match word.toList with
    | c :: rest =>
      match rest.dropWhile (· != '=') with
      | _ :: value => some (String.ofList (c :: rest.takeWhile (· != '=')), String.ofList value)
      | [] => none
    | [] => none

/-- Forgets aliases. -/
def unaliasCommand (args : List String) : Sh Unit := do
  let g ← needOptions "a" args
  setStatus 0
  if g.has 'a' then change fun s => { s with aliases := [] }
  else
    g.rest.forM fun name => do
      if ((← shell).aliases.lookup name).isSome then
        change fun s => { s with aliases := s.aliases.filter (·.1 != name) }
      else
        note ("unalias: " ++ name ++ " not found\n")
        setStatus 1

end Stagehand.Shell

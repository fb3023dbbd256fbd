import Stagehand.Text.Search

/-!
# Options

A command line is options, and words behind them if the grammar asks for a command. An option that
takes a value has it behind an equals sign or as the next argument; a short one also right behind
its letter. An option may be given once, unless it is repeatable.

**Words.** Where a command is asked for, the first argument that is no known option
starts its words, and everything behind belongs to it. Two hyphens start the words too
and are no word themselves.
-/

namespace Stagehand.CommandLine

/-! ## Grammars -/

/-- What an option takes. -/
inductive OptionKind where
  | flag
  | text
  /-- A text that is not empty. -/
  | path
  | help
  | version
  deriving DecidableEq, Repr

/-- An option. -/
structure OptionSpec where
  name : String
  kind : OptionKind
  letter : Option Char := none
  repeatable : Bool := false
  deriving DecidableEq, Repr

def OptionSpec.takesValue (o : OptionSpec) : Bool := o.kind == .text || o.kind == .path

/-- A grammar of command lines. -/
structure Grammar where
  options : List OptionSpec
  /-- The words of a command follow. -/
  wantsCommand : Bool

namespace Grammar

/-- The options that every grammar has. -/
def standard : List OptionSpec :=
  [{ name := "help", kind := .help, letter := some 'h' },
   { name := "version", kind := .version, letter := some 'V' }]

def named? (g : Grammar) (name : String) : Option OptionSpec :=
  (g.options ++ standard).find? fun o => o.name == name

def lettered? (g : Grammar) (letter : Char) : Option OptionSpec :=
  (g.options ++ standard).find? fun o => o.letter == some letter

end Grammar

/-! ## Reading -/

/-- Why a command line is not carried out. -/
inductive Refusal where
  | usage
  | help
  | version
  deriving DecidableEq, Repr

/-- What a command line says. -/
structure Given where
  /-- Options in order, with their values. -/
  options : List (String × String) := []
  words : List String := []
  deriving DecidableEq, Repr

namespace Given

/-- The option is given. -/
def has (g : Given) (name : String) : Bool := g.options.any fun o => o.1 == name

def value? (g : Given) (name : String) : Option String := g.options.lookup name

/-- The values of an option, in order. -/
def values (g : Given) (name : String) : List String :=
  g.options.filterMap fun o => if o.1 == name then some o.2 else none

/-- Adds an option with its value, or an empty text for a flag. -/
def add (g : Given) (o : OptionSpec) (value : String) : Except Refusal Given :=
  match o.kind with
  | .help => .error .help
  | .version => .error .version
  | kind =>
    if kind == .path && value.isEmpty then .error .usage
    else if g.has o.name && !o.repeatable then .error .usage
    else .ok { g with options := g.options ++ [(o.name, value)] }

end Given

/-- An argument by its form. -/
inductive Form where
  /-- Two hyphens alone. -/
  | separator
  /-- Two hyphens, a name, and a value behind an equals sign. -/
  | long (name : String) (value : Option String)
  /-- One hyphen and letters. -/
  | letters (cs : List Char)
  | other

/-- The form of an argument. -/
def Form.of (arg : String) : Form :=
  match arg.toList with
  | ['-', '-'] => .separator
  | '-' :: '-' :: rest =>
    match Text.splitFirst? '=' (String.ofList rest) with
    | some (name, value) => .long name (some value)
    | none => .long (String.ofList rest) none
  | '-' :: c :: rest => .letters (c :: rest)
  | _ => .other

namespace Grammar

/-- An argument that may be a word although it starts with a hyphen. -/
def isWord (g : Grammar) : Form → Bool
  | .separator => false
  | .long name _ => g.wantsCommand && (g.named? name).isNone
  | .letters cs => g.wantsCommand && cs.any fun c => (g.lettered? c).isNone
  | .other => true

/-- Reads letters; answers an option that still needs its value. -/
def readLetters (g : Grammar) : List Char → Given → Except Refusal (Option OptionSpec × Given)
  | [], given => .ok (none, given)
  | c :: rest, given =>
    match g.lettered? c with
    | none => .error .usage
    | some o =>
      if o.takesValue then
        match rest with
        | [] => .ok (some o, given)
        | '=' :: value => (given.add o (String.ofList value)).map fun given => (none, given)
        | value => (given.add o (String.ofList value)).map fun given => (none, given)
      else
        match given.add o "" with
        | .ok given => g.readLetters rest given
        | .error e => .error e

/-- Reads an option by its name; answers an option that still needs its value. -/
def readLong (g : Grammar) (name : String) (value : Option String) (given : Given) :
    Except Refusal (Option OptionSpec × Given) :=
  match g.named? name, value with
  | none, _ => .error .usage
  | some o, some v =>
    if o.takesValue then (given.add o v).map fun given => (none, given) else .error .usage
  | some o, none =>
    if o.takesValue then .ok (some o, given) else (given.add o "").map fun given => (none, given)

/-- Reads arguments; the first of them is the value of `awaiting`, if that is there. -/
def readFrom (g : Grammar) : List String → Option OptionSpec → Given → Except Refusal Given
  | [], none, given => .ok given
  | [], some _, _ => .error .usage
  | arg :: rest, some o, given =>
    if g.isWord (Form.of arg) then
      match given.add o arg with
      | .ok given => g.readFrom rest none given
      | .error e => .error e
    else .error .usage
  | arg :: rest, none, given =>
    let form := Form.of arg
    if g.isWord form then
      if g.wantsCommand then .ok { given with words := arg :: rest } else .error .usage
    else
      let step := match form with
        | .long name value => g.readLong name value given
        | .letters cs => g.readLetters cs given
        | .separator | .other => .ok (none, given)
      match form, step with
      | .separator, _ =>
        if g.wantsCommand || rest.isEmpty then .ok { given with words := rest } else .error .usage
      | _, .ok (awaiting, given) => g.readFrom rest awaiting given
      | _, .error e => .error e

/-- Reads a command line. -/
def read (g : Grammar) (args : List String) : Except Refusal Given := do
  let given ← g.readFrom args none {}
  if g.wantsCommand && given.words.isEmpty then .error .usage else .ok given

end Grammar

end Stagehand.CommandLine

import Stagehand.Shell.Machine

/-!
# Words of built-in commands

Built-in commands read their words as options, numbers and assignments, and write values so that a
shell reads them back.
-/

namespace Stagehand.Shell

open Sh

/-! ## Numbers and assignments -/

/-- The number of a word, which has to be one. -/
def needCount (word : String) : Sh Nat :=
  match countOf? word with
  | some n => return n
  | none => fail ("Illegal number: " ++ word)

/-- Names and values of words like `name=value`. -/
def splitAssignment (word : String) : String × Option String :=
  match Text.splitFirst? '=' word with
  | some (name, value) => (name, some value)
  | none => (word, none)

/-! ## Options -/

/-- Options as they were given, and the words behind them. -/
structure GivenOptions where
  /-- Each option with its argument, if it has one. -/
  options : List (Char × String) := []
  rest : List String := []

/-- An option was given. -/
def GivenOptions.has (g : GivenOptions) (letter : Char) : Bool :=
  g.options.any fun o => o.1 == letter

/-- Why options cannot be read. -/
inductive OptionFault where
  | illegal (letter : Char)
  | noArgument (letter : Char)
  deriving DecidableEq, Repr

def OptionFault.message : OptionFault → String
  | illegal c => "Illegal option -" ++ String.singleton c
  | noArgument c => "No arg for -" ++ String.singleton c ++ " option"

/-- A letter asks for an argument: a colon stands behind it in the list of known letters. -/
def asksForArgument (known : List Char) (letter : Char) : Bool :=
  ((known.dropWhile (· != letter)).drop 1).head? == some ':'

/-- Reads options; the characters are the letters that are left of a word. -/
def readOptionsFrom (known : List Char) :
    Nat → List Char → List String → Except OptionFault GivenOptions
  | 0, _, words => .ok { rest := words }
  | fuel + 1, c :: letters, words =>
    if !known.contains c || c == ':' then .error (.illegal c)
    else if asksForArgument known c then
      match letters, words with
      | [], [] => .error (.noArgument c)
      | [], word :: words => add (c, word) (readOptionsFrom known fuel [] words)
      | letters, words => add (c, String.ofList letters) (readOptionsFrom known fuel [] words)
    else add (c, "") (readOptionsFrom known fuel letters words)
  | _ + 1, [], [] => .ok {}
  | fuel + 1, [], word :: words =>
    match word.toList with
    | ['-', '-'] => .ok { rest := words }
    | '-' :: c :: letters => readOptionsFrom known fuel (c :: letters) words
    | _ => .ok { rest := word :: words }
where
  /-- Puts an option in front of others. -/
  add (o : Char × String) : Except OptionFault GivenOptions → Except OptionFault GivenOptions
    | .ok g => .ok { g with options := o :: g.options }
    | .error e => .error e

/-- Reads options of some letters; a colon behind a letter asks for an argument. -/
def readOptions (known : String) (words : List String) : Except OptionFault GivenOptions :=
  readOptionsFrom known.toList
    (2 * (words.map String.length).foldl (· + ·) 0 + words.length + 1) [] words

/-- Reads options, which have to be right. -/
def needOptions (known : String) (words : List String) : Sh GivenOptions :=
  match readOptions known words with
  | .ok g => return g
  | .error e => fail e.message

/-! ## Values that are read back -/

/-- A value between quotes. Runs of single quotes in it stand between double quotes. -/
def quotedRuns : Nat → List Char → List Char
  | 0, _ => []
  | fuel + 1, cs =>
    let plain := cs.takeWhile (· != '\'')
    let rest := cs.drop plain.length
    let quotes := rest.takeWhile (· == '\'')
    let left := rest.drop quotes.length
    ['\''] ++ plain ++ ['\''] ++
      (if quotes.isEmpty then [] else ['"'] ++ quotes ++ ['"']) ++
      (if left.isEmpty then [] else quotedRuns fuel left)

/-- A value as a shell reads it back. -/
def quotedValue (value : String) : String :=
  String.ofList (quotedRuns (value.length + 1) value.toList)

/-- A name with its value, as a shell reads it back. -/
def shownAssignment (name value : String) : String := name ++ "=" ++ quotedValue value

def asLines (lines : List String) : String := String.join (lines.map (· ++ "\n"))

end Stagehand.Shell

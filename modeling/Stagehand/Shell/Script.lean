/-!
# Shell scripts

A script as commands. Words keep what was quoted apart from what was not, because only what was not
is split into fields and matched against file names after it has been expanded.

Texts of scripts are texts of bytes.
-/

namespace Stagehand.Shell

/-! ## Words -/

/-- What is done with the value of a parameter. The flag tells whether an empty value
counts as none. -/
inductive ParameterUse where
  | value
  | length
  /-- The operand if there is no value. -/
  | orElse (emptyToo : Bool)
  /-- The operand if there is no value; it is assigned too. -/
  | orAssign (emptyToo : Bool)
  /-- A failure that the operand states if there is no value. -/
  | orFail (emptyToo : Bool)
  /-- The operand if there is a value. -/
  | insteadOf (emptyToo : Bool)
  /-- Without the start that the operand matches. -/
  | withoutStart (longest : Bool)
  /-- Without the end that the operand matches. -/
  | withoutEnd (longest : Bool)
  /-- A use that no operator asks for. -/
  | unknown
  deriving DecidableEq, Repr

/-- How a file is opened. -/
inductive OpenMode where
  | read
  | write
  /-- Written to even if files that are there are to be kept. -/
  | overwrite
  | append
  | readWrite
  deriving DecidableEq, Repr

/-! ## Words, redirections and commands -/

mutual

/-- Parts of a word. -/
inductive Part where
  | text (cs : List Char) (quoted : Bool)
  | parameter (name : String) (use : ParameterUse) (operand : List Part) (quoted : Bool)
  /-- The output of a command. -/
  | output (c : Command) (quoted : Bool)
  | arithmetic (operand : List Part) (quoted : Bool)

/-- What a descriptor is bound to. -/
inductive Redirect where
  | file (descriptor : Nat) (mode : OpenMode) (path : List Part)
  /-- What another descriptor is bound to, or nothing for a hyphen. -/
  | same (descriptor : Nat) (other : List Part)
  /-- A text to be read; it stands behind the line, and is known by its number. -/
  | text (descriptor : Nat) (number : Nat)

/-- Commands of a script. -/
inductive Command where
  | simple (line : Nat) (assignments : List (String × List Part)) (words : List (List Part))
      (redirects : List Redirect)
  | redirected (line : Nat) (c : Command) (redirects : List Redirect)
  | pipeline (stages : List Command)
  | negated (c : Command)
  /-- The second if the first succeeds. -/
  | andThen (c d : Command)
  /-- The second if the first fails. -/
  | orElse (c d : Command)
  | list (cs : List Command)
  | background (c : Command)
  | subshell (line : Nat) (c : Command) (redirects : List Redirect)
  | branch (test yes no : Command)
  /-- Runs `body` as long as `test` succeeds, or fails. -/
  | loop (onSuccess : Bool) (test body : Command)
  /-- Runs `body` for each word, or each parameter of the script. -/
  | each (line : Nat) (name : String) (words : Option (List (List Part))) (body : Command)
  | select (line : Nat) (subject : List Part) (arms : List (List (List Part) × Command))
  | define (name : String) (body : Command)

end

/-- A word. -/
abbrev Word := List Part

def Command.nothing : Command := .list []

instance : Inhabited Command := ⟨.nothing⟩

/-! ## Texts of words -/

/-- The text of a word of which nothing is quoted or expanded. -/
def plainText? : Word → Option String
  | [] => some ""
  | .text cs false :: rest => (plainText? rest).map (String.ofList cs ++ ·)
  | _ => none

/-- The text of a word that is not expanded, and whether some of it was quoted. -/
def literalText : Word → String × Bool
  | [] => ("", false)
  | .text cs quoted :: rest =>
    let (s, q) := literalText rest
    (String.ofList cs ++ s, quoted || q)
  | _ :: rest => literalText rest

end Stagehand.Shell

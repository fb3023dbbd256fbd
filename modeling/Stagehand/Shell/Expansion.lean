import Stagehand.Decimal.Integer
import Stagehand.Shell.Machine
import Stagehand.Shell.Pattern
import Stagehand.Shell.Token

/-!
# Expanded words

What a word expands to is marked character by character: whether it was quoted, and whether a
separator there splits the word into fields. The fields are then matched against file names.
-/

namespace Stagehand.Shell

/-! ## Parameters -/

/-- The letters of options, in the order in which they are told. -/
def optionOrder : List Char := "ubaCEVvxsnmiIfe".toList

/-- The values of a parameter; none if it is not set. -/
def ShellState.parameter? (s : ShellState) (name : String) : Option (List String) :=
  match name with
  | "@" | "*" => some s.params
  | "#" => some [toString s.params.length]
  | "?" => some [toString s.status]
  | "$" => some [toString s.root]
  | "!" => s.lastJob.map fun id => [toString id]
  | "-" => some [String.ofList (optionOrder.filter s.options.has)]
  | "0" => some [s.zero]
  | _ =>
    match name.toList.all Char.isDigit, Decimal.ofDigits? 10 name.toList with
    | true, some n => (s.params.drop (n - 1)).head?.map fun v => [v]
    | _, _ => (s.vars.get? name).map fun v => [v]

def ShellState.separators (s : ShellState) : List Char := ((s.vars.get? "IFS").getD " \t\n").toList

/-! ## Marks -/

/-- Parts of an expanded word. -/
inductive Mark where
  | char (c : Char) (quoted splits : Bool)
  /-- A field ends here; where fields are joined, a character may stand here. -/
  | boundary (joint : Option Char)
  /-- A field is here, even if it has no characters. -/
  | present
  deriving DecidableEq

/-- Characters that were quoted. -/
def quotedMarks (cs : List Char) : List Mark := .present :: cs.map fun c => .char c true false

/-- Characters that came out of an expansion. -/
def expandedMarks (cs : List Char) : List Mark := cs.map fun c => .char c false true

def marksOf (quoted : Bool) (text : String) : List Mark :=
  if quoted then quotedMarks text.toList else expandedMarks text.toList

def parameterMarks (s : ShellState) (name : String) (quoted : Bool) (values : List String) :
    List Mark :=
  if name == "*" && quoted then
    marksOf true (Text.joinWith (String.ofList (s.separators.take 1)) values)
  else List.intercalate [.boundary s.separators.head?] (values.map (marksOf quoted))

def markedText (ms : List Mark) : List Char :=
  ms.filterMap fun m => match m with
    | .char c _ _ => some c
    | .boundary joint => joint
    | .present => none

def markedPattern (ms : List Mark) : Pattern :=
  ms.filterMap fun m => match m with
    | .char c quoted _ => some ⟨c, quoted⟩
    | .boundary joint => joint.map (⟨·, true⟩)
    | .present => none

/-! ## Fields -/

/-- Separators of which a run counts once. -/
def isBlankSeparator (c : Char) : Bool := c == ' ' || c == '\t' || c == '\n'

/-- Splits marks into fields; `current` is the field that is open, the last character first, and
`afterBlank` tells that blanks ended the last one. -/
def splitMarks (separators : List Char) : List Mark → Option Pattern → Bool → List Pattern
  | [], current, _ => (current.map List.reverse).toList
  | .boundary _ :: rest, current, _ =>
    (current.map List.reverse).toList ++ splitMarks separators rest none false
  | .present :: rest, current, _ => splitMarks separators rest (some (current.getD [])) false
  | .char c quoted splits :: rest, current, afterBlank =>
    if splits && separators.contains c then
      match current with
      | some f => f.reverse :: splitMarks separators rest none (isBlankSeparator c)
      | none =>
        if isBlankSeparator c then splitMarks separators rest none afterBlank
        else if afterBlank then splitMarks separators rest none false
        else [] :: splitMarks separators rest none false
    else splitMarks separators rest (some (⟨c, quoted⟩ :: current.getD [])) false

/-! ## File names -/

/-- A pattern matches a name; names that start with a point are matched only by a point. -/
def matchesName (p : Pattern) (name : String) : Bool :=
  (name.toList.head? != some '.' || (p.head?.map (·.char)) == some '.') && p.matchesText name.toList

/-- The names that a pattern may match in a directory. -/
def namesFor (files : FileTree) (place : List String) : List String :=
  "." :: ".." :: (files.namesIn place).map Text.narrow

/-- The paths that the parts of a pattern match, from a place on. -/
def matchParts (files : FileTree) : List Pattern → List String → String → List String
  | [], _, shown => [shown]
  | p :: rest, place, shown =>
    let next := fun (name : String) =>
      match files.walk place [Text.widen name], p with
      | .ok place, _ :: _ =>
        if (files.find? place).isNone then []
        else if rest.isEmpty then [shown ++ name]
        else if (files.requireDir place).toOption.isNone then []
        else matchParts files rest place (shown ++ name ++ "/")
      | .ok _, [] => matchParts files rest place (if rest.isEmpty then shown else shown ++ "/")
      | .error _, _ => []
    if p.isOpen then ((namesFor files place).filter (matchesName p)).flatMap next
    else next (String.ofList p.text)

/-- The parts of a pattern between slashes. -/
def patternParts (p : Pattern) : List Pattern :=
  p.foldr
    (fun c parts =>
      if c.char == '/' then [] :: parts
      else
        match parts with
        | first :: rest => (c :: first) :: rest
        | [] => [[c]])
    [[]]

/-- The paths that a field matches, in order, or the field itself. -/
def matchFiles (files : FileTree) (cwd : List String) (field : Pattern) : List String :=
  let itself := [String.ofList field.text]
  if !field.isOpen then itself
  else
    let found := match patternParts field with
      | [] :: rest => matchParts files rest [] "/"
      | ps => matchParts files ps cwd ""
    if found.isEmpty then itself else found.mergeSort fun a b => decide (a ≤ b)

def fieldsOf (m : Machine) (ms : List Mark) : List String :=
  let s := m.shell
  let fields := splitMarks s.separators ms none false
  if s.options.has 'f' then fields.map fun f => String.ofList f.text
  else fields.flatMap (matchFiles m.files s.cwd)

end Stagehand.Shell

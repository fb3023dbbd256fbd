import Stagehand.Shell.Builtin

/-!
# Finding programs

The place of a program, the program that a script names on its first line, what a word means as a
command, and the shell that a program is started with.
-/

namespace Stagehand.Shell

open Sh

/-! ## Programs -/

def programAt (m : Machine) (cwd : List String) (path : String) :
    Except FileError (List String × String) := do
  let place ← m.files.locate cwd (Text.widen path)
  if (m.programs.lookup place).isSome then .ok (place, path)
  else
    match m.files.find? place with
    | some (.file _ true) => .ok (place, path)
    | some _ => .error .denied
    | none => .error .missing

def searchPath (s : ShellState) : List String :=
  (Text.split (· == ':') ((s.vars.get? "PATH").getD "")).map fun dir =>
    if dir.isEmpty then "." else dir

/-- The place and the path of a program. One that must not be run counts only if no
other is found. -/
def findProgram (m : Machine) (name : String) : Except FileError (List String × String) :=
  let s := m.shell
  if name.toList.contains '/' then programAt m s.cwd name
  else if name.isEmpty then .error .missing
  else if FileTree.nameLimit < name.length then .error .nameTooLong
  else
    let tried := (searchPath s).map fun dir => programAt m s.cwd (Path.join dir name)
    match tried.find? fun r => r.toOption.isSome with
    | some r => r
    | none =>
      .error (if tried.any fun r => r matches .error .denied then .denied else .missing)

/-- The program that the first line of a script names, with its argument. -/
def interpreter? (text : String) : Option (String × List String) :=
  match text.toList with
  | '#' :: '!' :: rest =>
    let isBlank := fun c => c == ' ' || c == '\t'
    let line := (rest.takeWhile (· != '\n')).dropWhile isBlank
    let path := line.takeWhile fun c => !isBlank c
    let arg := ((line.drop path.length).dropWhile isBlank).reverse.dropWhile isBlank
    some (String.ofList path, if arg.isEmpty then [] else [String.ofList arg.reverse])
  | _ => none

/-! ## Words as commands -/

/-- What a word means as a command. -/
inductive Meaning where
  | reserved
  | replaced (text : String)
  | function
  | builtin (special : Bool)
  | program (path : String) (wasFound : Bool)
  | unknown

/-- What a word means as a command. -/
def meaningOf (m : Machine) (word : String) : Meaning :=
  let s := m.shell
  if reservedWords.contains word then .reserved
  else
    match s.aliases.lookup word with
    | some text => .replaced text
    | none =>
      if (s.functions.lookup word).isSome then .function
      else if isBuiltin word then .builtin (specialBuiltins.contains word)
      else if word.toList.contains '/' then
        if m.files.holds s.cwd (Text.widen word) then .program word false else .unknown
      else
        match findProgram m word with
        | .ok (_, path) => .program path (s.found.contains word)
        | .error _ => .unknown

/-- The line that tells what a word means. -/
def Meaning.sentence (word : String) : Meaning → String
  | reserved => word ++ " is a shell keyword"
  | replaced text => word ++ " is an alias for " ++ text
  | function => word ++ " is a shell function"
  | builtin special => word ++ " is a " ++ (if special then "special " else "") ++ "shell builtin"
  | program path wasFound =>
    word ++ " is " ++ (if wasFound then "a tracked alias for " else "") ++ path
  | unknown => word ++ ": not found"

/-- The line that stands for a word as a command; nothing if it means none. -/
def Meaning.line? (word : String) : Meaning → Option String
  | replaced text => some ("alias " ++ shownAlias (word, text))
  | program path _ => some path
  | unknown => none
  | _ => some word

/-- Tells what words mean as commands, in full sentences or not. -/
def tellMeanings (full : Bool) (words : List String) : Sh Unit := do
  let m ← machine
  let meanings := words.map fun w => (w, meaningOf m w)
  print (asLines (meanings.filterMap fun w =>
    if full then some (w.2.sentence w.1) else w.2.line? w.1))
  setStatus (if meanings.any fun w => w.2 matches .unknown then 127 else 0)

/-- Tells or forgets the programs that were found, or looks for programs. -/
def hashCommand (args : List String) : Sh Unit := do
  let g ← needOptions "rv" args
  setStatus 0
  if g.has 'r' then change fun s => { s with found := [] }
  else if g.rest.isEmpty then
    let m ← machine
    print (asLines (m.shell.found.filterMap fun name => ((findProgram m name).toOption).map (·.2)))
  else
    g.rest.forM fun name => do
      let m ← machine
      match meaningOf m name with
      | .unknown =>
        complain (name ++ ": not found")
        setStatus 1
      | .program _ _ => change fun s => { s with found := s.found.filter (· != name) ++ [name] }
      | _ => pure ()

/-! ## The shell of a program -/

/-- The variables that a shell starts with, if it is not given others. -/
def usualVariables : List (String × String) :=
  [("IFS", " \t\n"), ("OPTIND", "1"),
    ("PATH", "/usr/local/sbin:/usr/local/bin:/usr/sbin:/usr/bin:/sbin:/bin"), ("PS1", "# "),
    ("PS2", "> "), ("PS4", "+ ")]

/-- What a shell keeps when its process becomes a program. -/
def ShellState.forProgram (s : ShellState) : ShellState where
  vars := s.environment
  exported := s.exported
  traps := s.ignoredTraps
  cwd := s.cwd
  limits := s.limits
  bindings := s.bindings
  mask := s.mask

/-- The shell that a program starts with: process `id` with a parent. -/
def ShellState.started (s : ShellState) (files : FileTree) (id parent : Nat) (zero : String)
    (w : ShellWords) (params : List String) : ShellState :=
  let given := s.vars.filter fun v => isName v.1 && v.1 != "IFS" && v.1 != "OPTIND"
  let ownPath := (s.vars.get? "PWD").filter fun path =>
    path.startsWith "/" && (files.locate [] (Text.widen path)).toOption == some s.cwd
  let vars := ((NameMap.ofList usualVariables).insertAll given.toList).insertAll
    [("PPID", toString parent), ("PWD", ownPath.getD (pathOf s.cwd))]
  { s with
    vars
    ownPath
    exported := if s.exported.contains "PWD" then s.exported else "PWD" :: s.exported
    zero
    params
    options := w.options
    root := id }

end Stagehand.Shell

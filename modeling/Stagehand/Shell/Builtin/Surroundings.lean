import Stagehand.Shell.Builtin.Words
import Stagehand.Shell.Condition
import Stagehand.Shell.Format

/-!
# The surroundings of a script

The built-in commands on the working directory, the permissions of new files and what is done at
signals, those that print, and those that answer conditions or end something.
-/

namespace Stagehand.Shell

open Sh

/-! ## Directories -/

/-- The parts of a path, taken as they are written; `front` are those in front of it. -/
def writtenParts (front : List String) (path : String) : List String :=
  (Text.pieces (· == '/') path.toList).foldl
    (fun parts part =>
      match part with
      | [] | ['.'] => parts
      | ['.', '.'] => parts.dropLast
      | cs => parts ++ [String.ofList cs])
    front

/-- A path starts with exactly two slashes, which are kept. -/
def hasTwoSlashes (path : String) : Bool := path.startsWith "//" && !path.startsWith "///"

/-- The path that a path leads to from a directory, as it is written. -/
def writtenPath (dir path : String) : String :=
  let isAbsolute := path.startsWith "/"
  let front := if isAbsolute then []
    else ((Text.pieces (· == '/') dir.toList).filter fun p => !p.isEmpty).map String.ofList
  (if hasTwoSlashes (if isAbsolute then path else dir) then "//" else "/") ++
    Text.joinWith "/" (writtenParts front path)

/-- The directory that a path leads to, with its path. If `isStrict` the path is walked
part by part. -/
def directoryOf? (m : Machine) (isStrict : Bool) (path : String) :
    Option (List String × String) := do
  let s := m.shell
  let written := writtenPath s.dirPath path
  let place ← (m.files.locate s.cwd (Text.widen (if isStrict then path else written))).toOption
  match m.files.find? place with
  | some (.dir _) => some (place, if isStrict then pathOf place else written)
  | _ => none

/-- The paths that a directory is looked for at, and whether the way there is told. -/
def directoryPaths (s : ShellState) (path : String) : List (String × Bool) :=
  let own := [(if path.isEmpty then "." else path, false)]
  let stands := path.startsWith "/" || path == "." || path == ".." || path.startsWith "./" ||
    path.startsWith "../"
  match if stands then none else s.vars.get? "CDPATH" with
  | some dirs =>
    (Text.split (· == ':') dirs).map (fun dir =>
      if dir.isEmpty then (path, false) else (Path.join dir path, true)) ++ own
  | none => own

/-- Options ask for a directory by its place, and not by the path that led there. -/
def asksForPlace (g : GivenOptions) : Bool := (g.options.getLast?.map (·.1)) == some 'P'

def changeDir (args : List String) : Sh Unit := do
  let g ← needOptions "LP" args
  let m ← machine
  let s := m.shell
  let (path, isBack) := match g.rest with
    | [] => ((s.vars.get? "HOME").getD "", false)
    | "-" :: _ => ((s.vars.get? "OLDPWD").getD "", true)
    | path :: _ => (path, false)
  let isStrict := asksForPlace g
  match (directoryPaths s path).findSome? fun p =>
      (directoryOf? m isStrict p.1).map fun d => (d, p.2) with
  | none => fail ("can't cd to " ++ (if path.isEmpty then "." else path))
  | some ((cwd, dir), isTold) =>
    change fun s => { s with cwd, ownPath := some dir, found := [] }
    assign "OLDPWD" s.dirPath
    exportName "OLDPWD"
    assign "PWD" dir
    exportName "PWD"
    if isBack || isTold then print (dir ++ "\n")
    setStatus 0

def tellDir (args : List String) : Sh Unit := do
  let g ← needOptions "LP" args
  let s ← shell
  print ((if asksForPlace g then pathOf s.cwd else s.dirPath) ++ "\n")
  setStatus 0

/-! ## Permissions -/

/-- Three permissions of each kind of user. -/
def permissionKinds : List (Char × Nat) := [('u', 6), ('g', 3), ('o', 0)]

def permissionText (permissions : Nat) : String :=
  Text.joinWith "," (permissionKinds.map fun k =>
    let three := permissions / Nat.pow 2 k.2 % 8
    String.ofList ([k.1, '='] ++
      ([('r', 4), ('w', 2), ('x', 1)].filter fun p => three / p.2 % 2 == 1).map (·.1)))

/-- The kinds of users that letters name, as one bit in each three. -/
def usersOf (cs : List Char) : Nat :=
  let bits := cs.map fun c =>
    match c with
    | 'u' => 64
    | 'g' => 8
    | 'o' => 1
    | _ => 73
  if cs.isEmpty then 73 else bits.foldl (· ||| ·) 0

/-- The permissions that letters name, as three bits; `old` are those that were there. -/
def permissionsOf (old : Nat) (cs : List Char) : Nat :=
  (cs.map fun c =>
    match c with
    | 'r' => 4
    | 'w' => 2
    | 'x' => 1
    | 'u' => old / 64 % 8
    | 'g' => old / 8 % 8
    | 'o' => old % 8
    | 'X' => if old &&& 73 == 0 then 0 else 1
    | _ => 0).foldl (· ||| ·) 0

/-- Permissions changed as a text asks for; `users` are those that were named last. -/
def changedPermissions (old : Nat) : Nat → Nat → Option Nat → List Char → Option Nat
  | 0, _, _, _ => none
  | _ + 1, now, _, [] => some now
  | fuel + 1, now, users, cs =>
    let names := cs.takeWhile fun c => "augo".toList.contains c
    let users := if names.isEmpty then users.getD 73 else usersOf names ||| users.getD 0
    match cs.drop names.length with
    | op :: rest =>
      let letters := rest.takeWhile fun c => "rwxugoXs".toList.contains c
      let left := rest.drop letters.length
      let bits := permissionsOf old letters * users
      let next := match op with
        | '=' => some (bits ||| (now &&& (511 ^^^ users * 7)))
        | '+' => some (now ||| bits)
        | '-' => some (now &&& (511 ^^^ bits))
        | _ => none
      match next, left with
      | some now, ',' :: left => changedPermissions old fuel now none left
      | some now, [] => some now
      | some now, c :: _ =>
        if "=+-".toList.contains c then changedPermissions old fuel now (some users) left else none
      | none, _ => none
    | [] => none

/-- Sets or tells the permissions that new files do not get. -/
def maskCommand (args : List String) : Sh Unit := do
  let g ← needOptions "S" args
  let old := (← shell).mask
  match g.rest with
  | [] =>
    let digits := Nat.toDigits 8 old
    let number := String.ofList (List.replicate (4 - digits.length) '0' ++ digits)
    print ((if g.has 'S' then permissionText (511 - old) else number) ++ "\n")
  | word :: _ =>
    if (word.toList.head?.map Char.isDigit).getD false then
      match Decimal.ofDigits? 8 word.toList with
      | some n => change fun s => { s with mask := n % 512 }
      | none => fail ("Illegal number: " ++ word)
    else
      match changedPermissions (511 - old) (word.length + 1) (511 - old) none word.toList with
      | some n => change fun s => { s with mask := 511 - n }
      | none => fail ("Illegal mode: " ++ word)
  setStatus 0

/-! ## Limits -/

/-- What may be limited: letters, how it is told, and the limits that there are at first. -/
def limitKinds : List (Char × String × Option Nat × Option Nat) :=
  [('t', "time(seconds)        ", none, none), ('f', "file(blocks)         ", none, none),
    ('d', "data(kbytes)         ", none, none), ('s', "stack(kbytes)        ", some 8192, none),
    ('c', "coredump(blocks)     ", some 0, none), ('m', "memory(kbytes)       ", none, none),
    ('l', "locked memory(kbytes) ", some 8192, some 8192),
    ('p', "process              ", none, none),
    ('n', "nofiles              ", some 1024, some 1048576),
    ('v', "vmemory(kbytes)      ", none, none), ('w', "locks                ", none, none),
    ('r', "rtprio               ", some 0, some 0)]

def ShellState.limitsOf (s : ShellState) (kind : Char) : Option Nat × Option Nat :=
  (s.limits.lookup kind).getD (((limitKinds.lookup kind).map (·.2)).getD (none, none))

def limitText : Option Nat → String
  | some n => toString n
  | none => "unlimited"

/-- The limit that a word writes; a word without digits writes none. -/
def readLimit (word : String) : Sh (Option Nat) :=
  if word == "unlimited" then return none
  else
    match if word.isEmpty then some 0 else digitsOf? word with
    | some n => return some n
    | none => fail "bad number"

/-- A limit is not above another. -/
def isWithin : Option Nat → Option Nat → Bool
  | _, none => true
  | some a, some b => a ≤ b
  | none, some _ => false

/-- Sets or tells limits. -/
def limitCommand (args : List String) : Sh Unit := do
  let g ← needOptions "HSatfdscmlpnvwr" args
  let s ← shell
  let letters := g.options.map (·.1)
  let side? := (letters.filter fun c => c == 'H' || c == 'S').getLast?
  let ofHard := side? == some 'H'
  let shown := fun kind => limitText ((if ofHard then Prod.snd else Prod.fst) (s.limitsOf kind))
  let kind := ((letters.filter fun c => !"HSa".toList.contains c).getLast?).getD 'f'
  match g.rest with
  | [] =>
    if g.has 'a' then print (asLines (limitKinds.map fun k => k.2.1 ++ shown k.1))
    else print (shown kind ++ "\n")
    setStatus 0
  | word :: more =>
    if g.has 'a' || !more.isEmpty then fail "too many arguments"
    else
      let n ← readLimit word
      let (soft, hard) := s.limitsOf kind
      let soft := if ofHard then soft else n
      let hard := if side? == some 'S' then hard else n
      if isWithin soft hard then
        change fun s => { s with limits := (kind, soft, hard) :: s.limits.filter (·.1 != kind) }
        setStatus 0
      else fail "error setting limit (Invalid argument)"

/-! ## Signals -/

/-- Sets what is done at signals; `action` is nothing if nothing of its own is to be done. -/
def setTraps (action : Option String) : List String → Sh Unit
  | [] => setStatus 0
  | word :: rest => do
    match signalNumber? word with
    | none =>
      note ("trap: " ++ word ++ ": bad trap\n")
      setStatus 1
    | some n =>
      let name := signalName n
      change fun s =>
        { s with traps := s.traps.filter (·.1 != name) ++ (action.map fun a => (name, a)).toList }
      setTraps action rest

/-- Sets what is done at signals, or tells it. -/
def trapCommand (args : List String) : Sh Unit := do
  let g ← needOptions "" args
  match g.rest with
  | [] =>
    let traps := (← shell).traps
    print (asLines (signalNames.filterMap fun name =>
      (traps.lookup name).map fun action => "trap -- " ++ quotedValue action ++ " " ++ name))
    setStatus 0
  | [word] => setTraps none [word]
  | action :: words =>
    if (countOf? action).isSome && (signalNumber? action).isSome then
      setTraps none (action :: words)
    else setTraps (if action == "-" then none else some action) words

/-! ## Printing and conditions -/

/-- Prints under a format. -/
def printfCommand (args : List String) : Sh Unit := do
  let g ← needOptions "" args
  match g.rest with
  | [] => fail "usage: printf format [arg ...]"
  | format :: words =>
    let p := formatted format words
    printBytes p.bytes
    p.faults.forM fun f => complain f.message
    setStatus (if p.faults.any PrintFault.isFatal then 2 else if p.faults.isEmpty then 0 else 1)

/-- Answers a condition. -/
def testCommand (name : String) (args : List String) : Sh Unit := do
  let m ← machine
  let v : FileView := ⟨m.files, m.shell.cwd, m.changed⟩
  match if name == "[" then holdsBracket v args else holdsCondition v args with
  | .ok b => setTruth b
  | .error f => fail f.message

/-! ## Ending -/

/-- Ends the script with the status that a word gives. Without one, what is done at a signal or at
the end does not change the status. -/
def exitCommand : List String → Sh Unit
  | [] => do
    let s ← shell
    exit (s.interrupted.getD s.status)
  | word :: _ => do exit (← needCount word)

/-- Ends something with the status that a word gives. -/
def endsWith (flow : Flow) : List String → Sh Unit
  | [] => throw flow
  | word :: _ => do
    setStatus (← needCount word)
    throw flow

/-- Leaves loops, or goes on with their next round; nothing outside of loops. -/
def leaveLoops (flow : Nat → Flow) (args : List String) : Sh Unit := do
  let n ← match args with
    | [] => pure 1
    | word :: _ => do
      let n ← needCount word
      if n == 0 then fail ("Illegal number: " ++ word) else pure n
  setStatus 0
  let loops := (← shell).loops
  if loops != 0 then throw (flow (min n loops))

end Stagehand.Shell

import Stagehand.Shell.Copying
import Stagehand.Shell.Opening
import Stagehand.Shell.Real

/-!
# Programs that are no scripts

Waiting for a duration, and copying files to the output. They answer with their status.
-/

namespace Stagehand.Shell

open Sh

/-- What a program says about words that it does not understand. -/
def helpHint (program : String) : String := "Try '" ++ program ++ " --help' for more information.\n"

def noteWrongOption (program why : String) : Sh Nat := do
  note (program ++ ": " ++ why ++ "\n" ++ helpHint program)
  return 1

/-- How a letter that is no option is told. -/
def unknownLetter (c : Char) : String := "invalid option -- '" ++ String.singleton c ++ "'"

/-- The long option that a word behind two hyphens names: enough of its name to tell it from others,
and no value. -/
def longOption (names : List String) (word : String) : Except String String :=
  let cs := word.toList
  let name := String.ofList (cs.takeWhile (· != '='))
  let about := fun what : String => "option '--" ++ what ++ "'"
  let found : Except String String := match if names.contains name then [name]
    else names.filter (·.startsWith name) with
    | [full] => .ok full
    | [] => .error ("unrecognized " ++ about word)
    | several =>
      .error (about word ++ " is ambiguous; possibilities:" ++
        String.join (several.map fun n => " '--" ++ n ++ "'"))
  match found with
  | .ok full =>
    if cs.contains '=' then .error (about full ++ " doesn't allow an argument") else .ok full
  | .error e => .error e

/-- Options that every program has. -/
def commonOptions : List String := ["help", "version"]

/-! ## Waiting -/

def unitSeconds : List Char → Option Float
  | [] | ['s'] => some 1.0
  | ['m'] => some 60.0
  | ['h'] => some 3600.0
  | ['d'] => some 86400.0
  | _ => none

/-- The seconds that a duration writes, with an optional unit. -/
def durationOf? (s : String) : Option Float := do
  let r ← readReal? s.toList
  let unit ← unitSeconds r.rest
  if 0.0 ≤ r.value then some (r.value * unit) else none

/-- Waits for the sum of some durations. -/
def runSleep (args : List String) : Sh Nat := do
  let front := args.takeWhile (· != "--")
  let words := front ++ (args.drop (front.length + 1))
  match (front.find? fun a => a.startsWith "-" && a != "-").map String.toList with
  | some ('-' :: '-' :: name) =>
    match longOption commonOptions (String.ofList name) with
    | .ok _ => return 0
    | .error e => noteWrongOption "sleep" e
  | some cs => noteWrongOption "sleep" (unknownLetter ((cs.drop 1).headD '-'))
  | none =>
    if words.isEmpty then
      note ("sleep: missing operand\n" ++ helpHint "sleep")
      return 1
    else
      match words.filter fun a => (durationOf? a).isNone with
      | [] =>
        let seconds := (words.filterMap durationOf?).foldl (· + ·) 0.0
        if seconds.isInf then hang
        else
          pause (seconds * 1000000.0).ceil.toUInt64.toNat
          return 0
      | bad =>
        let lines := bad.map fun a => "sleep: invalid time interval '" ++ a ++ "'\n"
        note (String.join lines ++ helpHint "sleep")
        return 1

/-! ## Copying -/

/-- What the words of a copying program ask for: its style and its files, if it has anything to
copy, or what is wrong about its options. -/
def readCopyWords :
    List String → CopyStyle → List String → Except String (Option (CopyStyle × List String))
  | [], s, files => .ok (some (s, files.reverse))
  | "--" :: rest, s, files => .ok (some (s, files.reverse ++ rest))
  | word :: rest, s, files =>
    match word.toList with
    | '-' :: '-' :: name =>
      match longOption (CopyStyle.longLetters.map (·.1) ++ commonOptions) (String.ofList name) with
      | .ok full =>
        match (CopyStyle.longLetters.lookup full).bind s.withLetter? with
        | some s => readCopyWords rest s files
        | none => .ok none
      | .error e => .error e
    | '-' :: c :: cs =>
      let style := (c :: cs).foldl
        (fun (s : Except String CopyStyle) c => do
          match (← s).withLetter? c with
          | some s => .ok s
          | none => .error (unknownLetter c))
        (.ok s)
      match style with
      | .ok s => readCopyWords rest s files
      | .error e => .error e
    | _ => readCopyWords rest s (word :: files)

/-- How a file that cannot be read is told. -/
def unreadableText (path : String) (e : FileError) : String :=
  let why :=
    refusal (if e == .notDirectory then "Not a directory" else "No such file or directory") e
  "cat: " ++ path ++ ": " ++ why ++ "\n"

/-- Why copying stopped. -/
inductive CopyEnd where
  | done
  | unreadable (why : FileError)
  /-- Nobody takes what is written. -/
  | unwritable
  deriving Inhabited

/-- Copies a stream to the output. -/
def copyStream (style : CopyStyle) (stream : Nat) : Nat → CopyState → Sh (CopyState × CopyEnd)
  | 0, _ => hang
  | fuel + 1, st => do
    match ← awaitSource stream with
    | some (.bytes bs) =>
      changeMachine (dropFront stream bs.size)
      let (shown, st) := if style.isPlain then (bs.toList, st) else copyBytes style bs.toList st
      if ← writeBytes 1 shown then copyStream style stream fuel st else return (st, .unwritable)
    | some .empty => return (st, .done)
    | some (.unreadable why) => return (st, .unreadable why)
    | none => hang

/-- The output of a program is the file that a stream reads, and there is more of it to read. -/
def isOwnInput (m : Machine) (stream : Nat) : Bool :=
  let place? := fun n => match m.streams[n]? with
    | some (.file place _ _) => some place
    | _ => none
  let out := (m.bound? 1).bind place?
  out.isSome && out == place? stream &&
    (match source? stream m with
      | some (.bytes _) => true
      | _ => false)

/-- Copies files to the output; a hyphen stands for the input. -/
def copyFiles (style : CopyStyle) : List String → CopyState → Nat → Sh Nat
  | [], _, status => return status
  | path :: rest, st, status => do
    let stream ← if path == "-" then do
        match (← machine).bound? 0 with
        | some n => pure (.ok n)
        | none => pure (.error (.stated "Bad file descriptor"))
      else openFile .read path
    match stream with
    | .error e =>
      note (unreadableText path e)
      copyFiles style rest st 1
    | .ok n =>
      if isOwnInput (← machine) n then
        note ("cat: " ++ path ++ ": input file is output file\n")
        copyFiles style rest st 1
      else
        match ← copyStream style n 1000000 st with
        | (st, .done) => copyFiles style rest st status
        | (st, .unreadable e) =>
          note (unreadableText path e)
          copyFiles style rest st 1
        | (_, .unwritable) =>
          note "cat: write error: Broken pipe\n"
          return 1

/-- Copies files, or the input if there are none, to the output. -/
def runCat (args : List String) : Sh Nat := do
  match readCopyWords args {} [] with
  | .error e => noteWrongOption "cat" e
  | .ok none => return 0
  | .ok (some (style, files)) =>
    let m ← machine
    let files := if files.isEmpty then ["-"] else files
    if (m.bound? 1).isNone then
      note "cat: standard output: Bad file descriptor\n"
      return 1
    else
      let status ← copyFiles style files {} 0
      if files.contains "-" && (m.bound? 0).isNone then
        note "cat: closing standard input: Bad file descriptor\n"
        return 1
      else return status

end Stagehand.Shell

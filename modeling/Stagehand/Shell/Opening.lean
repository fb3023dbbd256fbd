import Stagehand.Shell.Machine

/-!
# Opening files

A path is opened as a stream, or it is told why not.
-/

namespace Stagehand.Shell

open Sh

/-- How a refused file is reported; a missing file is reported with this text. -/
def refusal (missing : String) : FileError → String
  | .missing | .notDirectory => missing
  | .isDirectory => "Is a directory"
  | .denied => "Permission denied"
  | .nameTooLong => "File name too long"
  | .alreadyThere => "File exists"
  | e => e.message

/-- The descriptor that a path stands for. -/
def descriptorOf? (path : String) : Option Nat :=
  match path with
  | "/dev/stdin" => some 0
  | "/dev/stdout" => some 1
  | "/dev/stderr" => some 2
  | _ =>
    (Text.rest? path "/dev/fd/").bind fun digits =>
      if digits != "" && digits.toList.all Char.isDigit then digits.toNat? else none

/-- The machine after a file was opened to be written to, with the stream that it is written to. -/
def openToWrite (mode : OpenMode) (keepsOld : Bool) (place : List String) (m : Machine) :
    Except FileError (Machine × Stream) := do
  let old := m.files.find? place
  if keepsOld && mode == .write && old.isSome then .error .alreadyThere
  else
    let kept := match old with
      | some (.file bytes _) =>
        if mode == .append || mode == .readWrite then bytes else ByteArray.empty
      | _ => ByteArray.empty
    let files ← m.files.writeAt place kept
    let m := { m with files }
    let m := if old.isNone then m.noteChange place.dropLast else m
    let m := if old.isNone || mode == .write || mode == .overwrite then m.noteChange place else m
    .ok (m, .file place mode 0)

/-- Opens a file, or answers why it is refused. -/
def openFile (mode : OpenMode) (path : String) : Sh (Except FileError Nat) := do
  let m ← machine
  let s := m.shell
  match (descriptorOf? path).bind fun d => s.bindings.lookup d with
  | some n => return .ok n
  | none =>
    let path := Text.widen path
    match if mode == .read then m.files.locate s.cwd path else m.files.locateToWrite s.cwd path with
    | .error e => return .error e
    | .ok place =>
      match m.files.find? place, mode with
      | some .device, _ => return .ok (← newStream .nowhere)
      | some (.dir _), .read => return .ok (← newStream .directory)
      | some (.file _ _), .read => return .ok (← newStream (.file place .read 0))
      | none, .read => return .error .missing
      | _, _ =>
        match openToWrite mode (s.options.has 'C') place m with
        | .ok (m, stream) =>
          changeMachine fun _ => m
          return .ok (← newStream stream)
        | .error e => return .error e

end Stagehand.Shell

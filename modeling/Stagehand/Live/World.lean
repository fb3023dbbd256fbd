import Stagehand.Live.Capture
import Stagehand.Shell.Schedule

/-!
# Processes that are listened to

A world holds the processes that were started on a host, and the taps on what they print. Lines are
given on as soon as they are complete, and the last one at the end of the output.

**Closing.** A tap closes at the end of the output, which comes only when no process can write to it
any more, and at the first line that is no text. Who writes to a closed tap is told so by a signal.
-/

namespace Stagehand.Live

open Shell (System Machine)

/-! ## Taps -/

/-- What listens to a pipe. -/
structure Tap where
  pipe : Nat
  /-- What comes out are errors. -/
  isError : Bool
  /-- The bytes behind the last line that was complete. -/
  rest : List UInt8 := []
  /-- The captured text. -/
  text : String := ""
  isOpen : Bool := true

namespace Tap

/-- The lines that a tap takes from bytes, and the tap behind them. -/
def take (bytes : List UInt8) (isEnd : Bool) (t : Tap) : List String × Tap :=
  let raw := rawLines (t.rest ++ bytes)
  let due := if isEnd then raw else raw.filter isEnded
  let texts := readable due
  (texts,
    { t with
      rest := (raw.filter fun line => !isEnded line).flatten
      text := texts.foldl addLine t.text
      isOpen := !isEnd && texts.length == due.length })

end Tap

/-! ## Worlds -/

/-- The processes of a host, and what they were heard to say. -/
structure World (κ : Type) where
  system : System
  taps : List Tap := []
  console : κ

namespace World

variable {κ : Type}

def still (programs : List (List String × Shell.SystemProgram)) (console : κ) : World κ where
  system := { machine := { files := FileTree.empty, programs } }
  console := console

def onConsole (f : κ → κ) (w : World κ) : World κ := { w with console := f w.console }

def change (f : System → System) (w : World κ) : World κ := { w with system := f w.system }

def onFiles (files : FileTree) (w : World κ) : World κ :=
  w.change fun s => { s with machine := { s.machine with files } }

/-! ## Listening -/

/-- What may be heard at a tap now: bytes, and whether the output ends there. -/
def heard? (m : Machine) (t : Tap) : Option (ByteArray × Bool) :=
  let bytes := m.inPipe t.pipe
  if !t.isOpen then none
  else if !bytes.isEmpty then some (bytes, false)
  else if m.isFed t.pipe then none
  else some (bytes, true)

/-- Hears what is at a tap. `tell` is given each line and whether it is an error. -/
def hear (tell : Bool → String → κ → κ) (t : Tap) (bytes : ByteArray) (isEnd : Bool) (w : World κ) :
    World κ :=
  let (lines, t) := t.take bytes.toList isEnd
  let m := w.system.machine.setStream t.pipe (.pipe ByteArray.empty)
  let m := if t.isOpen then m else { m with outlets := m.outlets.filter (· != t.pipe) }
  { system := { w.system with machine := m }
    taps := w.taps.map fun u => if u.pipe == t.pipe then t else u
    console := lines.foldl (fun c line => tell t.isError line c) w.console }

/-- Lets processes go on, hears them, and lets time pass up to `time`. -/
def advance (tell : Bool → String → κ → κ) (time : Nat) : Nat → World κ → World κ
  | 0, w => w
  | fuel + 1, w =>
    let w := w.change (System.settle (fuel + 1))
    match w.taps.findSome? fun t => (heard? w.system.machine t).map fun x => (t, x) with
    | some (t, bytes, isEnd) => advance tell time fuel (w.hear tell t bytes isEnd)
    | none =>
      match w.system.wake?.filter (· ≤ time) with
      | some wake => advance tell time fuel (w.change fun s => { s with time := max s.time wake })
      | none => w.change fun s => { s with time := max s.time time }

/-! ## Processes -/

/-- Starts a program whose output is listened to. Answers its process and the pipes of
its output. -/
def start (shell : Shell.ShellState) (place : List String) (path : String) (argv : List String)
    (w : World κ) : (Nat × Nat × Nat) × World κ :=
  let m := w.system.machine
  let n := m.streams.size
  let streams :=
    (((((m.streams.push .nowhere).push (.pipe ByteArray.empty)).push (.inlet (n + 1))).push
      (.pipe ByteArray.empty)).push (.inlet (n + 3)))
  let m := { m with streams, outlets := m.outlets ++ [n + 1, n + 3] }
  let shell := { shell with bindings := [(0, n), (1, n + 2), (2, n + 4)] }
  let (id, system) := { w.system with machine := m }.start shell place path argv
  ((id, n + 1, n + 3),
    { w with
      system
      taps := w.taps ++ [{ pipe := n + 1, isError := false }, { pipe := n + 3, isError := true }] })

def ending? (w : World κ) (id : Nat) : Option Shell.Exit := w.system.machine.ending? id

/-- The text that was captured at a tap that is closed. -/
def captured? (w : World κ) (pipe : Nat) : Option String :=
  (w.taps.find? fun t => t.pipe == pipe && !t.isOpen).map (·.text)

def forget (id : Nat) (pipes : List Nat) (w : World κ) : World κ :=
  { w with
    system := { w.system with machine := w.system.machine.forget id }
    taps := w.taps.filter fun t => !pipes.contains t.pipe }

end World

end Stagehand.Live

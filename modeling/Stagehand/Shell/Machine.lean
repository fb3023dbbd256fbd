import Stagehand.Files.Tree
import Stagehand.NameMap
import Stagehand.Shell.Routine
import Stagehand.Shell.Token
import Stagehand.Shell.Signal
import Stagehand.Text.Bytes

/-!
# The machine that scripts run on

A machine has files, streams and processes. Each process has a shell and takes its turns as a
routine; what it does is done to the process whose turn it is. A descriptor of a shell is bound to a
stream, and descriptors of several shells may be bound to the same one.

**Pipes.** What is written to the inlet of a pipe is read from the pipe. A pipe ends when nothing is
left in it and no process that has not ended holds an inlet of it; nobody listens to it if no such
process holds the pipe and it is no outlet of the machine.

**Ends.** A process that has ended stays known until its parent has seen how it ended.
-/

namespace Stagehand.Shell

/-! ## Streams -/

/-- What is written to and read from. -/
inductive Stream where
  /-- What was written to its inlets and not read yet. -/
  | pipe (bytes : ByteArray)
  /-- What is written goes into a pipe. -/
  | inlet (pipe : Nat)
  /-- A file that is read and written from an offset on, or written to at its end. -/
  | file (place : List String) (mode : OpenMode) (offset : Nat)
  /-- A directory cannot be read. -/
  | directory
  /-- What is written is lost, and there is nothing to read. -/
  | nowhere
  deriving Inhabited

/-- The bytes that a pipe holds at most. -/
def pipeCapacity : Nat := 65536

/-! ## Shells -/

/-- Programs that are no scripts. -/
inductive SystemProgram where
  | shell
  | sleep
  | cat
  deriving DecidableEq, Repr

/-- Options of a shell, by their letters. -/
structure Options where
  letters : List Char := []
  deriving Repr

namespace Options

def has (o : Options) (letter : Char) : Bool := o.letters.contains letter

def set (on : Bool) (letter : Char) (o : Options) : Options :=
  let others := o.letters.filter (· != letter)
  ⟨if on then others ++ [letter] else others⟩

end Options

def pathOf (place : List String) : String := "/" ++ Text.joinWith "/" (place.map Text.narrow)

/-- Commands in the background that are waited for together. -/
structure Job where
  number : Nat
  /-- Their processes; the last one tells how the job ended. -/
  members : List Nat
  /-- A script has waited for it. -/
  isWaited : Bool := false

/-- A value that a local variable hides. -/
structure Hidden where
  name : String
  value : Option String
  isExported : Bool

/-- The state of a shell. Its texts are texts of bytes, but for places of files. -/
structure ShellState where
  vars : NameMap String := NameMap.empty
  /-- The variables that programs get. -/
  exported : List String := []
  fixed : List String := []
  /-- The name and the parameters of the script. -/
  zero : String := "sh"
  params : List String := []
  status : Nat := 0
  /-- The status of the last script whose output was taken, since the command started. -/
  outputStatus : Option Nat := none
  cwd : List String := []
  /-- The path of the working directory, if it is not the usual one. -/
  ownPath : Option String := none
  /-- The streams that descriptors are bound to. -/
  bindings : List (Nat × Nat) := [(0, 0), (1, 1), (2, 2)]
  /-- Streams that redirections set aside. -/
  aside : List Nat := []
  functions : List (String × Command) := []
  aliases : List (String × String) := []
  /-- What is done at a signal, or at the end under the name of `EXIT`. -/
  traps : List (String × String) := []
  options : Options := {}
  /-- How many loops are being run. -/
  loops : Nat := 0
  /-- How many functions are being run. -/
  calls : Nat := 0
  /-- The values that local variables of the function hide. -/
  hidden : List Hidden := []
  /-- The options that come back behind the function. -/
  hiddenOptions : Option Options := none
  /-- The line of the command that is run. -/
  line : Nat := 1
  /-- The built-in command that is run. -/
  builtin : Option String := none
  /-- The process of the script, also for parts of it that have processes of their own. -/
  root : Nat := 0
  /-- The jobs of the shell, the newest first. -/
  jobs : List Job := []
  /-- The last process that was put into the background. -/
  lastJob : Option Nat := none
  /-- The texts that stand behind lines, by number. -/
  inputs : List (Nat × Word) := []
  nextInput : Nat := 0
  /-- The permissions that new files do not get. -/
  mask : Nat := 18
  /-- What is limited, by letters: the limit that holds, and the one that it may be raised to. -/
  limits : List (Char × Option Nat × Option Nat) := []
  /-- The number of the next word of options, and how much of the one before was read. -/
  optionNext : Nat := 1
  optionOffset : Option Nat := none
  /-- The commands whose programs were found. -/
  found : List String := []
  /-- The status that the script had when what is done at a signal or at the end was begun. -/
  interrupted : Option Nat := none
  /-- Something that the command printed could not be written. -/
  hasLostOutput : Bool := false
  /-- The trace of a command is being written. -/
  isTracing : Bool := false

namespace ShellState

/-- The variables of a shell that programs get. -/
def environment (s : ShellState) : NameMap String := s.vars.filter fun v => s.exported.contains v.1

def dirPath (s : ShellState) : String := s.ownPath.getD (pathOf s.cwd)

/-- Signals that are ignored stay so in other shells; what else is done at signals does not. -/
def ignoredTraps (s : ShellState) : List (String × String) :=
  s.traps.filter fun t => t.2.isEmpty && t.1 != "EXIT"

/-- The shell of a part of the script in a process of its own. In the background, keys do
not interrupt it. -/
def apart (inBackground : Bool) (s : ShellState) : ShellState :=
  let keys := if inBackground then ["INT", "QUIT"] else []
  { s with
    traps := keys.map (·, "") ++ s.ignoredTraps.filter fun t => !keys.contains t.1
    jobs := [] }

end ShellState

/-! ## Processes -/

/-- How a process ended. -/
inductive Exit where
  | status (n : Nat)
  | signal (n : Nat)
  deriving DecidableEq, Repr

/-- The status that a shell gives to a process that ended. -/
def Exit.code : Exit → Nat
  | status n => n % 256
  | signal n => 128 + n

/-- What a new process does. -/
inductive Work where
  /-- It runs a command of its script, in the background or not. -/
  | command (inBackground : Bool) (c : Command)
  /-- It runs the program at a place that a path led to. -/
  | program (place : List String) (path : String) (argv : List String)

/-- A process. -/
structure Member where
  parent : Nat
  shell : ShellState
  ending : Option Exit := none
  /-- Its parent has waited since it ended. -/
  isGone : Bool := false
  isStopped : Bool := false
  /-- Signals that are waiting for their traps. -/
  signals : List Nat := []

/-- A machine. -/
structure Machine where
  files : FileTree
  /-- When files were changed, by their places. -/
  changes : List (List String × Nat) := []
  time : Nat := 0
  /-- The programs that are no scripts, with their places. -/
  programs : List (List String × SystemProgram) := []
  streams : Array Stream := #[]
  members : List (Nat × Member) := []
  /-- The process whose turn it is. -/
  current : Nat := 0
  nextId : Nat := 4242
  /-- New processes that had no turn yet. -/
  starting : List (Nat × Work) := []
  /-- The pipes that are read from outside. -/
  outlets : List Nat := []

namespace Machine

/-- A process. -/
def member? (m : Machine) (id : Nat) : Option Member := m.members.lookup id

def changeMember (id : Nat) (f : Member → Member) (m : Machine) : Machine :=
  { m with members := m.members.map fun x => if x.1 == id then (x.1, f x.2) else x }

def shell (m : Machine) : ShellState := ((m.member? m.current).map (·.shell)).getD {}

/-- How a process ended; one that is not known ended somehow. -/
def ending? (m : Machine) (id : Nat) : Option Exit :=
  match m.member? id with
  | some x => x.ending
  | none => some (.status 127)

def bound? (m : Machine) (descriptor : Nat) : Option Nat := m.shell.bindings.lookup descriptor

/-- A process that has not ended holds a stream. -/
def isHeld (m : Machine) (holds : Nat → Bool) : Bool :=
  m.members.any fun x =>
    x.2.ending.isNone &&
      (x.2.shell.bindings.any (fun b => holds b.2) || x.2.shell.aside.any holds)

/-- The stream leads into a pipe. -/
def leadsTo (m : Machine) (pipe stream : Nat) : Bool :=
  match m.streams[stream]? with
  | some (.inlet p) => p == pipe
  | _ => false

/-- More may be written to a pipe. -/
def isFed (m : Machine) (pipe : Nat) : Bool := m.isHeld (m.leadsTo pipe)

/-- What is written to a pipe may be read. -/
def isHeard (m : Machine) (pipe : Nat) : Bool := m.outlets.contains pipe || m.isHeld (· == pipe)

def inPipe (m : Machine) (pipe : Nat) : ByteArray :=
  match m.streams[pipe]? with
  | some (.pipe bytes) => bytes
  | _ => ByteArray.empty

/-- A file or directory has been changed. -/
def noteChange (place : List String) (m : Machine) : Machine :=
  { m with changes := (place, m.time) :: m.changes.filter (·.1 != place) }

/-- The time between two changes that can be told apart. -/
def changeSpan : Nat := 4000

/-- When a file was changed, as far as that can be told apart from other changes. -/
def changed (m : Machine) (place : List String) : Nat :=
  (((m.changes.lookup place).getD 0) + changeSpan - 1) / changeSpan

def setStream (n : Nat) (s : Stream) (m : Machine) : Machine :=
  { m with streams := m.streams.setIfInBounds n s }

/-! ## Signals -/

/-- What a process does at a signal, if its script says so. -/
def trap? (m : Machine) (signal id : Nat) : Option String :=
  if signal == 9 || signal == 19 then none
  else (m.member? id).bind fun x => x.shell.traps.lookup (signalName signal)

/-- A process has to attend to a signal. However often it came, that is done once. -/
def remind (signal id : Nat) : Machine → Machine :=
  changeMember id fun x => { x with signals := signal :: x.signals.filter (· != signal) }

/-- Ends a process. Its parent may have something to do at that. -/
def endMember (id : Nat) (e : Exit) (m : Machine) : Machine :=
  let parent := ((m.member? id).map (·.parent)).getD 0
  let m := m.changeMember id fun x => { x with ending := some e }
  if (m.trap? 17 parent).all (· == "") then m else m.remind 17 parent

def isAlive (m : Machine) (id : Nat) : Bool := (m.member? id).any fun x => x.ending.isNone

/-- A process receives a signal: what its shell does at it, or what signals do by themselves. -/
def deliver (signal id : Nat) (m : Machine) : Machine :=
  if !m.isAlive id then m
  else
    match m.trap? signal id with
    | some "" => m
    | some _ => m.remind signal id
    | none =>
      match signalEffect signal with
      | .nothing =>
        if signal == 18 then m.changeMember id fun x => { x with isStopped := false } else m
      | .stops => m.changeMember id fun x => { x with isStopped := true }
      | .kills => m.endMember id (.signal signal)

/-- A parent has waited since a process ended. -/
def isGone (m : Machine) (id : Nat) : Bool := (m.member? id).all fun x => x.isGone

/-- The processes that have ended are gone for a parent that has waited. -/
def collect (parent : Nat) (m : Machine) : Machine :=
  { m with members := m.members.map fun x =>
      if x.2.parent == parent && x.2.ending.isSome then (x.1, { x.2 with isGone := true }) else x }

/-- Forgets the processes that have ended and whose parents have too. -/
def forgetOrphans (m : Machine) : Machine :=
  { m with members := m.members.filter fun x =>
      x.2.ending.isNone || x.2.parent == 0 || (m.member? x.2.parent).any fun p => p.ending.isNone }

def forget (id : Nat) (m : Machine) : Machine :=
  { m with members := m.members.filter (·.1 != id) }

end Machine

/-! ## Control -/

/-- How a script goes on after something other than success or failure. -/
inductive Flow where
  /-- It ends with its status. -/
  | exit
  /-- A command failed in a way that ends the script, unless it is a usual built-in command. -/
  | failed
  /-- A function or a script that was read in ends. -/
  | leave
  | breaks (loops : Nat)
  | continues (loops : Nat)
  deriving DecidableEq, Repr

/-- What a process does on a machine. Time is counted in millionths of a second. -/
abbrev Sh := ExceptT Flow (Course Machine)

namespace Sh

variable {α : Type}

def machine : Sh Machine := ExceptT.lift Course.get

def changeMachine (f : Machine → Machine) : Sh Unit := ExceptT.lift (Course.modify f)

def shell : Sh ShellState := do return (← machine).shell

def change (f : ShellState → ShellState) : Sh Unit :=
  changeMachine fun m => m.changeMember m.current fun x => { x with shell := f x.shell }

def setStatus (n : Nat) : Sh Unit := change fun s => { s with status := n }

def setTruth (b : Bool) : Sh Unit := setStatus (if b then 0 else 1)

/-- Ends the script with a status. -/
def exit (n : Nat) : Sh α := do
  setStatus n
  throw .exit

/-- Runs something and answers how it went on. -/
def caught (x : Sh α) : Sh (Except Flow α) := ExceptT.mk do return .ok (← x.run)

/-- Runs something, and something else behind it however it went on. -/
def ensuring (x : Sh α) (after : Sh Unit) : Sh α := do
  let r ← caught x
  after
  match r with
  | .ok a => return a
  | .error f => throw f

/-! ## Waiting -/

def pause (span : Nat) : Sh Unit := ExceptT.lift (Course.pause span)

def awaitMachine (ready : Machine → Bool) : Sh Unit := ExceptT.lift (Course.awaitState ready)

def hang : Sh α := ExceptT.lift Course.hang

def endWith (e : Exit) : Sh α := do
  changeMachine fun m => m.endMember m.current e
  hang

/-- Goes no further if the process has been killed or stopped. -/
def obey : Sh Unit := do
  let m ← machine
  match m.member? m.current with
  | some x =>
    if x.ending.isSome then hang
    else if x.isStopped then
      awaitMachine fun n => (n.member? m.current).any fun x => !x.isStopped
  | none => hang

def receive (signal : Nat) : Sh Unit := do
  changeMachine fun m => m.deliver signal m.current
  obey

/-! ## New processes -/

/-- Starts a process with a shell of its own, and answers its id. What is done at signals changes
when the process has its first turn. -/
def fork (setUp : ShellState → ShellState) (w : Work) : Sh Nat := do
  let m ← machine
  let id := m.nextId
  changeMachine fun m =>
    { m with
      nextId := id + 1
      members := m.members ++ [(id, { parent := m.current, shell := setUp m.shell })]
      starting := m.starting ++ [(id, w)] }
  return id

/-- Waits until a process has ended, and answers how. -/
def awaitMember (id : Nat) : Sh Exit := do
  awaitMachine fun m => (m.ending? id).isSome
  let m ← machine
  changeMachine fun m => m.collect m.current
  return (m.ending? id).getD (.status 127)

/-! ## Streams -/

/-- Adds a stream and answers its number. -/
def newStream (s : Stream) : Sh Nat := do
  let m ← machine
  changeMachine fun m => { m with streams := m.streams.push s }
  return m.streams.size

/-- Adds a pipe, and answers it and its inlet. -/
def newPipe : Sh (Nat × Nat) := do
  let pipe ← newStream (.pipe ByteArray.empty)
  let inlet ← newStream (.inlet pipe)
  return (pipe, inlet)

/-- Writes bytes into a pipe; answers whether that could be done. A pipe that is full is waited for,
and who writes to a pipe that nobody listens to receives a signal. -/
def writePipe (pipe : Nat) : Nat → ByteArray → Sh Bool
  | 0, _ => hang
  | fuel + 1, bytes => do
    if bytes.isEmpty then return true
    else
      let m ← machine
      if !m.isHeard pipe then
        receive 13
        return false
      else
        let old := m.inPipe pipe
        let n := min bytes.size (pipeCapacity - old.size)
        changeMachine (Machine.setStream pipe (.pipe (old ++ bytes.extract 0 n)))
        if n < bytes.size then
          awaitMachine fun m => !m.isHeard pipe || (m.inPipe pipe).size < pipeCapacity
          writePipe pipe fuel (bytes.extract n bytes.size)
        else return true

/-- Bytes written over others from an offset on. -/
def overwritten (old : ByteArray) (offset : Nat) (bytes : ByteArray) : ByteArray :=
  let gap := List.replicate (offset - old.size) (0 : UInt8)
  old.extract 0 offset ++ ⟨gap.toArray⟩ ++ bytes ++ old.extract (offset + bytes.size) old.size

/-- The machine after bytes were written to a file. -/
def writeFile (n : Nat) (place : List String) (mode : OpenMode) (offset : Nat) (bytes : ByteArray)
    (m : Machine) : Machine :=
  let old := match m.files.find? place with
    | some (.file old _) => old
    | _ => ByteArray.empty
  let offset := if mode == .append then old.size else offset
  match m.files.writeAt place (overwritten old offset bytes) with
  | .ok files =>
    ({ m with files }.setStream n (.file place mode (offset + bytes.size))).noteChange place
  | .error _ => m

/-- Writes bytes to a stream; answers whether that could be done. -/
def writeStream (n : Nat) (bytes : ByteArray) : Sh Bool := do
  match (← machine).streams[n]? with
  | some (.inlet pipe) => writePipe pipe (bytes.size + 1) bytes
  | some (.file place mode offset) =>
    if mode == .read then return false
    else
      changeMachine (writeFile n place mode offset bytes)
      return true
  | some .nowhere => return true
  | _ => return false

/-- Writes bytes to a descriptor; answers whether that could be done. -/
def writeBytes (descriptor : Nat) (bytes : List UInt8) : Sh Bool := do
  match (← machine).bound? descriptor with
  | some n => writeStream n ⟨bytes.toArray⟩
  | none => return bytes.isEmpty

/-- Writes a text to a descriptor; answers whether that could be done. -/
def write (descriptor : Nat) (text : String) : Sh Bool := writeBytes descriptor (Text.toBytes text)

def printBytes (bytes : List UInt8) : Sh Unit := do
  if !(← writeBytes 1 bytes) then change fun s => { s with hasLostOutput := true }

/-- Prints a text as the output of the command that is run. -/
def print (text : String) : Sh Unit := printBytes (Text.toBytes text)

/-- Writes a text about a failure. -/
def note (text : String) : Sh Unit := do
  let _ ← write 2 text

/-- Writes a line about a failure, behind the script, the line and the command that it is about. -/
def complain (text : String) : Sh Unit := do
  let s ← shell
  let about := s.zero ++ ": " ++ toString s.line ++ ": " ++
    (match s.builtin with
      | some name => name ++ ": "
      | none => "")
  note (about ++ text ++ "\n")

/-- A failure that ends the script, unless it is one of a usual built-in command. -/
def failWith (status : Nat) (text : String) : Sh α := do
  complain text
  setStatus status
  throw .failed

/-- A failure with the usual status. -/
def fail (text : String) : Sh α := failWith 2 text

/-! ## Reading -/

/-- What may be read from a stream. -/
inductive Source where
  | bytes (bs : ByteArray)
  /-- There is nothing to read, and there never will be. -/
  | empty
  | unreadable (why : FileError)

/-- What may be read from a stream now; nothing if that has to be waited for. -/
def source? (n : Nat) (m : Machine) : Option Source :=
  let held := fun bs : ByteArray => some (if bs.isEmpty then Source.empty else .bytes bs)
  match m.streams[n]? with
  | some (.pipe bytes) => if bytes.isEmpty && m.isFed n then none else held bytes
  | some (.file place mode offset) =>
    if mode == .write || mode == .overwrite || mode == .append then
      some (.unreadable (.stated "Bad file descriptor"))
    else
      match m.files.find? place with
      | some (.file bytes _) => held (bytes.extract offset bytes.size)
      | _ => some .empty
  | some .directory => some (.unreadable .isDirectory)
  | some .nowhere => some .empty
  | some (.inlet _) | none => some (.unreadable (.stated "Bad file descriptor"))

/-- Takes the first bytes of what may be read from a stream. -/
def dropFront (n k : Nat) (m : Machine) : Machine :=
  match m.streams[n]? with
  | some (.pipe bytes) => m.setStream n (.pipe (bytes.extract k bytes.size))
  | some (.file place mode offset) => m.setStream n (.file place mode (offset + k))
  | _ => m

/-- The process has signals to attend to. -/
def hasSignals (id : Nat) (m : Machine) : Bool := (m.member? id).any fun x => !x.signals.isEmpty

/-- Waits for something to read; nothing if signals have to be attended to first. -/
def awaitSource (n : Nat) : Sh (Option Source) := do
  let id := (← machine).current
  awaitMachine fun m => (source? n m).isSome || hasSignals id m
  return source? n (← machine)

/-! ## Variables -/

/-- Options of the script are read from a word on. -/
def restartOptions (value : String) : Sh Unit :=
  match countOf? value with
  | some n => change fun s => { s with optionNext := max 1 n, optionOffset := none }
  | none => fail ("Illegal number: " ++ value)

def assign (name value : String) : Sh Unit := do
  let s ← shell
  if !isName name then fail (name ++ ": bad variable name")
  else if s.fixed.contains name then fail (name ++ ": is read only")
  else
    change fun s =>
      { s with
        vars := s.vars.insert name value
        exported :=
          if s.options.has 'a' && !s.exported.contains name then name :: s.exported else s.exported
        found := if name == "PATH" then [] else s.found }
    if name == "OPTIND" then restartOptions value

/-- Marks a variable for programs. -/
def exportName (name : String) : Sh Unit :=
  change fun s =>
    { s with exported := if s.exported.contains name then s.exported else name :: s.exported }

end Sh

end Stagehand.Shell

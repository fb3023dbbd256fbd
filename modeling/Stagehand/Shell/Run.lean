import Stagehand.Shell.Lookup
import Stagehand.Shell.Scope
import Stagehand.Shell.Source
import Stagehand.Shell.SystemProgram

/-!
# Running scripts

What processes do: scripts, and the few programs that are none. A script that has used up its fuel
counts as one that never ends.

Parts of a script that may go on beside it have processes of their own: programs, commands in
brackets or in the background, the stages of a pipeline, and scripts whose output is taken. The last
command of such a process is run in its place.

Signals that are trapped are attended to after the command that was run when they came.
-/

namespace Stagehand.Shell

open Sh

/-! ## Costs -/

/-- The time that it takes to start a program. -/
def startSpan : Nat := 1000

/-- The time that a round of a loop takes. -/
def roundSpan : Nat := 10

/-! ## Texts -/

/-- The text of an output: without zero bytes, and without the line ends behind it. -/
def outputText (bytes : ByteArray) : String :=
  let cs := (Text.ofBytes bytes.toList).toList.filter (· != '\x00')
  String.ofList (cs.reverse.dropWhile (· == '\n')).reverse

/-- A text of a word with tildes replaced by directories. A tilde stands at the start of the word
or, if `colons`, behind a colon; `closed` tells that the word ends with the text. -/
def tildeParts (home? : List Char → Option (List Char)) (colons starts closed : Bool)
    (cs : List Char) :
    List Part :=
  let pieces := if colons then Text.pieces (· == ':') cs else [cs]
  let last := pieces.length - 1
  let shown := pieces.mapIdx fun i piece =>
    let colon : List Part := if i == 0 then [] else [.text [':'] false]
    match piece with
    | '~' :: rest =>
      let name := rest.takeWhile (· != '/')
      let tail := rest.drop name.length
      match
        if (starts || i != 0) && (!tail.isEmpty || i != last || closed) then home? name else none
      with
      | some home => colon ++ [.text home true, .text tail false]
      | none => colon ++ [.text piece false]
    | _ => colon ++ [.text piece false]
  shown.flatten

/-- A word with tildes replaced by directories. -/
def expandTildes (s : ShellState) (colons starts : Bool) : Word → Word
  | [] => []
  | .text cs false :: rest =>
    let home? := fun name : List Char =>
      if name.isEmpty then (s.vars.get? "HOME").map String.toList
      else if name == "root".toList then some "/root".toList
      else none
    (if cs.contains '~' then tildeParts home? colons starts rest.isEmpty cs
      else [.text cs false]) ++ (if colons then expandTildes s colons false rest else rest)
  | p :: rest => p :: (if colons then expandTildes s colons false rest else rest)

/-- What a program that cannot be started is told by, and the status of that. -/
def launchFault : FileError → Nat × String
  | .missing | .notDirectory => (127, "not found")
  | .denied => (126, "Permission denied")
  | e => (127, refusal "not found" e)

/-- The program at a place can be run: it has an interpreter, or needs none. -/
def requireInterpreter (m : Machine) (place : List String) : Except FileError Unit :=
  if (m.programs.lookup place).isSome then .ok ()
  else
    match m.files.find? place with
    | some (.file bytes _) =>
      match interpreter? (Text.ofBytes bytes.toList) with
      | some (program, _) => (programAt m m.shell.cwd program).map fun _ => ()
      | none => .error .badFormat
    | _ => .error .denied

/-- Some words are those of a command whose other words may assign. -/
def isAssigning : List String → Bool
  | "command" :: rest => isAssigning rest
  | name :: _ => assigningBuiltins.contains name
  | [] => false

/-! ## Scripts that are read while they run -/

/-- Where a script comes from. -/
inductive Origin where
  /-- All of it is there. -/
  | text
  /-- It is read from a stream, or from the input of the script. -/
  | stream (n : Option Nat)
  /-- It was read to its end. -/
  | ended

/-- The script is shown as it is read, if that is asked for. -/
def Origin.isShown : Origin → Bool
  | text => false
  | _ => true

/-- The origin of a script after its end was reached. -/
def Origin.afterEnd : Origin → Origin
  | text => text
  | _ => ended

/-- The bytes of a script that are read at once. -/
def scriptBlock : Nat := 8192

def readMore : Origin → Sh (Option (List Char))
  | .stream n => do
    match n.or ((← machine).bound? 0) with
    | none => return none
    | some n =>
      awaitMachine fun m => (source? n m).isSome
      match source? n (← machine) with
      | some (.bytes bs) =>
        let bs := bs.extract 0 scriptBlock
        changeMachine (dropFront n bs.size)
        return some ((Text.ofBytes bs.toList).toList.filter (· != '\x00'))
      | _ => return none
  | _ => return none

/-- What was read of a script: the lines up to a fault, or what is not left. -/
def readPart (p : Pending) : Except SyntaxFault (Option (List Command) × Pending) → List Char
  | .error f =>
    let lines := Text.pieces (· == '\n') p.left
    let read := lines.take (f.line + 1 - p.line)
    List.intercalate ['\n'] (if read.length < lines.length then read ++ [[]] else read)
  | .ok (_, q) => p.left.take (p.left.length - q.left.length)

/-! ## Scripts -/

mutual

/-- Expands the parts of a word; text between them splits into fields if `splits`. -/
def expand (splits : Bool) : Nat → Word → Sh (List Mark)
  | 0, _ => hang
  | _ + 1, [] => return []
  | fuel + 1, p :: rest => do
    let ms ← expandPart splits fuel p
    return ms ++ (← expand splits fuel rest)

def expandPart (splits : Bool) : Nat → Part → Sh (List Mark)
  | 0, _ => hang
  | fuel + 1, p => do
    match p with
    | .text cs true => return quotedMarks cs
    | .text cs false => return cs.map fun c => .char c false splits
    | .output c quoted => return marksOf quoted (← outputOf fuel c)
    | .arithmetic operand quoted => do
      let text ← expand false fuel operand
      return marksOf quoted (toString (← arithmetic (markedText text)))
    | .parameter name use operand quoted => do
      let s ← shell
      let value := s.parameter? name
      let isEmpty := (value.getD []).all (· == "")
      let shown := match value with
        | some vs => parameterMarks s name quoted vs
        | none => if quoted && name != "@" then [.present] else []
      let has := fun emptyToo : Bool => value.isSome && !(emptyToo && isEmpty)
      let single := Text.joinWith " " (value.getD [])
      let isMissing := value.isNone && s.options.has 'u' && name != "@" && name != "*"
      match use with
      | .value => if isMissing then fail (name ++ ": parameter not set") else return shown
      | .length =>
        if isMissing then fail (name ++ ": parameter not set")
        else return marksOf quoted (toString single.length)
      | .orElse emptyToo => if has emptyToo then return shown else expand (!quoted) fuel operand
      | .orAssign emptyToo =>
        if has emptyToo then return shown
        else
          let text := String.ofList (markedText (← expand false fuel operand))
          assign name text
          return marksOf quoted text
      | .orFail emptyToo =>
        if has emptyToo then return shown
        else
          let text := String.ofList (markedText (← expand false fuel operand))
          let usual := "parameter not set" ++ (if emptyToo then " or null" else "")
          fail (name ++ ": " ++ (if operand.isEmpty then usual else text))
      | .insteadOf emptyToo =>
        if has emptyToo then expand (!quoted) fuel operand
        else return if quoted then [.present] else []
      | .withoutStart longest => do
        let pattern := markedPattern (← expand false fuel operand)
        return marksOf quoted (String.ofList (pattern.dropStart longest single.toList))
      | .withoutEnd longest => do
        let pattern := markedPattern (← expand false fuel operand)
        return marksOf quoted (String.ofList (pattern.dropEnd longest single.toList))
      | .unknown => fail "Bad substitution"
where
  /-- The value of an arithmetic expression. -/
  arithmetic (cs : List Char) : Sh Int := do
    let about := fun why : String =>
      "arithmetic expression: " ++ why ++ ": \"" ++ String.ofList cs ++ "\""
    match Expr.ofText cs with
    | .error lacking => fail (about ("expecting " ++ lacking.name))
    | .ok e =>
      match e.eval (← shell).vars [] with
      | .ok (n, given) =>
        given.reverse.forM fun v => assign v.1 v.2
        return n
      | .error .divisionByZero => fail (about "division by zero")
      | .error (.notNumber text) => fail ("Illegal number: " ++ text)

/-- The text of a word that is not split. -/
def wordText (colons : Bool) : Nat → Word → Sh String
  | 0, _ => hang
  | fuel + 1, w => do
    let w := expandTildes (← shell) colons true w
    return String.ofList (markedText (← expand false fuel w))

/-- The fields of words; `seen` are those in front. -/
def wordFields : Nat → List String → List Word → Sh (List String)
  | 0, _, _ => hang
  | _ + 1, seen, [] => return seen
  | fuel + 1, seen, w :: rest => do
    let s ← shell
    if isAssigning seen && (assignment? w).isSome then
      wordFields fuel (seen ++ [← wordText true fuel w]) rest
    else
      let ms ← expand false fuel (expandTildes s false true w)
      wordFields fuel (seen ++ fieldsOf (← machine) ms) rest

def outputOf : Nat → Command → Sh String
  | 0, _ => hang
  | fuel + 1, c => do
    let (pipe, inlet) ← newPipe
    takePlace
    let id ← fork (fun s => { s with bindings := (1, inlet) :: s.bindings.filter (·.1 != 1) })
      (.command false c)
    change fun s => { s with aside := pipe :: s.aside }
    let bytes ← readAll pipe fuel ByteArray.empty
    change fun s => { s with aside := s.aside.erase pipe }
    let e ← awaitMember id
    reportEnd false e
    change fun s => { s with outputStatus := some e.code }
    return outputText bytes

def readAll (stream : Nat) : Nat → ByteArray → Sh ByteArray
  | 0, _ => hang
  | fuel + 1, seen => do
    awaitMachine fun m => (source? stream m).isSome
    match source? stream (← machine) with
    | some (.bytes bs) =>
      changeMachine (dropFront stream bs.size)
      readAll stream fuel (seen ++ bs)
    | _ => return seen

/-- Runs what is left of a script. -/
def runPending (a : Manner) (origin : Origin) : Nat → Bool → Pending → Sh Unit
  | 0, _, _ => hang
  | fuel + 1, hasRun, p => do
    let result := p.next
    let mayGoOn := match result with
      | .error f => f.atEnd
      | .ok (_, q) => q.sawEnd
    let more? ← if mayGoOn then readMore origin else pure none
    match more? with
    | some more => runPending a origin fuel hasRun (p.extended more)
    | none =>
      let origin := if mayGoOn then origin.afterEnd else origin
      if origin.isShown && (← shell).options.has 'v' then
        note (String.ofList (readPart p result))
      match result with
      | .error f =>
        change fun s => { s with line := f.line }
        fail ("Syntax error: " ++ f.reason)
      | .ok (none, _) => if !hasRun then setStatus 0
      | .ok (some cs, p) =>
        change fun s => { s with inputs := p.inputs ++ s.inputs, nextInput := p.nextInput }
        if !cs.isEmpty then runCommand (if p.atEnd then a else a.notLast) fuel (Command.ofList cs)
        let s ← shell
        runPending a origin fuel (hasRun || !cs.isEmpty)
          { p with inputs := [], aliases := s.aliases, nextInput := s.nextInput, sawEnd := false }

def runText (a : Manner) : Nat → String → Sh Unit
  | 0, _ => hang
  | fuel + 1, source => do
    let s ← shell
    runPending a .text fuel false (Pending.ofText source s.aliases s.nextInput)

/-- Runs a script that is read while it runs. -/
def runStream : Nat → Option Nat → Sh Unit
  | 0, _ => hang
  | fuel + 1, stream => do
    let s ← shell
    runPending {} (.stream stream) fuel false (Pending.ofText "" s.aliases s.nextInput)

/-- Does what is to be done at the signals that came. -/
def attend : Nat → Sh Unit
  | 0 => hang
  | fuel + 1 => do
    obey
    let m ← machine
    match (m.member? m.current).bind fun x => x.signals.min? with
    | none => return ()
    | some signal =>
      changeMachine fun m => m.changeMember m.current fun x =>
        { x with signals := x.signals.filter (· != signal) }
      let s ← shell
      match s.traps.lookup (signalName signal) with
      | some action =>
        change fun t => { t with interrupted := some s.status }
        ensuring (runText {} fuel action) (change fun t => { t with interrupted := s.interrupted })
        setStatus s.status
      | none => return ()
      attend fuel

/-- Runs commands one after the other. -/
def runList (a : Manner) : Nat → List Command → Sh Unit
  | 0, _ => hang
  | _ + 1, [] => return ()
  | fuel + 1, [c] => runCommand a fuel c
  | fuel + 1, c :: rest => do
    runCommand a.notLast fuel c
    runList a fuel rest

def runCommand (a : Manner) : Nat → Command → Sh Unit
  | 0, _ => hang
  | fuel + 1, c => do
    if (← shell).options.has 'n' then return ()
    match c with
    | .simple line as ws rs =>
      change fun s => { s with line, outputStatus := none }
      runSimple a fuel as ws rs
      attend fuel
      stopIfFailed a
    | .redirected line c rs => do
      change fun s => { s with line }
      redirecting fuel rs false do runCommand a.notLast fuel c
      attend fuel
      stopIfFailed a
    | .pipeline cs => do
      takePlace
      let ids ← startStages false none fuel cs
      let ends ← ids.mapM awaitMember
      ends.forM (reportEnd false)
      setStatus ((ends.getLast?.map Exit.code).getD 0)
      attend fuel
      stopIfFailed a
    | .negated c => do
      runCommand Manner.tested fuel c
      setTruth ((← shell).status != 0)
    | .andThen c d => do
      runCommand Manner.tested fuel c
      if (← shell).status == 0 then runCommand a fuel d
    | .orElse c d => do
      runCommand Manner.tested fuel c
      if (← shell).status != 0 then runCommand a fuel d
    | .list [] => setStatus 0
    | .list cs => runList a fuel cs
    | .background c => do
      let ids ← match c with
        | .pipeline cs => startStages true none fuel cs
        | c => startStages true none fuel [c]
      addJob ids
      setStatus 0
    | .subshell line c rs => do
      change fun s => { s with line }
      let c := if rs.isEmpty then c else .redirected line c rs
      if a.isLast && (← shell).traps.isEmpty then runCommand a fuel c
      else
        takePlace
        let e ← awaitMember (← fork id (.command false c))
        reportEnd false e
        setStatus e.code
      attend fuel
      stopIfFailed a
    | .branch test yes no => do
      runCommand Manner.tested fuel test
      if (← shell).status == 0 then runCommand a fuel yes else runCommand a fuel no
    | .loop onSuccess test body => runLoop a onSuccess test body fuel 0
    | .each line name words body => do
      change fun s => { s with line }
      let fields ← match words with
        | some ws => wordFields fuel [] ws
        | none => do pure (← shell).params
      setStatus 0
      runEach a name body fuel fields
    | .select line subject arms => do
      change fun s => { s with line }
      let text ← wordText false fuel subject
      runArms a text.toList fuel arms
    | .define name body =>
      change fun s =>
        { s with functions := (name, body) :: s.functions.filter (·.1 != name), status := 0 }

/-- Runs the rounds of a loop; `last` is the status of the round before. -/
def runLoop (a : Manner) (onSuccess : Bool) (test body : Command) : Nat → Nat → Sh Unit
  | 0, _ => hang
  | fuel + 1, last => do
    pause roundSpan
    match ← caught (inLoop (runCommand Manner.tested fuel test)) with
    | .error (.breaks n) => if 1 < n then throw (.breaks (n - 1)) else setStatus 0
    | .error (.continues n) =>
      if 1 < n then throw (.continues (n - 1)) else runLoop a onSuccess test body fuel 0
    | .error f => throw f
    | .ok () =>
      if ((← shell).status == 0) == onSuccess then
        match ← caught (inLoop (runCommand a.notLast fuel body)) with
        | .ok () => runLoop a onSuccess test body fuel (← shell).status
        | .error (.breaks n) => if 1 < n then throw (.breaks (n - 1)) else setStatus 0
        | .error (.continues n) =>
          if 1 < n then throw (.continues (n - 1)) else runLoop a onSuccess test body fuel 0
        | .error f => throw f
      else setStatus last

/-- Runs the rounds of a loop over fields. -/
def runEach (a : Manner) (name : String) (body : Command) : Nat → List String → Sh Unit
  | 0, _ => hang
  | _ + 1, [] => return ()
  | fuel + 1, v :: rest => do
    assign name v
    match ← caught (inLoop (runCommand a.notLast fuel body)) with
    | .ok () => runEach a name body fuel rest
    | .error (.breaks n) => if 1 < n then throw (.breaks (n - 1)) else setStatus 0
    | .error (.continues n) =>
      if 1 < n then throw (.continues (n - 1)) else runEach a name body fuel rest
    | .error f => throw f

/-- Runs the first arm that matches. -/
def runArms (a : Manner) (text : List Char) : Nat → List (List Word × Command) → Sh Unit
  | 0, _ => hang
  | _ + 1, [] => setStatus 0
  | fuel + 1, (patterns, body) :: rest => do
    if ← matchesAny text fuel patterns then runCommand a fuel body else runArms a text fuel rest

def matchesAny (text : List Char) : Nat → List Word → Sh Bool
  | 0, _ => hang
  | _ + 1, [] => return false
  | fuel + 1, w :: rest => do
    let w := expandTildes (← shell) false true w
    let pattern := markedPattern (← expand false fuel w)
    if pattern.matchesText text then return true else matchesAny text fuel rest

/-- Starts the stages of a pipeline, each on the output of the one before, and answers their
processes. In the background the first one has nothing to read, and keys do not interrupt any. -/
def startStages (inBackground : Bool) (input : Option Nat) : Nat → List Command → Sh (List Nat)
  | 0, _ => hang
  | _ + 1, [] => return []
  | fuel + 1, c :: rest => do
    let own ← match input, inBackground with
      | none, true => some <$> newStream .nowhere
      | input, _ => pure input
    let next ← if rest.isEmpty then pure none else some <$> newPipe
    let given := (own.map fun n => (0, n)).toList ++ (next.map fun p => (1, p.2)).toList
    let id ← fork
      (fun s =>
        { s with bindings := given ++ s.bindings.filter fun b => !(given.map (·.1)).contains b.1 })
      (.command inBackground c)
    return id :: (← startStages inBackground (next.map (·.1)) fuel rest)

/-- Goes on with descriptors bound as redirections ask for; `stays` if they are not taken back. If
one cannot be bound that is a failure. -/
def redirecting : Nat → List Redirect → Bool → Sh Unit → Sh Unit
  | 0, _, _, _ => hang
  | fuel + 1, rs, stays, x =>
    match rs, stays with
    | [], _ => x
    | rs, true => do
      if ← redirectAll fuel rs then x else throw .failed
    | rs, false => keepingBindings do
      if ← redirectAll fuel rs then x

/-- Binds descriptors; answers whether all could be bound. -/
def redirectAll : Nat → List Redirect → Sh Bool
  | 0, _ => hang
  | _ + 1, [] => return true
  | fuel + 1, r :: rest => do
    let refuse := fun text : String => do
      complain text
      setStatus 2
      return false
    match r with
    | .file d mode path => do
      let path ← wordText false fuel path
      match ← openFile mode path with
      | .ok n =>
        bind d n
        redirectAll fuel rest
      | .error e =>
        refuse (if mode == .read then "cannot open " ++ path ++ ": " ++ refusal "No such file" e
          else "cannot create " ++ path ++ ": " ++ refusal "Directory nonexistent" e)
    | .same d other => do
      let other ← wordText false fuel other
      if other == "-" then
        change fun s => { s with bindings := s.bindings.filter (·.1 != d) }
        redirectAll fuel rest
      else
        match (countOf? other).filter (· < 10) with
        | none => fail "Syntax error: Bad fd number"
        | some source =>
          match (← shell).bindings.lookup source with
          | some n =>
            bind d n
            redirectAll fuel rest
          | none => refuse (other ++ ": Bad file descriptor")
    | .text d number => do
      let w := ((← shell).inputs.lookup number).getD []
      let text := markedText (← expand false fuel w)
      let n ← newStream (.pipe ⟨(bytesOf text).toArray⟩)
      bind d n
      redirectAll fuel rest

/-- Assigns variables; answers the assignments as they are told. -/
def assignAll : Nat → List (String × Word) → Sh (List String)
  | 0, _ => hang
  | _ + 1, [] => return []
  | fuel + 1, (name, w) :: rest => do
    let v ← wordText true fuel w
    assign name v
    return (name ++ "=" ++ v) :: (← assignAll fuel rest)

/-- Writes a command to the stream of messages if that is asked for. -/
def traceCommand (stream : Option Nat) : Nat → List String → Sh Unit
  | 0, _ => hang
  | fuel + 1, words => do
    let s ← shell
    if s.options.has 'x' && !s.isTracing then
      change fun s => { s with isTracing := true }
      let front ← match (s.vars.get? "PS4").bind inputWord? with
        | some w => do pure (markedText (← expand false fuel w))
        | none => pure []
      change fun s => { s with isTracing := false, status := s.status }
      let line := front ++ (Text.joinWith " " words).toList ++ ['\n']
      match stream with
      | some n =>
        let _ ← writeStream n ⟨(bytesOf line).toArray⟩
      | none => pure ()

def runSimple (a : Manner) : Nat → List (String × Word) → List Word → List Redirect → Sh Unit
  | 0, _, _, _ => hang
  | fuel + 1, as, ws, rs => do
    let stream := (← machine).bound? 2
    let fields ← wordFields fuel [] ws
    match fields with
    | [] =>
      redirecting fuel rs false do
        let told ← assignAll fuel as
        traceCommand stream fuel told
        setStatus ((← shell).outputStatus.getD 0)
    | name :: args => do
      let isSpecial := specialBuiltins.contains name
      let stays := name == "exec" && args.isEmpty
      let before := (← shell).status
      let run := do
        setStatus before
        if isSpecial then
          let told ← assignAll fuel as
          if name == "exec" then as.forM fun x => exportName x.1
          traceCommand stream fuel (told ++ fields)
          runNamed a fuel fields
        else if as.isEmpty then
          traceCommand stream fuel fields
          runNamed a fuel fields
        else
          keepingVariables (as.map (·.1)) do
            let told ← assignAll fuel as
            as.forM fun x => exportName x.1
            traceCommand stream fuel (told ++ fields)
            runNamed a fuel fields
      if isSpecial && !stays then
        keepingBindings do
          if ← redirectAll fuel rs then run else throw .failed
      else redirecting fuel rs stays run

/-- Runs a command by its words. -/
def runNamed (a : Manner) : Nat → List String → Sh Unit
  | 0, _ => hang
  | _ + 1, [] => return ()
  | fuel + 1, name :: args => do
    let isSpecial := specialBuiltins.contains name
    let s ← shell
    match if isSpecial then none else s.functions.lookup name with
    | some body => asFunction args (runCommand { isTested := a.isTested } fuel body)
    | none => runUnnamed a isSpecial fuel (name :: args)

/-- Runs a command that is no function. -/
def runUnnamed (a : Manner) (isSpecial : Bool) : Nat → List String → Sh Unit
  | 0, _ => hang
  | _ + 1, [] => return ()
  | fuel + 1, name :: args => do
    match plainBuiltin? name with
    | some f => containing isSpecial (asBuiltin name (f args))
    | none =>
      match name with
      | "command" =>
        match readOptions "pvV" args with
        | .error e => containing false (asBuiltin name (fail e.message))
        | .ok g =>
          if g.has 'v' || g.has 'V' then
            containing false (asBuiltin name (tellMeanings (g.has 'V') (g.rest.take 1)))
          else if g.rest.isEmpty then setStatus 0
          else runUnnamed a false fuel g.rest
      | "type" => containing isSpecial (asBuiltin name (tellMeanings true args))
      | "hash" => containing isSpecial (asBuiltin name (hashCommand args))
      | "eval" =>
        let text := Text.joinWith " " args
        containing isSpecial (asBuiltin name (runText { isTested := a.isTested } fuel text))
      | "." => containing isSpecial (asBuiltin name (runFile fuel args))
      | "exec" =>
        if args.isEmpty then setStatus 0
        else asBuiltin name (becomeProgram fuel args)
      | _ => launch a fuel name args

/-- Runs the script in a file as a part of this one. -/
def runFile : Nat → List String → Sh Unit
  | 0, _ => hang
  | fuel + 1, args => do
    let g ← needOptions "" args
    match g.rest with
    | [] => setStatus 0
    | name :: _ =>
      let m ← machine
      let s := m.shell
      let isThere := fun path : String => m.files.isFile s.cwd (Text.widen path)
      let path? := if name.toList.contains '/' then some name
        else ((searchPath s).map fun dir => Path.join dir name).find? isThere
      match path? with
      | none => fail (name ++ ": not found")
      | some path =>
        match ← openFile .read path with
        | .error e => fail ("cannot open " ++ path ++ ": " ++ refusal "No such file" e)
        | .ok stream =>
          let run := do
            match ← caught (runStream fuel (some stream)) with
            | .ok () | .error .leave => return ()
            | .error f => throw f
          asBuiltin path run

/-- Runs a program: in a process of its own, or in this one if nothing follows. -/
def launch (a : Manner) : Nat → String → List String → Sh Unit
  | 0, _, _ => hang
  | fuel + 1, name, args => do
    let m ← machine
    match findRunnable m name with
    | .error e =>
      let (status, text) := launchFault e
      complain (name ++ ": " ++ text)
      setStatus status
    | .ok (place, path) =>
      if !name.toList.contains '/' then
        change fun s => { s with found := s.found.filter (· != name) ++ [name] }
      if a.isLast && m.shell.traps.all (·.2.isEmpty) then runProgram fuel place path (name :: args)
      else
        takePlace
        let id ← fork id (.program place path (name :: args))
        let e ← awaitMember id
        reportEnd false e
        setStatus e.code
where
  /-- A program that can be run; a text without an interpreter is a script. -/
  findRunnable (m : Machine) (name : String) : Except FileError (List String × String) := do
    let (place, path) ← findProgram m name
    match requireInterpreter m place with
    | .ok () | .error .badFormat => .ok (place, path)
    | .error e => .error e

/-- Becomes a program that has to be found. -/
def becomeProgram : Nat → List String → Sh Unit
  | 0, _ => hang
  | fuel + 1, argv => do
    let name := argv.headD ""
    match findProgram (← machine) name with
    | .ok (place, path) => runProgram fuel place path argv
    | .error e =>
      let (status, text) := launchFault e
      complain (name ++ ": " ++ text)
      exit status

/-- Runs the program at a place in this process, to the end of both. -/
def runProgram : Nat → List String → String → List String → Sh Unit
  | 0, _, _, _ => hang
  | fuel + 1, place, path, argv => do
    let m ← machine
    match m.programs.lookup place with
    | some p =>
      pause startSpan
      change ShellState.forProgram
      runSystem fuel p argv
    | none =>
      let bytes := match m.files.find? place with
        | some (.file bytes _) => bytes
        | _ => ByteArray.empty
      match interpreter? (Text.ofBytes bytes.toList) with
      | some (program, args) =>
        match programAt m m.shell.cwd program with
        | .ok (place, _) => runProgram fuel place program (program :: args ++ path :: argv.tail)
        | .error _ => endWith (.status 127)
      | none =>
        pause startSpan
        change ShellState.forProgram
        runSystem fuel .shell ("sh" :: path :: argv.tail)

/-- Runs a program that is no script. -/
def runSystem : Nat → SystemProgram → List String → Sh Unit
  | 0, _, _ => hang
  | fuel + 1, program, argv => do
    match program with
    | .sleep => endWith (.status (← runSleep argv.tail))
    | .cat => endWith (.status (← runCat argv.tail))
    | .shell => runShell fuel (argv.headD "sh") argv.tail

def runShell : Nat → String → List String → Sh Unit
  | 0, _, _ => hang
  | fuel + 1, zero, args => do
    let m ← machine
    let parent := ((m.member? m.current).map (·.parent)).getD 0
    let start := fun (zero : String) (w : ShellWords) (params : List String) =>
      change fun s => s.started m.files m.current parent zero w params
    let refuse := fun text : String => do
      start zero { options := {} } []
      change fun s => { s with line := 0 }
      complain text
      endWith (.status 2)
    match readShellWords true (args.length + 1) args { options := {} } with
    | .error e => refuse e
    | .ok w =>
      let words := w.params.getD []
      if w.hasScript then
        match words with
        | [] => refuse "-c requires an argument"
        | source :: rest =>
          start (rest.headD zero) w rest.tail
          runToEnd fuel (runText {} fuel source)
      else
        match if w.options.has 's' then [] else words with
        | [] =>
          start zero w words
          runToEnd fuel (runStream fuel none)
        | path :: params =>
          match ← openFile .read path with
          | .ok stream =>
            start path w params
            runToEnd fuel (runStream fuel (some stream))
          | .error e => refuse ("cannot open " ++ path ++ ": " ++ refusal "No such file" e)

/-- Runs something to the end of the process: what the script does at its end included. -/
def runToEnd : Nat → Sh Unit → Sh Unit
  | 0, _ => hang
  | fuel + 1, x => do
    let _ ← caught x
    let s ← shell
    match s.traps.lookup "EXIT" with
    | none | some "" => pure ()
    | some action =>
      change fun t =>
        { t with traps := t.traps.filter (·.1 != "EXIT"), interrupted := some s.status }
      match ← caught (runText {} fuel action) with
      | .ok () => setStatus s.status
      | .error _ => pure ()
    endWith (.status (← shell).status)

end

/-! ## Processes -/

/-- Bounds the steps of a process; one that takes more counts as one that never ends. -/
def stepBound : Nat := 200000

/-- Begins a process: it has no signals to attend to, and its shell is its own. -/
def beginApart (inBackground : Bool) : Sh Unit :=
  changeMachine fun m => m.changeMember m.current fun x =>
    { x with signals := [], shell := x.shell.apart inBackground }

def Work.run : Work → Sh Unit
  | .command inBackground c => do
    beginApart inBackground
    runToEnd stepBound (runCommand { isLast := true } stepBound c)
  | .program place path argv => do
    beginApart false
    runProgram stepBound place path argv

def Work.routine (w : Work) : Routine Machine := w.run.run.routine

end Stagehand.Shell

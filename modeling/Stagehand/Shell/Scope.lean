import Stagehand.Shell.Machine

/-!
# Scopes

Parts of a script go on with something of their own: bindings of descriptors, one more
loop, a built-in command that is told in messages. What they changed of that is put back
however they went on.
-/

namespace Stagehand.Shell

open Sh

/-- How a command is run. -/
structure Manner where
  /-- Its failure is asked about. -/
  isTested : Bool := false
  /-- Its process has nothing to do behind it. -/
  isLast : Bool := false

namespace Manner

/-- Something follows the command in its process. -/
def notLast (a : Manner) : Manner := { a with isLast := false }

/-- The failure of the command is asked about. -/
def tested : Manner := { isTested := true }

end Manner

/-- A failure ends the script if that is asked for, and the failure was not asked about. -/
def stopIfFailed (a : Manner) : Sh Unit := do
  let s ← shell
  if s.status != 0 && s.options.has 'e' && !a.isTested then throw .exit

def bind (descriptor stream : Nat) : Sh Unit :=
  change fun s =>
    { s with bindings := (descriptor, stream) :: s.bindings.filter (·.1 != descriptor) }

/-- Goes on with the bindings of descriptors as they were before. Meanwhile they are set aside. -/
def keepingBindings (x : Sh Unit) : Sh Unit := do
  let s ← shell
  change fun t => { t with aside := s.bindings.map (·.2) ++ t.aside }
  ensuring x (change fun t => { t with bindings := s.bindings, aside := s.aside })

/-- Goes on inside one more loop. -/
def inLoop (x : Sh Unit) : Sh Unit := do
  change fun s => { s with loops := s.loops + 1 }
  ensuring x (change fun s => { s with loops := s.loops - 1 })

/-- Goes on as a built-in command, which is told in messages. What it could not print
is a failure. -/
def asBuiltin (name : String) (x : Sh Unit) : Sh Unit := do
  let before := (← shell).builtin
  change fun s => { s with builtin := some name, hasLostOutput := false }
  let body := do
    x
    let s ← shell
    if s.hasLostOutput then
      complain (name ++ ": I/O error")
      setStatus (if s.status % 2 == 0 then s.status + 1 else s.status)
  ensuring body (change fun s => { s with builtin := before, hasLostOutput := false })

/-- Goes on; a failure of a usual command ends here. -/
def containing (isSpecial : Bool) (x : Sh Unit) : Sh Unit := do
  match ← caught x with
  | .ok () => return ()
  | .error .failed => if isSpecial then throw .failed else return ()
  | .error f => throw f

/-- Goes on with assignments that are taken back afterwards. -/
def keepingVariables (names : List String) (x : Sh Unit) : Sh Unit := do
  let before ← shell
  ensuring x (change fun s =>
    { s with
      vars := names.foldl
        (fun vars name =>
          match before.vars.get? name with
          | some v => vars.insert name v
          | none => vars.filter (·.1 != name)) s.vars
      exported := s.exported.filter fun n => before.exported.contains n || !names.contains n })

/-- Goes on as a function with some parameters; its local variables end with it. -/
def asFunction (args : List String) (x : Sh Unit) : Sh Unit := do
  let before ← shell
  if 1000 ≤ before.calls then fail "Maximum function recursion depth (1000) reached"
  else
    change fun s =>
      { s with
        params := args, calls := s.calls + 1, loops := 0, hidden := [], hiddenOptions := none
        optionNext := 1, optionOffset := none }
    let body := do
      match ← caught x with
      | .ok () | .error .leave => return ()
      | .error f => throw f
    ensuring body (change fun s =>
      let back := s.hidden.foldl
        (fun (t : ShellState) h =>
          { t with
            vars := (match h.value with
              | some v => t.vars.insert h.name v
              | none => t.vars.filter (·.1 != h.name))
            exported :=
              if h.isExported == t.exported.contains h.name then t.exported
              else if h.isExported then h.name :: t.exported
              else t.exported.filter (· != h.name) }) s
      { back with
        params := before.params, calls := before.calls
        loops := before.loops, hidden := before.hidden
        options := s.hiddenOptions.getD s.options, hiddenOptions := before.hiddenOptions
        optionNext := before.optionNext, optionOffset := before.optionOffset })

end Stagehand.Shell

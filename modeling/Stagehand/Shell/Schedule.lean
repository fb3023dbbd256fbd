import Stagehand.Shell.Run

/-!
# Processes that take turns

The processes of a machine take turns. Of those that need not wait the oldest goes on, until it
waits or ends. Time passes only when all of them wait.
-/

namespace Stagehand.Shell

/-- A machine with what its processes still do. Time is counted in millionths of a second. -/
structure System where
  machine : Machine
  routines : List (Nat × Routine Machine) := []
  time : Nat := 0

namespace System

/-! ## Turns -/

/-- A process has not ended and is not stopped. -/
def isGoing (s : System) (id : Nat) : Bool :=
  (s.machine.member? id).any fun x => x.ending.isNone && !x.isStopped

/-- It is the turn of a process. -/
def mayGoOn (s : System) (x : Nat × Routine Machine) : Bool :=
  s.isGoing x.1 && x.2.isReady s.time s.machine

/-- The machine after the routine of its current process has ended. -/
def concluded (m : Machine) : Routine Machine → Machine
  | .done => if m.isAlive m.current then m.endMember m.current (.status m.shell.status) else m
  | _ => m

/-- The processes that were started join the others, and those that have ended leave. -/
def regrouped (s : System) : System :=
  let joining := s.machine.starting.map fun x => (x.1, x.2.routine)
  let m := Machine.forgetOrphans { s.machine with starting := [] }
  { s with machine := m, routines := (s.routines ++ joining).filter fun x => m.isAlive x.1 }

def turn (id : Nat) (r : Routine Machine) (s : System) : System :=
  let (r, m) := r.turn s.time { s.machine with current := id, time := s.time }
  regrouped { s with
    machine := concluded m r
    routines := s.routines.map fun x => if x.1 == id then (id, r) else x }

/-- Lets processes take turns until all of them wait. -/
def settle : Nat → System → System
  | 0, s => s
  | fuel + 1, s =>
    match s.routines.find? s.mayGoOn with
    | some (id, r) => settle fuel (s.turn id r)
    | none => s

/-- The next time that a process waits for. -/
def wake? (s : System) : Option Nat :=
  ((s.routines.filter fun x => s.isGoing x.1).filterMap (·.2.wake?)).min?

/-! ## Beginnings and ends -/

/-- Starts a program in a new process, and answers its id. -/
def start (shell : ShellState) (place : List String) (path : String) (argv : List String)
    (s : System) :
    Nat × System :=
  let id := s.machine.nextId
  let m := { s.machine with
    nextId := id + 1
    members := s.machine.members ++ [(id, { parent := 0, shell })]
    starting := s.machine.starting ++ [(id, .program place path argv)] }
  (id, regrouped { s with machine := m })

def signal (n id : Nat) (s : System) : System :=
  regrouped { s with machine := s.machine.deliver n id }

end System

end Stagehand.Shell

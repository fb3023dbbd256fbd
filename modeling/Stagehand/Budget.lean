import Stagehand.Config.Backend
import Stagehand.Decimal.Integer

/-!
# Time budgets

A budget allots minutes to the stages of a branch. It is derived once from the duration of the test:
the test gets the duration and a margin, the other stages get fixed allotments that depend on the
backend and on the count of regions.

The budgets of accepted durations are far below 64 bits; a budget with any other numbers is held at
the largest number of 64 bits and never wraps.
-/

namespace Stagehand

open Decimal (satAdd satMul ceilDiv)

/-! ## Allotments -/

/-- What minutes are allotted to. -/
inductive Allocation where
  | testRun
  | runnerProvision
  | logCollect
  | resourceCleanup
  | sendEmail
  deriving DecidableEq, Repr

namespace Allocation

def all : List Allocation := [testRun, runnerProvision, logCollect, resourceCleanup, sendEmail]

def name : Allocation → String
  | testRun => "test_run"
  | runnerProvision => "runner_provision"
  | logCollect => "log_collect"
  | resourceCleanup => "resource_cleanup"
  | sendEmail => "send_email"

end Allocation

/-- Minutes per allotment. -/
structure TimeBudget where
  testRun : Nat
  runnerProvision : Nat
  logCollect : Nat
  resourceCleanup : Nat
  sendEmail : Nat
  deriving DecidableEq, Repr

namespace TimeBudget

def minutes (b : TimeBudget) : Allocation → Nat
  | .testRun => b.testRun
  | .runnerProvision => b.runnerProvision
  | .logCollect => b.logCollect
  | .resourceCleanup => b.resourceCleanup
  | .sendEmail => b.sendEmail

/-- The seconds of one allotment. -/
def limit (b : TimeBudget) (a : Allocation) : Nat := satMul (b.minutes a) 60

/-- Minutes on top of all allotments before a branch is cut off. -/
def branchSlack : Nat := 10

/-- The seconds after which a branch is cut off. -/
def branchLimit (b : TimeBudget) : Nat :=
  let total := (Allocation.all.map b.minutes ++ [branchSlack]).foldl satAdd 0
  satMul total 60

/-- The longest test that is accepted: 90 days, in minutes. -/
def maxDuration : Int := 90 * 24 * 60

/-- The least margin on top of the test's duration. -/
def leastMargin : Nat := 60

/-- The margin's share of the duration, in percent. -/
def marginPercent : Nat := 15

/-- The budget of a test of some minutes, on a backend and in a list of regions. -/
def compute (requested : Int) (backend : Backend) (region : String) : RunResult TimeBudget :=
  if requested ≤ 0 then .error (.configuration (.shortDuration requested))
  else if maxDuration < requested then .error (.configuration (.longDuration requested maxDuration))
  else
    let duration := requested.toNat
    let margin := max (ceilDiv (duration * marginPercent) 100) leastMargin
    let extraRegions := (Text.words region).length - 1
    .ok
      { testRun := duration + margin
        runnerProvision := if backend.isKubernetes then 30 else 20
        logCollect := 70 + extraRegions * 20
        resourceCleanup := if backend.isKubernetes then 60 else 30
        sendEmail := 10 }

end TimeBudget

/-! ## The runner's size -/

inductive RunnerClass where
  | regular
  | longterm
  deriving DecidableEq, Repr

def RunnerClass.name : RunnerClass → String
  | regular => "regular"
  | longterm => "longterm"

/-- The runner that a test needs. -/
structure RunnerSizing where
  cls : RunnerClass
  rootDiskGb : Nat
  /-- Hours before the runner may be taken away. -/
  keepHours : Nat
  deriving DecidableEq, Repr

/-- The runner for a test of some minutes. -/
def RunnerSizing.forDuration (minutes : Nat) : RunnerSizing where
  cls := if 7 * 60 < minutes then .longterm else .regular
  rootDiskGb := if 3 * 24 * 60 < minutes then 120 else 80
  keepHours := satAdd (ceilDiv minutes 60) 6

end Stagehand

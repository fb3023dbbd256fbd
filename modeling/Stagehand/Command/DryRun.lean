import Stagehand.Command.Executor

/-!
# Dry runs

An executor that runs nothing: every command succeeds at once, prints nothing, and is only told of.
-/

namespace Stagehand.DryRun

variable {τ : Type}

/-- An executor that runs nothing and tells `note` each command line. -/
def executor (note : String → τ → τ) : Executor τ where
  simulated := true
  run c _ := do
    Timed.modify fun h => { h with tools := note c.commandLine h.tools }
    return .ok { exitCode := some 0 }

end Stagehand.DryRun

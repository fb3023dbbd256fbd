import Stagehand.Config.Resolve

/-!
# Plans

A plan says what one branch has to do: its axis value, its parameters and its workspace. Workspaces
lie side by side in one directory; each is named for its axis value, with every character that is
not safe in a name replaced.
-/

namespace Stagehand

/-! ## Workspace names -/

/-- Characters that a workspace name may hold. -/
def isNameChar (c : Char) : Bool := c.isAlphanum || c == '.' || c == '-' || c == '_'

/-- Drops the points at both ends. -/
def trimPoints (cs : List Char) : List Char :=
  ((cs.dropWhile (· == '.')).reverse.dropWhile (· == '.')).reverse

def workspaceChars (axis : List Char) : List Char :=
  match trimPoints (axis.map fun c => if isNameChar c then c else '_') with
  | [] => "default".toList
  | cs => cs

def workspaceName (axis : String) : String := String.ofList (workspaceChars axis.toList)

/-! ## Plans -/

/-- What one branch has to do. -/
structure BranchPlan where
  axis : String
  /-- The variable that carries the axis value, if any. -/
  axisVariable : Option String := none
  params : RunParams
  workdir : String
  testId : String

namespace BranchPlan

/-- A plan with its workspace below `root`. -/
def inRoot (axis : String) (params : RunParams) (root testId : String) : BranchPlan where
  axis
  params
  workdir := Path.join root (workspaceName axis)
  testId

/-- The variables handed to every command of the branch. -/
def environment (p : BranchPlan) (c : RunConfiguration) : NameMap String :=
  let env := c.overlay.insert Variable.testId p.testId
  match p.axisVariable with
  | some name => env.insert name p.axis
  | none => env

end BranchPlan

/-- What the steps of a branch have to know about it. -/
structure BranchContext where
  axis : String
  testId : String
  workdir : String
  config : RunConfiguration
  env : NameMap String

def BranchPlan.context (p : BranchPlan) (c : RunConfiguration) : BranchContext :=
  ⟨p.axis, p.testId, p.workdir, c, p.environment c⟩

end Stagehand

import Stagehand.Branch.Plan
import Stagehand.CommandLine.Error
import Stagehand.CommandLine.Options
import Stagehand.Config.Document

/-!
# The command line that runs branches

One branch is planned per axis value, or a single one if no value is given. Parameters come from a
document, with the variables of the environment over it.
-/

namespace Stagehand

open CommandLine (Given Grammar Refusal)

structure PipelineArgs where
  params : Option String
  axes : List String
  axisVariable : String
  workdir : String
  repository : Option String
  reference : Option String
  dryRun : Bool
  summary : Option String
  strict : Bool
  settings : Option String
  logFormat : Option String
  deriving DecidableEq, Repr

namespace PipelineArgs

def grammar : Grammar where
  options :=
    [{ name := "params", kind := .path }, { name := "axis", kind := .text, repeatable := true },
     { name := "axis-var", kind := .text }, { name := "workdir", kind := .path },
     { name := "source", kind := .text }, { name := "ref", kind := .text },
     { name := "dry-run", kind := .flag }, { name := "summary", kind := .path },
     { name := "strict-selectors", kind := .flag }, { name := "config", kind := .path },
     { name := "log-format", kind := .text }]
  wantsCommand := false

/-- The arguments that a command line gives. Axis values are separated by commas. -/
def ofGiven (g : Given) : PipelineArgs where
  params := g.value? "params"
  axes := (g.values "axis").flatMap (Text.split (· == ','))
  axisVariable := (g.value? "axis-var").getD Variable.defaultAxis
  workdir := (g.value? "workdir").getD "hydra-workspaces"
  repository := g.value? "source"
  reference := g.value? "ref"
  dryRun := g.has "dry-run"
  summary := g.value? "summary"
  strict := g.has "strict-selectors"
  settings := g.value? "config"
  logFormat := g.value? "log-format"

/-- Reads the arguments. A reference needs a repository. -/
def parse (args : List String) : Except Refusal PipelineArgs := do
  let g ← grammar.read args
  if g.has "ref" && !g.has "source" then .error .usage else .ok (ofGiven g)

def policy (a : PipelineArgs) : SelectorPolicy := if a.strict then .strict else .firstMatch

end PipelineArgs

/-! ## Plans -/

/-- The parameters of a document, if one is given, with those of variables over them. -/
def loadParams (path : Option String) (vars : List (String × String)) (files : FileTree)
    (cwd : List String) : RunResult RunParams := do
  let base ← match path with
    | some path => RunParams.ofFile path files cwd
    | none => .ok RunParams.none
  .ok (base.overlaidWith (RunParams.ofVariables vars))

/-- The axis value of a run without axis values. -/
def singleAxis : String := "default"

def planOf (params : RunParams) (root : String) (variableName : Option String)
    (axis testId : String) :
    BranchPlan :=
  { BranchPlan.inRoot axis params root testId with axisVariable := variableName }

/-- Plans for axis values, in order; each takes the next test id. -/
def plansOf (params : RunParams) (root variableName : String) :
    List String → List String → List BranchPlan
  | [], _ => []
  | axis :: rest, ids =>
    planOf params root (some variableName) (Text.trim axis) (ids.headD "") ::
      plansOf params root variableName rest ids.tail

/-- The plans that the arguments ask for. -/
def PipelineArgs.plans (a : PipelineArgs) (params : RunParams) (root : String)
    (testIds : List String) : List BranchPlan :=
  if a.axes.isEmpty then [planOf params root none singleAxis (testIds.headD "")]
  else plansOf params root a.axisVariable a.axes testIds

end Stagehand

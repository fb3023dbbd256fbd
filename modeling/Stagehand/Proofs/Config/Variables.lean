import Stagehand.Config.Params
import Stagehand.Proofs.NameMap

/-!
# Parameters read off variables

Variables are read one after the other, and of a name the last value counts. So what a list of
variables carries is read off the map that it makes (`RunParams.ofVariables_eq`): each parameter has
a variable of its own, the two fields of the duration share one, and what carries no parameter is
passed on if it is named like a variable of the tool.
-/

namespace Stagehand

namespace Variable

def carriers : List String :=
  [backend, region, availabilityZone, amiId, version, repo, dockerImage, postBehaviorDb,
    postBehaviorLoader, postBehaviorMonitor, provisionType, testName, testConfig, testDuration,
    emailRecipients]

/-- A variable is passed on if it is named like those of the tool and carries no parameter. -/
def isPassedOn (name : String) : Bool :=
  !carriers.contains name && Text.startsWith stem.toList name.toList

theorem isPassedOn_of_mem {name : String} (h : name ∈ carriers) : isPassedOn name = false := by
  simp [isPassedOn, h]

theorem isPassedOn_of_not_mem {name : String} (h : name ∉ carriers) :
    isPassedOn name = Text.startsWith stem.toList name.toList := by
  simp [isPassedOn, h]

end Variable

open Variable (carriers isPassedOn)

namespace RunParams

/-- The parameters that a map of variables carries. -/
def ofMap (m : NameMap String) : RunParams where
  backend := m.get? Variable.backend
  region := m.get? Variable.region
  availabilityZone := m.get? Variable.availabilityZone
  amiId := m.get? Variable.amiId
  version := m.get? Variable.version
  repo := m.get? Variable.repo
  dockerImage := m.get? Variable.dockerImage
  postBehaviorDb := m.get? Variable.postBehaviorDb
  postBehaviorLoader := m.get? Variable.postBehaviorLoader
  postBehaviorMonitor := m.get? Variable.postBehaviorMonitor
  provisionType := m.get? Variable.provisionType
  testName := m.get? Variable.testName
  testConfig := m.get? Variable.testConfig
  durationMinutes := (m.get? Variable.testDuration).bind fun text =>
    Decimal.parseInt64? (Text.trim text)
  invalidDuration := (m.get? Variable.testDuration).filter fun text =>
    (Decimal.parseInt64? (Text.trim text)).isNone
  emailRecipients := m.get? Variable.emailRecipients
  extraEnv := m.filter fun e => isPassedOn e.1

variable (m : NameMap String) {name : String} (value : String)

theorem get?_extraEnv_ofMap (name : String) :
    (ofMap m).extraEnv.get? name = if isPassedOn name then m.get? name else Option.none :=
  m.get?_filter isPassedOn name

theorem setVariable_testDuration (p : RunParams) (value : String) :
    p.setVariable Variable.testDuration value = p.setDuration value := by
  simp (disch := decide) only [setVariable, if_neg, if_pos]

/-- A variable that carries a parameter sets it, and nothing else. -/
theorem setVariable_ofMap_of_mem (h : name ∈ carriers) :
    (ofMap m).setVariable name value = ofMap (m.insert name value) := by
  have hextra : ((m.insert name value).filter fun e => isPassedOn e.1) =
      m.filter fun e => isPassedOn e.1 := by
    rw [NameMap.filter_insert, Variable.isPassedOn_of_mem h]
    rfl
  by_cases hduration : name = Variable.testDuration
  · subst hduration
    rw [setVariable_testDuration, setDuration]
    simp only [ofMap, NameMap.get?_insert, hextra]
    cases hminutes : Decimal.parseInt64? (Text.trim value) <;>
      simp (disch := decide) [hminutes, if_neg, Option.filter]
  · simp only [carriers, List.mem_cons, List.not_mem_nil, or_false] at h
    rcases h with
      rfl | rfl | rfl | rfl | rfl | rfl | rfl | rfl | rfl | rfl | rfl | rfl | rfl | h | rfl
    case inr.inr.inr.inr.inr.inr.inr.inr.inr.inr.inr.inr.inr.inl => exact absurd h hduration
    all_goals
      simp only [ofMap, NameMap.get?_insert, hextra]
      rfl

/-- A variable that carries no parameter is passed on or ignored. -/
theorem setVariable_ofMap_of_not_mem (h : name ∉ carriers) :
    (ofMap m).setVariable name value = ofMap (m.insert name value) := by
  have hset : (ofMap m).setVariable name value =
      if isPassedOn name then { ofMap m with extraEnv := (ofMap m).extraEnv.insert name value }
      else ofMap m := by
    rw [Variable.isPassedOn_of_not_mem h]
    simp only [carriers, List.mem_cons, List.not_mem_nil, or_false, not_or] at h
    simp only [setVariable, h, if_false]
  have hget : ∀ carrier ∈ carriers, (m.insert name value).get? carrier = m.get? carrier := by
    intro carrier hcarrier
    rw [NameMap.get?_insert, if_neg (ne_of_mem_of_not_mem hcarrier h)]
  have hextra := m.filter_insert isPassedOn name value
  rw [hset]
  simp (disch := decide) only [ofMap, hget, hextra]
  split <;> rfl

theorem setVariable_ofMap (name value : String) :
    (ofMap m).setVariable name value = ofMap (m.insert name value) := by
  by_cases h : name ∈ carriers
  · exact setVariable_ofMap_of_mem m value h
  · exact setVariable_ofMap_of_not_mem m value h

/-- **What variables carry is read off the map that they make.** -/
theorem ofVariables_eq (vars : List (String × String)) :
    ofVariables vars = ofMap (NameMap.ofList vars) := by
  have hfold : ∀ m : NameMap String,
      vars.foldl (fun p v => p.setVariable v.1 v.2) (ofMap m) = ofMap (m.insertAll vars) := by
    induction vars with
    | nil => exact fun _ => rfl
    | cons v vars ih =>
      intro m
      rw [List.foldl_cons, setVariable_ofMap, ih]
      rfl
  exact hfold NameMap.empty

end RunParams

end Stagehand

import Stagehand.Proofs.Dispatch.Secrets

/-!
# What a container is handed

The variables of a container are those of the host and of the command that may travel, the command
before the host. **Each of them is named once among the arguments of the container program, and no
other is** (`Dispatcher.variables_handed_over`). Of a sensitive one the arguments hold the name
alone: its value is in the environment of the program that runs the container, and containers that
differ in such values only have the same arguments.

The arguments are read here the way the container program reads them: options in front of the image,
some of which take the word behind them (`variableWords`).
-/

namespace Stagehand

open Timed

/-! ## Reading the arguments -/

/-- Options of the container program that take the word behind them, without that for variables. -/
def wordOptions : List String := ["-v", "-w", "--group-add"]

/-- The words that name variables, among options of the container program. -/
def variableWords : List String → List String
  | option :: word :: rest =>
    if option = "-e" then word :: variableWords rest
    else if option ∈ wordOptions then variableWords rest
    else variableWords (word :: rest)
  | _ => []

/-- The variable that a word names, with its value behind the first sign of equality if
there is one. -/
def readVariable (word : String) : String × Option String :=
  let name := String.ofList (word.toList.takeWhile (· != '='))
  match word.toList.dropWhile (· != '=') with
  | _ :: value => (name, some (String.ofList value))
  | [] => (name, none)

theorem variableWords_word {option : String} (h : option ∈ wordOptions) (word : String)
    (rest : List String) : variableWords (option :: word :: rest) = variableWords rest := by
  have hne : option ≠ "-e" := by
    rintro rfl
    revert h
    decide
  rw [variableWords, if_neg hne, if_pos h]

theorem variableWords_flag {option : String} (h : option ∉ "-e" :: wordOptions) (word : String)
    (rest : List String) :
    variableWords (option :: word :: rest) = variableWords (word :: rest) := by
  obtain ⟨hne, hword⟩ := not_or.1 (mt List.mem_cons.2 h)
  rw [variableWords, if_neg hne, if_neg hword]

theorem variableWords_flatMap {option : String} (h : option ∈ wordOptions)
    (words rest : List String) :
    variableWords (words.flatMap (fun w => [option, w]) ++ rest) = variableWords rest := by
  induction words with
  | nil => rfl
  | cons w words ih =>
    show variableWords (option :: w :: (words.flatMap (fun w => [option, w]) ++ rest)) = _
    rw [variableWords_word h, ih]

theorem variableWords_variables {α : Type} (word : α → String) (vars : List α) :
    variableWords (vars.flatMap fun v => ["-e", word v]) = vars.map word := by
  induction vars with
  | nil => rfl
  | cons v vars ih =>
    show variableWords ("-e" :: word v :: vars.flatMap fun v => ["-e", word v]) = _
    rw [variableWords, if_pos rfl, ih, List.map_cons]

/-- A name that can be one is read as it was written, with its value unless that is withheld. -/
theorem readVariable_variableArg {v : String × String} (h : '=' ∉ v.1.toList) :
    readVariable (ContainerInvocation.variableArg v) =
      (v.1, if isSensitive v.1 then none else some v.2) := by
  have hname : ∀ c ∈ v.1.toList, (c != '=') = true := by
    intro c hc
    exact bne_iff_ne.2 (ne_of_mem_of_not_mem hc h)
  unfold ContainerInvocation.variableArg
  split
  · rw [readVariable, List.takeWhile_eq_self_iff.2 hname, List.dropWhile_eq_nil_iff.2 hname,
      String.ofList_toList]
  · have hword : (v.1 ++ "=" ++ v.2).toList = v.1.toList ++ '=' :: v.2.toList :=
      Shell.toList_assignmentWord v
    rw [readVariable, hword, List.takeWhile_append_of_pos hname, List.dropWhile_append_of_pos hname]
    simp

namespace ContainerInvocation

def options (i : ContainerInvocation) : List String :=
  ["run", "--rm", "--init", "--network=host", "-v", i.workspace ++ ":" ++ i.workspace,
    "-w", i.workspace] ++
  i.volumes.flatMap (fun v => ["-v", v]) ++
  i.groupIds.flatMap (fun g => ["--group-add", g]) ++
  i.env.toList.flatMap (fun v => ["-e", variableArg v])

theorem args_eq (i : ContainerInvocation) : i.args = i.options ++ i.image :: i.command := by
  rw [args, options, List.append_assoc, List.singleton_append]

theorem variableWords_options (i : ContainerInvocation) :
    variableWords i.options = i.env.toList.map variableArg := by
  have hflags : ∀ rest, variableWords (["run", "--rm", "--init", "--network=host", "-v",
      i.workspace ++ ":" ++ i.workspace, "-w", i.workspace] ++ rest) = variableWords rest := by
    intro rest
    simp only [List.cons_append, List.nil_append]
    rw [variableWords_flag (by decide), variableWords_flag (by decide),
      variableWords_flag (by decide), variableWords_flag (by decide),
      variableWords_word (by decide), variableWords_word (by decide)]
  rw [options, List.append_assoc, List.append_assoc, hflags,
    variableWords_flatMap (by decide), variableWords_flatMap (by decide), variableWords_variables]

/-- A container is handed the variables that have a value. -/
structure HandsOver (i : ContainerInvocation) (value : String → Option String) : Prop where
  /-- In front of the image each of them is named once, with its value unless it is sensitive; and
  where their names can be told from values, that is what is read there. -/
  named : ∃ (options : List String) (handed : List (String × String)),
    i.args = options ++ i.image :: i.command ∧
    (handed.map (·.1)).Nodup ∧ (∀ name v, (name, v) ∈ handed ↔ value name = some v) ∧
    (variableWords options = handed.map fun v =>
      if isSensitive v.1 then v.1 else v.1 ++ "=" ++ v.2) ∧
    ((∀ v ∈ handed, '=' ∉ v.1.toList) → (variableWords options).map readVariable =
      handed.map fun v => (v.1, if isSensitive v.1 then none else some v.2))
  /-- The program that runs the container here has the sensitive ones in its environment. -/
  withheld : ∀ name, i.toCommand.env.get? name = if isSensitive name then value name else none

theorem get?_env_toCommand (i : ContainerInvocation) (name : String) :
    i.toCommand.env.get? name = if isSensitive name then i.env.get? name else none := by
  have henv : i.toCommand.env = i.env.filter fun v => isSensitive v.1 :=
    NameMap.eq_of_toList_eq i.env_toCommand
  rw [henv, NameMap.get?_filter]

/-- A container is handed its variables. -/
theorem handsOver_env (i : ContainerInvocation) : i.HandsOver i.env.get? := by
  constructor
  case named =>
    refine ⟨i.options, i.env.toList, i.args_eq, i.env.nodup_names,
      fun name v => NameMap.mem_toList_iff, i.variableWords_options, fun hnames => ?_⟩
    rw [variableWords_options, List.map_map]
    refine List.map_congr_left fun v hv => ?_
    rw [Function.comp_apply, readVariable_variableArg (hnames v hv)]
  case withheld => exact i.get?_env_toCommand

/-! ## Containers that differ in secrets -/

/-- Two containers that differ in the values of sensitive variables only. -/
structure AlikeButSensitive (i j : ContainerInvocation) : Prop where
  image : i.image = j.image
  workspace : i.workspace = j.workspace
  groupIds : i.groupIds = j.groupIds
  volumes : i.volumes = j.volumes
  command : i.command = j.command
  names : ∀ name, (i.env.get? name).isSome = (j.env.get? name).isSome
  plain : ∀ name, isSensitive name = false → i.env.get? name = j.env.get? name

/-- The words for variables are made of the names, and of the values that are not sensitive. -/
theorem map_variableArg (m : NameMap String) :
    m.toList.map variableArg = (m.toList.map (·.1)).map fun name =>
      if isSensitive name then name else name ++ "=" ++ (m.get? name).getD "" := by
  rw [List.map_map]
  refine List.map_congr_left fun v hv => ?_
  have hvalue : m.get? v.1 = some v.2 := NameMap.mem_toList_iff.1 hv
  simp only [Function.comp_apply, variableArg, hvalue, Option.getD_some]

/-- **Sensitive values make no difference to the arguments.** -/
theorem AlikeButSensitive.args_eq {i j : ContainerInvocation} (h : i.AlikeButSensitive j) :
    i.args = j.args := by
  have hvars : i.env.toList.map variableArg = j.env.toList.map variableArg := by
    rw [map_variableArg, map_variableArg, NameMap.names_eq h.names]
    refine List.map_congr_left fun name _ => ?_
    by_cases hsensitive : isSensitive name = true
    · rw [if_pos hsensitive, if_pos hsensitive]
    · rw [if_neg hsensitive, if_neg hsensitive, h.plain name (by simpa using hsensitive)]
  have hpairs : ∀ m : NameMap String, m.toList.flatMap (fun v => ["-e", variableArg v]) =
      (m.toList.map variableArg).flatMap fun word => ["-e", word] := by
    intro m
    rw [List.flatMap_map]
  rw [args, args, hpairs, hpairs, hvars, h.image, h.workspace, h.groupIds, h.volumes, h.command]

end ContainerInvocation

namespace Dispatcher

variable {τ : Type} (d : Dispatcher) (e : Executor τ) (c : CommandSpec) (target : Target)
  (limit : Option Nat)

/-- The value that a variable travels with, if it may travel and is set: that of the command, or
else the last of the host. -/
def travelling (stems : List String) (host : List (String × String)) (env : NameMap String)
    (name : String) : Option String :=
  if EnvForwarder.allows stems name then (env.get? name).or (host.reverse.lookup name) else none

theorem get?_env_invocation {stems : List String} {host : List (String × String)}
    (hforwarder : d.forwarder = EnvForwarder.ofVariables stems host) (workspace : String) :
    (d.invocation c workspace).env.get? = travelling stems host c.env := by
  have hget : ∀ name, d.forwarder.get? name =
      if EnvForwarder.allows stems name then host.reverse.lookup name else none := by
    intro name
    rw [hforwarder, EnvForwarder.get?, EnvForwarder.ofVariables, NameMap.get?_ofList,
      ← List.filter_reverse, NameMap.lookup_filter]
  have hallowed : ∀ name, d.forwarder.isAllowed name = EnvForwarder.allows stems name := by
    intro name
    rw [hforwarder]
    rfl
  funext name
  show (d.forwarder.merged c.env).get? name = _
  rw [EnvForwarder.get?_merged_eq_ite, hget, hallowed, travelling]
  split <;> rfl

/-- **A container is handed exactly the variables that may travel and are set.** -/
theorem variables_handed_over {stems : List String} {host : List (String × String)}
    (hforwarder : d.forwarder = EnvForwarder.ofVariables stems host) {drop : Option Nat} {now : Nat}
    (hdrop : meets now drop) {h : Host (Watched τ)} (hseen : h.tools.seen = []) :
    (∀ workspace groupIds, ContainerInvocation.HandsOver
      { d.invocation c workspace with groupIds } (travelling stems host c.env)) ∧
    (∀ spec ∈ ((d.dispatch e.watched c target limit).runUnder drop now h).state.seenCommands,
      spec.IsErrand ∨
        ∃ workspace groupIds, spec.Runs { d.invocation c workspace with groupIds }) ∧
    ∀ i j : ContainerInvocation, i.AlikeButSensitive j → i.args = j.args := by
  refine ⟨fun workspace groupIds => ?_, ?_, fun i j hij => hij.args_eq⟩
  · rw [← d.get?_env_invocation c hforwarder workspace]
    exact ContainerInvocation.handsOver_env { d.invocation c workspace with groupIds }
  · exact d.invocation_of_mem_seenCommands e c target limit hdrop hseen

/-! ### A variable of the host and of the command -/

open ToolSteps (silent dockerHost)

/-- A host that sets a region twice, a credential, and a variable that may not travel. -/
def regionHost : List (String × String) :=
  [("SCT_REGION_NAME", "eu-west-1"), ("AWS_SECRET_ACCESS_KEY", "wJal rXUt"), ("HOME", "/root"),
    ("SCT_REGION_NAME", "eu-west-2")]

def regionDispatcher : Dispatcher :=
  Dispatcher.make
    { sshKeys := [], awsCredentialsDir := none, gceCredentialsFile := none,
      azureCredentialsDir := none }
    (EnvForwarder.ofVariables ["SCT_", "AWS_"] regionHost) "/runs/a" ["/bin"]

/-- A command that sets the region too, and a library to be loaded. -/
def regionCommand : CommandSpec :=
  (command "./sct.py").withEnv [("SCT_REGION_NAME", "us-east-1"), ("LD_PRELOAD", "/tmp/evil.so")]

/-- The container gets the region of the command, the credential of the host, and no library. -/
theorem variables_handed_over_regionCommand :
    (regionDispatcher.localCommand regionCommand).env.get? "AWS_SECRET_ACCESS_KEY" =
        some "wJal rXUt" ∧
      ∃ (options : List String) (handed : List (String × String)),
        (regionDispatcher.invocation regionCommand "/runs/a").args =
          options ++ regionDispatcher.settings.imageRef :: regionCommand.argv ∧
        (handed.map (·.1)).Nodup ∧ ("SCT_REGION_NAME", "us-east-1") ∈ handed ∧
        ("AWS_SECRET_ACCESS_KEY", "wJal rXUt") ∈ handed ∧
        (∀ v, ("LD_PRELOAD", v) ∉ handed) ∧ (∀ v, ("HOME", v) ∉ handed) := by
  have hforwarder : regionDispatcher.forwarder =
      EnvForwarder.ofVariables ["SCT_", "AWS_"] regionHost := rfl
  have hdrop : meets 0 none := rfl
  obtain ⟨hover, -, -⟩ := variables_handed_over regionDispatcher silent regionCommand .here none
    hforwarder hdrop (h := dockerHost) rfl
  obtain ⟨⟨options, handed, hargs, hnodup, hmem, -⟩, hwithheld⟩ := hover "/runs/a" []
  refine ⟨(hwithheld "AWS_SECRET_ACCESS_KEY").trans rfl, options, handed, hargs, hnodup,
    (hmem _ _).2 rfl, (hmem _ _).2 rfl, fun v hv => ?_, fun v hv => ?_⟩
  · have hnone : travelling ["SCT_", "AWS_"] regionHost regionCommand.env "LD_PRELOAD" = none := rfl
    rw [(hmem _ _).1 hv] at hnone
    cases hnone
  · have hnone : travelling ["SCT_", "AWS_"] regionHost regionCommand.env "HOME" = none := rfl
    rw [(hmem _ _).1 hv] at hnone
    cases hnone

end Dispatcher

end Stagehand

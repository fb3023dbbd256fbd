import Stagehand.Proofs.Config.Resolution
import Stagehand.Proofs.Config.Variables

/-!
# Reading an overlay back

The overlay of a configuration carries the configuration: **parameters that are read off the
overlay resolve to it again**, whatever the policy about sources (`RunParams.resolve_overlay`).
Three things do not travel in an overlay and fall back to their defaults: the name of the test, its
duration and the recipients.

It works because each value is decided in a form that reading leaves as it is. Names of backends,
disposals and ways to buy are read as themselves; regions have one space between them; a source has
no blanks at its ends. And as the overlay names one source alone, there is nothing to choose from.
-/

namespace Stagehand

/-! ## Names are read as themselves -/

theorem Backend.parse_name (b : Backend) : parse b.name = .ok b := by
  cases b <;> rfl

theorem PostBehavior.parse_name (b : PostBehavior) : parse b.name = .ok b := by
  cases b <;> rfl

theorem ProvisionType.parse_name (t : ProvisionType) : parse t.name = .ok t := by
  cases t <;> rfl

namespace RunParams

open Variable (carriers isPassedOn)

theorem isGiven_backend (b : Backend) : IsGiven b.name := by
  cases b <;> rfl

theorem isGiven_postBehavior (b : PostBehavior) : IsGiven b.name := by
  cases b <;> rfl

theorem isGiven_provisionType (t : ProvisionType) : IsGiven t.name := by
  cases t <;> rfl

theorem parseOr_of_isGiven {α : Type} {read : String → RunResult α} {default a : α}
    {value : Option String} {v : String} (hvalue : value = some v) (hgiven : IsGiven v)
    (hread : read v = .ok a) : parseOr read default value = .ok a := by
  rw [hvalue, parseOr, show nonBlank? (some v) = some v from hgiven]
  exact hread

/-! ## Regions -/

theorem joinWith_words_regionsOr (p : RunParams) (backend : Backend) :
    Text.joinWith " " (Text.words (p.regionsOr backend)) = p.regionsOr backend := by
  unfold regionsOr
  split
  · rw [Text.words_joinWith_words]
  · cases backend <;> rfl

theorem trim_regionsOr_ne (p : RunParams) (backend : Backend) :
    Text.trim (p.regionsOr backend) ≠ "" := by
  rw [Ne, ← Text.words_eq_nil_iff]
  unfold regionsOr
  split
  · next r hr =>
    obtain ⟨htrim, hne⟩ := isGiven_iff.1 (isGiven_of_nonBlank? hr)
    rwa [Text.words_joinWith_words, Text.words_eq_nil_iff, htrim]
  · cases backend <;> decide

theorem regionsOr_eq_self {p q : RunParams} {backend : Backend}
    (h : q.region = some (p.regionsOr backend)) : q.regionsOr backend = p.regionsOr backend := by
  have hgiven : nonBlank? q.region = some (Text.trim (p.regionsOr backend)) := by
    rw [h]
    simp [nonBlank?, trim_regionsOr_ne]
  rw [regionsOr, hgiven]
  show Text.joinWith " " (Text.words (Text.trim (p.regionsOr backend))) = _
  rw [Text.words_trim, joinWith_words_regionsOr]

/-! ## The source -/

/-- Parameters that name one source alone, in given words, have this source. -/
theorem artifactSource_eq_ok {q : RunParams} {source : ArtifactSource}
    (hami : q.amiId = source.overlay.lookup Variable.amiId)
    (hversion : q.version = source.overlay.lookup Variable.version)
    (hrepo : q.repo = source.overlay.lookup Variable.repo)
    (himage : q.dockerImage = source.overlay.lookup Variable.dockerImage)
    (hgiven : ∀ v ∈ source.overlay, IsGiven v.2) (policy : SelectorPolicy) :
    q.artifactSource policy = .ok source := by
  have hnone : nonBlank? Option.none = Option.none := rfl
  cases source <;>
  · simp (disch := decide) only [ArtifactSource.overlay, NameMap.lookup_cons_ite, List.lookup_nil,
      if_neg, if_pos] at hami hversion hrepo himage
    simp only [ArtifactSource.overlay, List.forall_mem_cons, List.not_mem_nil, false_implies,
      implies_true, and_true, IsGiven] at hgiven
    simp [artifactSource, artifactSources, hami, hversion, hrepo, himage, hgiven, hnone]

/-! ## What an overlay carries -/

theorem nonBlank?_nonBlank? (value : Option String) :
    nonBlank? (nonBlank? value) = nonBlank? value := by
  cases h : nonBlank? value with
  | none => rfl
  | some v => exact isGiven_of_nonBlank? h

theorem isGiven_nonBlank?_getD {default : String} (h : IsGiven default) (value : Option String) :
    IsGiven ((nonBlank? value).getD default) := by
  cases hvalue : nonBlank? value with
  | none => exact h
  | some v => exact isGiven_of_nonBlank? hvalue

/-- The other variables of a configuration name no source. -/
theorem lookup_overlay_of_not_selectors {name : String} (h : name ∉ Variable.selectors)
    (source : ArtifactSource) : source.overlay.lookup name = Option.none := by
  simp only [Variable.selectors, List.mem_cons, List.not_mem_nil, or_false, not_or] at h
  cases source <;>
    simp only [ArtifactSource.overlay, NameMap.lookup_cons_ite, List.lookup_nil, h, if_false]

theorem lookup_decided_testConfig (c : RunConfiguration) :
    c.decided.lookup Variable.testConfig = c.testConfig := by
  rw [RunConfiguration.decided, decidedOverlay]
  simp (disch := decide) only [List.lookup_append, NameMap.lookup_cons_ite, List.lookup_nil, if_neg,
    lookup_overlay_of_not_selectors, Option.none_or]
  cases c.testConfig <;> simp

/-- Neither the name of the test, nor its duration, nor the recipients are decided. -/
theorem lookup_decided_eq_none (c : RunConfiguration) {name : String}
    (h : name ∈ [Variable.testName, Variable.testDuration, Variable.emailRecipients]) :
    c.decided.lookup name = Option.none := by
  have hother : name ∉ Variable.selectors ++ [Variable.backend, Variable.region,
      Variable.availabilityZone, Variable.postBehaviorDb, Variable.postBehaviorLoader,
      Variable.postBehaviorMonitor, Variable.provisionType, Variable.testConfig] := by
    revert name
    decide
  simp only [List.mem_append, List.mem_cons, List.not_mem_nil, or_false, not_or] at hother
  obtain ⟨hsource, hother⟩ := hother
  rw [RunConfiguration.decided, decidedOverlay]
  simp only [List.lookup_append, NameMap.lookup_cons_ite, List.lookup_nil, hother, if_false,
    lookup_overlay_of_not_selectors hsource, Option.none_or]
  cases c.testConfig <;> simp [hother]

section Carried

variable {vars : List (String × String)} {policy : SelectorPolicy} {c : RunConfiguration}

/-- A variable that carries a parameter is in the overlay exactly if it was decided. -/
theorem get?_overlay_of_carrier (h : (ofVariables vars).Resolves policy c) {name : String}
    (hname : name ∈ carriers) : c.overlay.get? name = c.decided.lookup name := by
  rw [h.get?_overlay, ofVariables_eq, get?_extraEnv_ofMap, Variable.isPassedOn_of_mem hname,
    if_neg Bool.false_ne_true, Option.or_none]

theorem get?_overlay_selector (h : (ofVariables vars).Resolves policy c) {name : String}
    (hname : name ∈ Variable.selectors) :
    c.overlay.get? name = c.artifactSource.overlay.lookup name := by
  have hcarrier : name ∈ carriers := by
    revert name
    decide
  rw [get?_overlay_of_carrier h hcarrier, RunConfiguration.decided, lookup_decidedOverlay hname]

theorem get?_overlay_testConfig (h : (ofVariables vars).Resolves policy c) :
    c.overlay.get? Variable.testConfig = c.testConfig := by
  rw [get?_overlay_of_carrier h (by decide), lookup_decided_testConfig]

theorem get?_overlay_eq_none (h : (ofVariables vars).Resolves policy c) :
    ∀ name ∈ [Variable.testName, Variable.testDuration, Variable.emailRecipients],
      c.overlay.get? name = Option.none := by
  intro name hname
  have hcarrier : name ∈ carriers := by
    revert name
    decide
  rw [get?_overlay_of_carrier h hcarrier, lookup_decided_eq_none c hname]

/-- Of the variables that carry no parameter, those that are passed on once are passed on again. -/
theorem get?_overlay_again (h : (ofVariables vars).Resolves policy c) (name : String) :
    c.overlay.get? name =
      (c.decided.lookup name).or
      (if isPassedOn name then c.overlay.get? name else Option.none) := by
  rw [h.get?_overlay, ofVariables_eq, get?_extraEnv_ofMap]
  cases c.decided.lookup name with
  | some value => rfl
  | none => split <;> rfl

/-- Each part of a configuration but three is read off its overlay. -/
theorem resolves_overlay (h : (ofVariables vars).Resolves policy c) (policy' : SelectorPolicy) :
    (ofMap c.overlay).Resolves policy'
      { c with
        testName := defaultTestName
        durationMinutes := defaultDuration
        emailRecipients := [] } := by
  have hdecided : ∀ e ∈ [(Variable.backend, c.backend.name), (Variable.region, c.region),
      (Variable.availabilityZone, c.availabilityZone),
      (Variable.postBehaviorDb, c.disposal.dbNodes.name),
      (Variable.postBehaviorLoader, c.disposal.loaderNodes.name),
      (Variable.postBehaviorMonitor, c.disposal.monitorNodes.name),
      (Variable.provisionType, c.provisionType.name)], c.overlay.get? e.1 = some e.2 := by
    rintro ⟨name, value⟩ he
    refine h.get?_overlay_of_mem ?_
    rw [RunConfiguration.decided, decidedOverlay]
    simp only [List.mem_cons, List.mem_append] at he ⊢
    tauto
  -- Three fields are no part of the overlay, and fall back on their defaults.
  have hnone := get?_overlay_eq_none h
  simp only [List.forall_mem_cons, List.not_mem_nil, false_implies, implies_true, and_true]
    at hdecided hnone
  obtain ⟨hbackend, hregion, hzone, hdb, hloader, hmonitor, hprovision⟩ := hdecided
  obtain ⟨htest, hduration, hrecipients⟩ := hnone
  have hregions : (ofMap c.overlay).regionsOr c.backend = c.region := by
    rw [regionsOr_eq_self (p := ofVariables vars)
      (hregion.trans (congrArg some h.region)), ← h.region]
  have hzoneGiven : IsGiven c.availabilityZone := by
    have hdefault : IsGiven "a" := rfl
    rw [h.availabilityZone]
    exact isGiven_nonBlank?_getD hdefault _
  constructor
  case backend => exact parseOr_of_isGiven hbackend (isGiven_backend _) c.backend.parse_name
  case source =>
    exact artifactSource_eq_ok (get?_overlay_selector h (by decide))
      (get?_overlay_selector h (by decide)) (get?_overlay_selector h (by decide))
      (get?_overlay_selector h (by decide)) (isGiven_of_artifactSource h.source) policy'
  case region => exact hregions.symm
  case dbNodes => exact parseOr_of_isGiven hdb (isGiven_postBehavior _) (PostBehavior.parse_name _)
  case loaderNodes =>
    exact parseOr_of_isGiven hloader (isGiven_postBehavior _) (PostBehavior.parse_name _)
  case monitorNodes =>
    exact parseOr_of_isGiven hmonitor (isGiven_postBehavior _) (PostBehavior.parse_name _)
  case provisionType =>
    exact parseOr_of_isGiven hprovision (isGiven_provisionType _) (ProvisionType.parse_name _)
  case wholeDuration => simp only [ofMap, hduration, Option.filter_none]
  case availabilityZone =>
    simp only [ofMap, hzone, show nonBlank? (some c.availabilityZone) = _ from hzoneGiven,
      Option.getD_some]
  case testName =>
    simp only [ofMap, htest]
    rfl
  case testConfig => simp only [ofMap, get?_overlay_testConfig h, h.testConfig, nonBlank?_nonBlank?]
  case durationMinutes =>
    simp only [ofMap, hduration]
    rfl
  case emailRecipients =>
    simp only [recipients, ofMap, hrecipients]
    rfl
  case overlay =>
    refine NameMap.eq_of_get?_eq fun name => ?_
    rw [get?_addFree, get?_extraEnv_ofMap, RunConfiguration.decided,
      NameMap.get?_ofList_of_nodup (nodup_decidedOverlay ..)]
    exact get?_overlay_again h name

/-- **Parameters that are read off an overlay resolve to the configuration of the overlay**,
whatever the policy. Only what does not travel falls back to its default. -/
theorem resolve_overlay (h : (ofVariables vars).resolve policy = .ok c) (policy' : SelectorPolicy) :
    (ofVariables c.overlay.toList).resolve policy' = .ok
      { c with
        testName := defaultTestName
        durationMinutes := defaultDuration
        emailRecipients := [] } := by
  rw [ofVariables_eq, NameMap.ofList_toList]
  exact resolve_eq_ok_iff.2 (resolves_overlay (resolve_eq_ok_iff.1 h) policy')

end Carried

/-! ### Variables that are not tidy -/

/-- Blanks, capital letters, a blank selector, and variables that are passed on or ignored. -/
def untidyVariables : List (String × String) :=
  [(Variable.backend, " GCE "), (Variable.region, "us-east1   us-west1 "), (Variable.amiId, " "),
    (Variable.version, "5.2 "), (Variable.dockerImage, " scylla"), (Variable.repo, "scylla.repo"),
    (Variable.testDuration, "60"), ("SCT_N_DB_NODES", " 3"), ("HOME", "/root")]

/-- What these variables are resolved into. -/
def untidyConfiguration : RunConfiguration where
  backend := .gce
  region := "us-east1 us-west1"
  availabilityZone := "a"
  artifactSource := .dockerImage "scylla" "5.2"
  disposal := ⟨.destroy, .destroy, .destroy⟩
  provisionType := .spot
  testName := defaultTestName
  testConfig := Option.none
  durationMinutes := 60
  emailRecipients := []
  overlay := NameMap.ofList (("SCT_N_DB_NODES", " 3") :: decidedOverlay .gce "us-east1 us-west1" "a"
    (.dockerImage "scylla" "5.2") ⟨.destroy, .destroy, .destroy⟩ .spot Option.none)

theorem resolve_untidyVariables :
    (ofVariables untidyVariables).resolve .firstMatch = .ok untidyConfiguration :=
  eq_ok_of_toOption (by decide +kernel)

/-- The repository that was passed over is gone, so that even the strict policy has no objection. -/
theorem resolve_overlay_untidy :
    (ofVariables untidyVariables).resolve .firstMatch = .ok untidyConfiguration ∧
      (ofVariables untidyConfiguration.overlay.toList).resolve .strict =
        .ok { untidyConfiguration with durationMinutes := defaultDuration } :=
  ⟨resolve_untidyVariables, resolve_overlay resolve_untidyVariables .strict⟩

end RunParams

end Stagehand

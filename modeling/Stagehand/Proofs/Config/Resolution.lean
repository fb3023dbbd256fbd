import Stagehand.Config.Resolve
import Stagehand.Proofs.NameMap
import Stagehand.Proofs.Text.Blank

/-!
# What a configuration is made of

Parameters resolve into a configuration exactly if each part of it can be read off them
(`RunParams.resolve_eq_ok_iff`). The overlay of the configuration holds what was decided, and of the
variables that are passed on those whose names are free (`RunParams.Resolves.get?_overlay`).
-/

namespace Stagehand

theorem bind_eq_ok {α β : Type} {x : RunResult α} {f : α → RunResult β} {b : β}
    (h : x >>= f = .ok b) : ∃ a, x = .ok a ∧ f a = .ok b := by
  cases x with
  | ok a => exact ⟨a, rfl, h⟩
  | error e => cases h

theorem eq_ok_of_toOption {α : Type} {x : RunResult α} {a : α} (h : x.toOption = some a) :
    x = .ok a := by
  cases x with
  | ok b => exact congrArg Except.ok (Option.some.inj h)
  | error e => cases h

/-- The variables that select the build under test. -/
def Variable.selectors : List String := [amiId, version, repo, dockerImage]

/-- The variables that a configuration decides. -/
def RunConfiguration.decided (c : RunConfiguration) : List (String × String) :=
  RunParams.decidedOverlay c.backend c.region c.availabilityZone c.artifactSource c.disposal
    c.provisionType c.testConfig

namespace RunParams

/-- The regions that are given, with one space between them, or the region of the backend. -/
def regionsOr (p : RunParams) (backend : Backend) : String :=
  match nonBlank? p.region with
  | some r => Text.joinWith " " (Text.words r)
  | Option.none => backend.defaultRegion

/-- The recipients that are given. -/
def recipients (p : RunParams) : List String :=
  (Text.fields (fun c => c == ',' || Text.isBlank c)
    ((nonBlank? p.emailRecipients).getD "").toList).map String.ofList

/-- Each part of a configuration is read off the parameters. -/
structure Resolves (p : RunParams) (policy : SelectorPolicy) (c : RunConfiguration) : Prop where
  backend : parseOr Backend.parse .aws p.backend = .ok c.backend
  source : p.artifactSource policy = .ok c.artifactSource
  region : c.region = p.regionsOr c.backend
  dbNodes : parseOr PostBehavior.parse .destroy p.postBehaviorDb = .ok c.disposal.dbNodes
  loaderNodes : parseOr PostBehavior.parse .destroy p.postBehaviorLoader =
    .ok c.disposal.loaderNodes
  monitorNodes :
    parseOr PostBehavior.parse .destroy p.postBehaviorMonitor = .ok c.disposal.monitorNodes
  provisionType : parseOr ProvisionType.parse .spot p.provisionType = .ok c.provisionType
  wholeDuration : p.invalidDuration = Option.none
  availabilityZone : c.availabilityZone = (nonBlank? p.availabilityZone).getD "a"
  testName : c.testName = (nonBlank? p.testName).getD defaultTestName
  testConfig : c.testConfig = nonBlank? p.testConfig
  durationMinutes : c.durationMinutes = p.durationMinutes.getD defaultDuration
  emailRecipients : c.emailRecipients = p.recipients
  overlay : c.overlay = addFree (NameMap.ofList c.decided) p.extraEnv

/-- **Parameters resolve exactly into what is read off them.** -/
theorem resolve_eq_ok_iff {p : RunParams} {policy : SelectorPolicy} {c : RunConfiguration} :
    p.resolve policy = .ok c ↔ p.Resolves policy c := by
  constructor
  · intro h
    unfold resolve at h
    -- The checks of `resolve`, in the order in which it makes them.
    obtain ⟨backend, hbackend, h⟩ := bind_eq_ok h
    obtain ⟨source, hsource, h⟩ := bind_eq_ok h
    obtain ⟨dbNodes, hdb, h⟩ := bind_eq_ok h
    obtain ⟨loaderNodes, hloader, h⟩ := bind_eq_ok h
    obtain ⟨monitorNodes, hmonitor, h⟩ := bind_eq_ok h
    obtain ⟨provision, hprovision, h⟩ := bind_eq_ok h
    split at h
    · cases h
    · next hduration =>
      cases h
      exact ⟨hbackend, hsource, rfl, hdb, hloader, hmonitor, hprovision, hduration, rfl, rfl, rfl,
        rfl, rfl, rfl⟩
  · intro h
    unfold resolve
    rw [h.backend, h.source, h.dbNodes, h.loaderNodes, h.monitorNodes, h.provisionType,
      h.wholeDuration]
    obtain ⟨backend, region, zone, source, disposal, provision, name, test, minutes, recipients,
      overlay⟩ := c
    obtain rfl : region = p.regionsOr backend := h.region
    obtain rfl : zone = (nonBlank? p.availabilityZone).getD "a" := h.availabilityZone
    obtain rfl : name = (nonBlank? p.testName).getD defaultTestName := h.testName
    obtain rfl : test = nonBlank? p.testConfig := h.testConfig
    obtain rfl : minutes = p.durationMinutes.getD defaultDuration := h.durationMinutes
    obtain rfl : recipients = p.recipients := h.emailRecipients
    have hoverlay := h.overlay
    simp only [RunConfiguration.decided] at hoverlay
    subst hoverlay
    rfl

/-! ## Parameters that are given -/

/-- A parameter without blanks at its ends, which is not empty. -/
def IsGiven (value : String) : Prop := nonBlank? (some value) = some value

theorem isGiven_iff {value : String} : IsGiven value ↔ Text.trim value = value ∧ value ≠ "" := by
  simp [IsGiven, nonBlank?, Option.filter_eq_some_iff]

theorem isGiven_of_nonBlank? {value : Option String} {v : String} (h : nonBlank? value = some v) :
    IsGiven v := by
  obtain ⟨hv, hne⟩ := Option.filter_eq_some_iff.1 h
  obtain ⟨w, -, rfl⟩ := Option.map_eq_some_iff.1 hv
  exact isGiven_iff.2 ⟨Text.trim_trim w, by simpa using hne⟩

theorem isGiven_of_artifactSource {p : RunParams} {policy : SelectorPolicy}
    {source : ArtifactSource} (h : p.artifactSource policy = .ok source) :
    ∀ v ∈ source.overlay, IsGiven v.2 := by
  have hmem : source ∈ p.artifactSources := by
    unfold artifactSource at h
    split at h
    · cases h
    · split at h
      · cases h
      · cases h
      · next hsources _ =>
        cases h
        rw [hsources]
        exact List.mem_cons_self
  rw [artifactSources, List.mem_append, List.mem_append] at hmem
  simp only [Option.mem_toList, Option.map_eq_some_iff] at hmem
  rcases hmem with (⟨id, hid, rfl⟩ | ⟨version, hversion, rfl⟩) | ⟨repo, hrepo, rfl⟩
  · simpa [ArtifactSource.overlay] using isGiven_of_nonBlank? hid
  · have hgiven := isGiven_of_nonBlank? hversion
    split
    · next himage => simpa [ArtifactSource.overlay, hgiven] using isGiven_of_nonBlank? himage
    · simpa [ArtifactSource.overlay] using hgiven
  · simpa [ArtifactSource.overlay] using isGiven_of_nonBlank? hrepo

/-! ## The overlay -/

theorem get?_addFree (decided extra : NameMap String) (name : String) :
    (addFree decided extra).get? name = (decided.get? name).or (extra.get? name) := by
  rw [addFree, NameMap.get?_insertAll_filter decided extra (fun name => !decided.contains name),
    NameMap.contains]
  cases decided.get? name <;> simp

theorem nodup_decidedOverlay (backend : Backend) (region zone : String) (source : ArtifactSource)
    (disposal : Disposal) (provision : ProvisionType) (testConfig : Option String) :
    ((decidedOverlay backend region zone source disposal provision testConfig).map
        (·.1)).Nodup := by
  rcases source with _ | _ | _ | _ <;> rcases testConfig with _ | _ <;>
  · simp only [decidedOverlay, ArtifactSource.overlay, List.map_append, List.map_cons, List.map_nil,
      Option.map_some, Option.map_none, Option.toList]
    decide

theorem lookup_of_not_selectors {name : String} (h : name ∈ Variable.selectors)
    {es : List (String × String)} (hes : ∀ e ∈ es, e.1 ∉ Variable.selectors) :
    es.lookup name = Option.none := by
  refine List.lookup_eq_none_iff.2 fun e he => bne_iff_ne.2 ?_
  rintro rfl
  exact hes e he h

/-- Of the selectors, what was decided names those of the source. -/
theorem lookup_decidedOverlay {name : String} (h : name ∈ Variable.selectors) (backend : Backend)
    (region zone : String) (source : ArtifactSource) (disposal : Disposal)
    (provision : ProvisionType) (testConfig : Option String) :
    (decidedOverlay backend region zone source disposal provision testConfig).lookup name =
      source.overlay.lookup name := by
  have hother : ∀ other ∈ [Variable.backend, Variable.region, Variable.availabilityZone,
      Variable.postBehaviorDb, Variable.postBehaviorLoader, Variable.postBehaviorMonitor,
      Variable.provisionType, Variable.testConfig], other ∉ Variable.selectors := by decide
  simp only [List.forall_mem_cons, List.not_mem_nil, false_implies, implies_true, and_true]
    at hother
  obtain ⟨hbackend, hregion, hzone, hdb, hloader, hmonitor, hprovision, htest⟩ := hother
  have hplace : [(Variable.backend, backend.name), (Variable.region, region),
      (Variable.availabilityZone, zone)].lookup name = Option.none :=
    lookup_of_not_selectors h (by simp [hbackend, hregion, hzone])
  have hnodes : [(Variable.postBehaviorDb, disposal.dbNodes.name),
      (Variable.postBehaviorLoader, disposal.loaderNodes.name),
      (Variable.postBehaviorMonitor, disposal.monitorNodes.name),
      (Variable.provisionType, provision.name)].lookup name = Option.none :=
    lookup_of_not_selectors h (by simp [hdb, hloader, hmonitor, hprovision])
  have hconfig : (testConfig.map fun c => (Variable.testConfig, c)).toList.lookup name =
      Option.none := lookup_of_not_selectors h (by simp [htest])
  rw [decidedOverlay]
  simp only [List.lookup_append]
  rw [hplace, hnodes, hconfig, Option.none_or, Option.or_none, Option.or_none]

variable {p : RunParams} {policy : SelectorPolicy} {c : RunConfiguration}

/-- A variable of the overlay is decided, or else passed on. -/
theorem Resolves.get?_overlay (h : p.Resolves policy c) (name : String) :
    c.overlay.get? name = (c.decided.lookup name).or (p.extraEnv.get? name) := by
  rw [h.overlay, get?_addFree, RunConfiguration.decided,
    NameMap.get?_ofList_of_nodup (nodup_decidedOverlay ..)]

theorem Resolves.get?_overlay_of_mem (h : p.Resolves policy c) {name value : String}
    (hmem : (name, value) ∈ c.decided) : c.overlay.get? name = some value := by
  have hdecided := NameMap.get?_ofList_of_mem (nodup_decidedOverlay ..) hmem
  rw [NameMap.get?_ofList_of_nodup (nodup_decidedOverlay ..)] at hdecided
  rw [h.get?_overlay, RunConfiguration.decided, hdecided, Option.some_or]

end RunParams

end Stagehand

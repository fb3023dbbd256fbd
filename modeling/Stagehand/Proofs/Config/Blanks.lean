import Stagehand.Proofs.Config.Acceptance

/-!
# Blank variables

A variable that holds nothing but blanks is not the same as one that is not there. **It
covers what the parameters below it say**, and only then counts as absent: the part of the
configuration that it carries falls back to its default. A blank duration is refused, as it
is no number (`RunParams.resolve_blank_variables`).

So blank variables may be left out where there is nothing to cover, and the duration is not
among them; where there is something to cover, exactly if the configuration has the default
there anyway. One selector of a build needs more: an image that rides on a version is refused
once the version is covered.

The proof compares the parameters with the blank variables to those without them, field by field
(`RunParams.Blanked`). Each field is read by way of `nonBlank?`, so that a blank field reads as one
that is absent (`RunParams.Covers.read_iff`).
-/

namespace Stagehand

namespace NameMap

variable {α : Type}

theorem lookup_eq_some_iff_mem {es : List (String × α)} (hnodup : (es.map (·.1)).Nodup) {k : String}
    {v : α} : es.lookup k = some v ↔ (k, v) ∈ es := by
  refine ⟨mem_of_lookup, fun h => ?_⟩
  rw [← get?_ofList_of_nodup hnodup]
  exact get?_ofList_of_mem hnodup h

/-- Where no name comes twice, leaving entries out leaves their names out. -/
theorem get?_ofList_filter {es : List (String × α)} (hnodup : (es.map (·.1)).Nodup)
    (keep : String × α → Bool) (k : String) :
    (ofList (es.filter keep)).get? k = ((ofList es).get? k).filter fun v => keep (k, v) := by
  have hsub : ((es.filter keep).map (·.1)).Nodup :=
    hnodup.sublist (List.filter_sublist.map _)
  rw [get?_ofList_of_nodup hnodup, get?_ofList_of_nodup hsub]
  ext v
  rw [lookup_eq_some_iff_mem hsub, List.mem_filter, ← lookup_eq_some_iff_mem hnodup,
    Option.filter_eq_some_iff]

end NameMap

/-! ## Blank variables among others -/

namespace Variable

/-- The variable carries a parameter, and holds nothing but blanks. -/
def isBlank (v : String × String) : Bool := carriers.contains v.1 && v.2.toList.all Text.isBlank

/-- The variables that are not blank, or carry no parameter. -/
def withoutBlank (vars : List (String × String)) : List (String × String) :=
  vars.filter fun v => !isBlank v

def blankNames (vars : List (String × String)) : List String := (vars.filter isBlank).map (·.1)

variable {vars : List (String × String)} {name : String}

theorem mem_blankNames_iff (hnodup : (vars.map (·.1)).Nodup) :
    name ∈ blankNames vars ↔
      ∃ value, (NameMap.ofList vars).get? name = some value ∧ isBlank (name, value) = true := by
  simp only [blankNames, List.mem_map, List.mem_filter, Prod.exists,
    NameMap.get?_ofList_of_nodup hnodup, NameMap.lookup_eq_some_iff_mem hnodup]
  constructor
  · rintro ⟨_, value, hvalue, rfl⟩
    exact ⟨value, hvalue⟩
  · rintro ⟨value, hvalue⟩
    exact ⟨name, value, hvalue, rfl⟩

theorem get?_withoutBlank_of_mem (hnodup : (vars.map (·.1)).Nodup) (h : name ∈ blankNames vars) :
    (NameMap.ofList (withoutBlank vars)).get? name = none := by
  obtain ⟨value, hvalue, hblank⟩ := (mem_blankNames_iff hnodup).1 h
  rw [withoutBlank, NameMap.get?_ofList_filter hnodup, hvalue]
  simp [hblank]

theorem get?_withoutBlank_of_not_mem (hnodup : (vars.map (·.1)).Nodup)
    (h : name ∉ blankNames vars) :
    (NameMap.ofList (withoutBlank vars)).get? name = (NameMap.ofList vars).get? name := by
  rw [withoutBlank, NameMap.get?_ofList_filter hnodup]
  cases hvalue : (NameMap.ofList vars).get? name with
  | none => rfl
  | some value =>
    rw [mem_blankNames_iff hnodup, not_exists] at h
    have hkept : isBlank (name, value) = false := by simpa [hvalue] using h value
    simp [hkept]

theorem mem_carriers_of_mem_blankNames (h : name ∈ blankNames vars) : name ∈ carriers := by
  obtain ⟨v, hv, rfl⟩ := List.mem_map.1 h
  have hblank := (List.mem_filter.1 hv).2
  rw [isBlank, Bool.and_eq_true] at hblank
  simpa using hblank.1

end Variable

open Variable (carriers blankNames withoutBlank)

namespace RunParams

/-! ## Fields that are covered -/

/-- The parameters that are texts, with the variables that carry them. -/
def textFields : List (String × (RunParams → Option String)) :=
  [(Variable.backend, backend), (Variable.region, region),
    (Variable.availabilityZone, availabilityZone), (Variable.amiId, amiId),
    (Variable.version, version), (Variable.repo, repo), (Variable.dockerImage, dockerImage),
    (Variable.postBehaviorDb, postBehaviorDb), (Variable.postBehaviorLoader, postBehaviorLoader),
    (Variable.postBehaviorMonitor, postBehaviorMonitor), (Variable.provisionType, provisionType),
    (Variable.testName, testName), (Variable.testConfig, testConfig),
    (Variable.emailRecipients, emailRecipients)]

theorem textFields_overlaidWith (lower upper : RunParams) :
    ∀ f ∈ textFields, f.2 (lower.overlaidWith upper) = (f.2 upper).or (f.2 lower) := by
  simp [textFields, overlaidWith]

theorem textFields_ofMap (m : NameMap String) : ∀ f ∈ textFields, f.2 (ofMap m) = m.get? f.1 := by
  simp [textFields, ofMap]

/-- With blanks laid over the parameters of some names, `below` has become `value`. -/
structure Covers (names : List String) (name : String) (below value : Option String) : Prop where
  isBlank : name ∈ names → IsBlank value
  eq : name ∉ names → value = below

variable {names : List String} {name : String} {below value : Option String}

theorem Covers.isBlank_of_isBlank (h : Covers names name below value) (hbelow : IsBlank below) :
    IsBlank value := by
  by_cases hname : name ∈ names
  · exact h.isBlank hname
  · rwa [h.eq hname]

/-- What is read of a parameter stays the same exactly if it is what is read of none. -/
theorem Covers.read_iff {β : Type} (read : Option String → β) {b : β}
    (h : Covers names name below value) (hb : b = read (nonBlank? below)) :
    b = read (nonBlank? value) ↔ (name ∈ names → b = read Option.none) := by
  by_cases hname : name ∈ names
  · simp only [isBlank_iff.1 (h.isBlank hname), hname, true_implies]
  · simp only [h.eq hname, hname, false_implies, hb]

theorem Covers.parseOr_iff {α : Type} {read : String → RunResult α} {default a : α}
    (h : Covers names name below value) (ha : parseOr read default below = .ok a) :
    parseOr read default value = .ok a ↔ (name ∈ names → a = default) := by
  by_cases hname : name ∈ names
  · rw [parseOr, isBlank_iff.1 (h.isBlank hname)]
    simp [hname, eq_comm]
  · simp [h.eq hname, hname, ha]

/-! ## Parameters that are covered -/

/-- With blanks laid over the parameters of some names, `p` has become `q`. -/
structure Blanked (names : List String) (p q : RunParams) : Prop where
  texts : ∀ f ∈ textFields, Covers names f.1 (f.2 p) (f.2 q)
  /-- A duration is no number any more. -/
  refused : Variable.testDuration ∈ names → q.invalidDuration ≠ Option.none
  minutes : Variable.testDuration ∉ names → q.durationMinutes = p.durationMinutes
  invalid : Variable.testDuration ∉ names → q.invalidDuration = p.invalidDuration
  extraEnv : q.extraEnv = p.extraEnv

theorem parseInt64?_trim_of_blank {text : String} (h : ∀ c ∈ text.toList, Text.isBlank c = true) :
    Decimal.parseInt64? (Text.trim text) = Option.none := by
  rw [Text.trim_eq_empty_iff.2 h]
  rfl

/-- Blank variables lay blanks over what is below them. -/
theorem blanked_ofVariables (p : RunParams) {vars : List (String × String)}
    (hnodup : (vars.map (·.1)).Nodup) :
    Blanked (blankNames vars) (p.overlaidWith (ofVariables (withoutBlank vars)))
      (p.overlaidWith (ofVariables vars)) := by
  have hvalue : ∀ {name}, name ∈ blankNames vars → ∃ text,
      (NameMap.ofList vars).get? name = some text ∧ ∀ c ∈ text.toList, Text.isBlank c = true := by
    intro name hname
    obtain ⟨text, htext, hblank⟩ := (Variable.mem_blankNames_iff hnodup).1 hname
    rw [Variable.isBlank, Bool.and_eq_true, List.all_eq_true] at hblank
    exact ⟨text, htext, hblank.2⟩
  constructor
  case texts =>
    intro f hf
    rw [textFields_overlaidWith _ _ f hf, textFields_overlaidWith _ _ f hf, ofVariables_eq,
      ofVariables_eq, textFields_ofMap _ f hf, textFields_ofMap _ f hf]
    constructor
    · intro hname s hs
      obtain ⟨text, htext, hblank⟩ := hvalue hname
      rw [htext, Option.some_or, Option.some.injEq] at hs
      exact hs ▸ hblank
    · intro hname
      rw [Variable.get?_withoutBlank_of_not_mem hnodup hname]
  case refused =>
    intro hname
    obtain ⟨text, htext, hblank⟩ := hvalue hname
    rw [ofVariables_eq, overlaidWith]
    simp [ofMap, htext, parseInt64?_trim_of_blank hblank]
  case minutes =>
    intro hname
    simp only [overlaidWith, ofVariables_eq, ofMap,
      Variable.get?_withoutBlank_of_not_mem hnodup hname]
  case invalid =>
    intro hname
    simp only [overlaidWith, ofVariables_eq, ofMap,
      Variable.get?_withoutBlank_of_not_mem hnodup hname]
  case extraEnv =>
    -- A blank variable carries a parameter, and what carries one is not passed on.
    have hextra : (ofVariables vars).extraEnv = (ofVariables (withoutBlank vars)).extraEnv := by
      refine NameMap.eq_of_get?_eq fun name => ?_
      simp only [ofVariables_eq, get?_extraEnv_ofMap]
      by_cases hname : name ∈ blankNames vars
      · rw [Variable.isPassedOn_of_mem (Variable.mem_carriers_of_mem_blankNames hname)]
        rfl
      · rw [Variable.get?_withoutBlank_of_not_mem hnodup hname]
    simp only [overlaidWith, hextra]

/-! ## Where nothing is covered -/

theorem resolve_congr {p q : RunParams}
    (htexts : ∀ f ∈ textFields, nonBlank? (f.2 p) = nonBlank? (f.2 q))
    (hminutes : p.durationMinutes = q.durationMinutes)
    (hinvalid : p.invalidDuration = q.invalidDuration) (hextra : p.extraEnv = q.extraEnv)
    (policy : SelectorPolicy) : p.resolve policy = q.resolve policy := by
  simp only [textFields, List.forall_mem_cons, List.not_mem_nil, false_implies,
    implies_true, and_true]
    at htexts
  obtain ⟨hbackend, hregion, hzone, hami, hversion, hrepo, himage, hdb, hloader,
    hmonitor, hprovision, hname, hconfig, hrecipients⟩ := htexts
  simp only [resolve, artifactSource, artifactSources, parseOr, hbackend, hregion, hzone,
    hami, hversion, hrepo, himage, hdb, hloader, hmonitor, hprovision, hname, hconfig, hrecipients,
    hminutes, hinvalid, hextra]

/-- The parameters say nothing under some names, and the duration is not among these. -/
def LeavesBlank (p : RunParams) (names : List String) : Prop :=
  Variable.testDuration ∉ names ∧ ∀ f ∈ textFields, f.1 ∈ names → IsBlank (f.2 p)

/-- Blanks that are laid over nothing make no difference, be it to what resolves or to
what is refused. -/
theorem Blanked.resolve_eq {p q : RunParams} (h : Blanked names p q) (hp : p.LeavesBlank names)
    (policy : SelectorPolicy) : q.resolve policy = p.resolve policy := by
  refine resolve_congr (fun f hf => ?_) (h.minutes hp.1) (h.invalid hp.1) h.extraEnv policy
  by_cases hname : f.1 ∈ names
  · rw [isBlank_iff.1 ((h.texts f hf).isBlank hname), isBlank_iff.1 (hp.2 f hf hname)]
  · rw [(h.texts f hf).eq hname]

/-! ## Where something is covered -/

section Covered

variable {p q : RunParams} {policy : SelectorPolicy} {source : ArtifactSource}
  {c : RunConfiguration}

theorem Says.not_isBlank {value : Option String} {text : String} (h : Says value text) :
    ¬ IsBlank value :=
  not_isBlank_iff.2 ⟨text, h⟩

theorem Covers.says_iff {text : String} (h : Covers names name below value)
    (hbelow : Says below text) : Says value text ↔ name ∉ names := by
  constructor
  · exact fun hsays hname => hsays.not_isBlank (h.isBlank hname)
  · exact fun hname => h.eq hname ▸ hbelow

theorem Blanked.selectors (h : Blanked names p q) :
    Covers names Variable.amiId p.amiId q.amiId ∧
    Covers names Variable.version p.version q.version ∧
      Covers names Variable.repo p.repo q.repo ∧
        Covers names Variable.dockerImage p.dockerImage q.dockerImage := by
  have htexts := h.texts
  simp only [textFields, List.forall_mem_cons, List.not_mem_nil, false_implies,
    implies_true, and_true]
    at htexts
  obtain ⟨-, -, -, hami, hversion, hrepo, himage, -⟩ := htexts
  exact ⟨hami, hversion, hrepo, himage⟩

theorem regionsOr_eq_elim (p : RunParams) (backend : Backend) : p.regionsOr backend =
    (nonBlank? p.region).elim backend.defaultRegion fun r => Text.joinWith " " (Text.words r) := by
  rw [regionsOr]
  cases nonBlank? p.region <;> rfl

/-- The build that was named first is still the first exactly if nothing that names it
is covered. -/
theorem Blanked.namesFirst_iff (h : Blanked names p q) (hp : p.NamesFirst source) :
    q.NamesFirst source ↔ ∀ v ∈ source.overlay, v.1 ∉ names := by
  obtain ⟨hami, hversion, hrepo, himage⟩ := h.selectors
  -- What comes before the source was blank and stays so; what names it must not be covered.
  cases hp with
  | @ami id hid =>
    have hnames : q.NamesFirst (.ami id) ↔ Says q.amiId id := by
      refine ⟨fun h => ?_, .ami⟩
      cases h with
      | ami hi => exact hi
    rw [hnames, hami.says_iff hid]
    simp [ArtifactSource.overlay]
  | @dockerImage image version hnoAmi hsays hrides =>
    have hblank := hami.isBlank_of_isBlank hnoAmi
    have hnames : q.NamesFirst (.dockerImage image version) ↔
        Says q.dockerImage image ∧ Says q.version version := by
      refine ⟨fun h => ?_, fun h => .dockerImage hblank h.2 h.1⟩
      cases h with
      | dockerImage _ hv hi => exact ⟨hi, hv⟩
    rw [hnames, himage.says_iff hrides, hversion.says_iff hsays]
    simp [ArtifactSource.overlay]
  | @version version hnoAmi hsays hnoImage =>
    have hblank := hami.isBlank_of_isBlank hnoAmi
    have hbare := himage.isBlank_of_isBlank hnoImage
    have hnames : q.NamesFirst (.version version) ↔ Says q.version version := by
      refine ⟨fun h => ?_, fun h => .version hblank h hbare⟩
      cases h with
      | version _ hv _ => exact hv
    rw [hnames, hversion.says_iff hsays]
    simp [ArtifactSource.overlay]
  | @repo repo hnoAmi hnoVersion hsays =>
    have hblank := hami.isBlank_of_isBlank hnoAmi
    have hbare := hversion.isBlank_of_isBlank hnoVersion
    have hnames : q.NamesFirst (.repo repo) ↔ Says q.repo repo := by
      refine ⟨fun h => ?_, fun h => .repo hblank hbare h⟩
      cases h with
      | repo _ _ hr => exact hr
    rw [hnames, hrepo.says_iff hsays]
    simp [ArtifactSource.overlay]

/-- The build stays the same exactly if nothing that names it is covered, and no version under an
image. -/
theorem Blanked.artifactSource_iff (h : Blanked names p q)
    (hp : p.artifactSource policy = .ok source) :
    q.artifactSource policy = .ok source ↔
      (Variable.version ∈ names → IsBlank q.dockerImage) ∧ ∀ v ∈ source.overlay, v.1 ∉ names := by
  obtain ⟨hami, hversion, hrepo, himage⟩ := h.selectors
  obtain ⟨hrides, hfirst, hone⟩ := artifactSource_eq_ok_iff.1 hp
  have honlyOne : policy = .strict → q.NamesOneAtMost := by
    intro hstrict
    have hpairs := hone hstrict
    simp only [NamesOneAtMost, List.pairwise_cons, List.forall_mem_cons, List.not_mem_nil,
      false_implies, implies_true, and_true, List.Pairwise.nil] at hpairs ⊢
    obtain ⟨⟨hamiVersion, hamiRepo⟩, hversionRepo⟩ := hpairs
    exact ⟨⟨hamiVersion.imp hami.isBlank_of_isBlank hversion.isBlank_of_isBlank,
      hamiRepo.imp hami.isBlank_of_isBlank hrepo.isBlank_of_isBlank⟩,
      hversionRepo.imp hversion.isBlank_of_isBlank hrepo.isBlank_of_isBlank⟩
  have hridesStill : (IsBlank q.dockerImage ∨ ¬ IsBlank q.version) ↔
      (Variable.version ∈ names → IsBlank q.dockerImage) := by
    by_cases hname : Variable.version ∈ names
    · simp [hname, hversion.isBlank hname]
    · simp only [hname, false_implies, iff_true, hversion.eq hname]
      exact hrides.imp_left himage.isBlank_of_isBlank
  rw [artifactSource_eq_ok_iff, hridesStill, h.namesFirst_iff hfirst]
  exact ⟨fun hq => ⟨hq.1, hq.2.1⟩, fun hq => ⟨hq.1, hq.2, honlyOne⟩⟩

end Covered

end RunParams

/-- The configuration has its defaults in the parts that some names carry, and its build is named by
other ones. -/
structure RunConfiguration.HasDefaults (c : RunConfiguration) (names : List String) : Prop where
  backend : Variable.backend ∈ names → c.backend = .aws
  region : Variable.region ∈ names → c.region = c.backend.defaultRegion
  availabilityZone : Variable.availabilityZone ∈ names → c.availabilityZone = "a"
  source : ∀ v ∈ c.artifactSource.overlay, v.1 ∉ names
  dbNodes : Variable.postBehaviorDb ∈ names → c.disposal.dbNodes = .destroy
  loaderNodes : Variable.postBehaviorLoader ∈ names → c.disposal.loaderNodes = .destroy
  monitorNodes : Variable.postBehaviorMonitor ∈ names → c.disposal.monitorNodes = .destroy
  provisionType : Variable.provisionType ∈ names → c.provisionType = .spot
  testName : Variable.testName ∈ names → c.testName = defaultTestName
  testConfig : Variable.testConfig ∈ names → c.testConfig = none
  emailRecipients : Variable.emailRecipients ∈ names → c.emailRecipients = []

namespace RunParams

section Covered

variable {names : List String} {p q : RunParams} {policy : SelectorPolicy} {c : RunConfiguration}

/-- What resolves still does so, into the same configuration, exactly if it has its defaults
wherever something may have been covered. -/
theorem Blanked.resolves_iff (h : Blanked names p q) (hp : p.Resolves policy c) :
    q.Resolves policy c ↔
      Variable.testDuration ∉ names ∧ (Variable.version ∈ names → IsBlank q.dockerImage) ∧
        c.HasDefaults names := by
  have htexts := h.texts
  simp only [textFields, List.forall_mem_cons, List.not_mem_nil, false_implies,
    implies_true, and_true]
    at htexts
  obtain ⟨hbackend, hregion, hzone, -, -, -, -, hdb, hloader, hmonitor, hprovision, hname, hconfig,
    hrecipients⟩ := htexts
  have hregionIff : c.region = q.regionsOr c.backend ↔
      (Variable.region ∈ names → c.region = c.backend.defaultRegion) := by
    rw [regionsOr_eq_elim]
    exact hregion.read_iff (fun given => given.elim c.backend.defaultRegion fun r =>
      Text.joinWith " " (Text.words r)) (regionsOr_eq_elim p c.backend ▸ hp.region)
  have hrecipientsIff : c.emailRecipients = q.recipients ↔
      (Variable.emailRecipients ∈ names → c.emailRecipients = []) :=
    hrecipients.read_iff (fun given => (Text.fields (fun x => x == ',' || Text.isBlank x)
      (given.getD "").toList).map String.ofList) hp.emailRecipients
  -- A field read off one parameter stays exactly if it has its default where that is covered.
  have hzoneIff := hzone.read_iff (fun given => given.getD "a") hp.availabilityZone
  have hnameIff := hname.read_iff (fun given => given.getD defaultTestName) hp.testName
  have hconfigIff := hconfig.read_iff id hp.testConfig
  constructor
  · intro hq
    have hduration : Variable.testDuration ∉ names := fun hmem => h.refused hmem hq.wholeDuration
    obtain ⟨hrides, hsource⟩ := (h.artifactSource_iff hp.source).1 hq.source
    exact ⟨hduration, hrides,
      { backend := (hbackend.parseOr_iff hp.backend).1 hq.backend
        region := hregionIff.1 hq.region
        availabilityZone := hzoneIff.1 hq.availabilityZone
        source := hsource
        dbNodes := (hdb.parseOr_iff hp.dbNodes).1 hq.dbNodes
        loaderNodes := (hloader.parseOr_iff hp.loaderNodes).1 hq.loaderNodes
        monitorNodes := (hmonitor.parseOr_iff hp.monitorNodes).1 hq.monitorNodes
        provisionType := (hprovision.parseOr_iff hp.provisionType).1 hq.provisionType
        testName := hnameIff.1 hq.testName
        testConfig := hconfigIff.1 hq.testConfig
        emailRecipients := hrecipientsIff.1 hq.emailRecipients }⟩
  · rintro ⟨hduration, hrides, hdefaults⟩
    exact
      { backend := (hbackend.parseOr_iff hp.backend).2 hdefaults.backend
        source := (h.artifactSource_iff hp.source).2 ⟨hrides, hdefaults.source⟩
        region := hregionIff.2 hdefaults.region
        dbNodes := (hdb.parseOr_iff hp.dbNodes).2 hdefaults.dbNodes
        loaderNodes := (hloader.parseOr_iff hp.loaderNodes).2 hdefaults.loaderNodes
        monitorNodes := (hmonitor.parseOr_iff hp.monitorNodes).2 hdefaults.monitorNodes
        provisionType := (hprovision.parseOr_iff hp.provisionType).2 hdefaults.provisionType
        wholeDuration := (h.invalid hduration).trans hp.wholeDuration
        availabilityZone := hzoneIff.2 hdefaults.availabilityZone
        testName := hnameIff.2 hdefaults.testName
        testConfig := hconfigIff.2 hdefaults.testConfig
        durationMinutes := (h.minutes hduration) ▸ hp.durationMinutes
        emailRecipients := hrecipientsIff.2 hdefaults.emailRecipients
        overlay := h.extraEnv ▸ hp.overlay }

end Covered

/-- Without the blank variables, the parameters below are what is there under their names. -/
theorem leavesBlank_overlaidWith {p : RunParams} {vars : List (String × String)}
    (hnodup : (vars.map (·.1)).Nodup) (h : p.LeavesBlank (blankNames vars)) :
    (p.overlaidWith (ofVariables (withoutBlank vars))).LeavesBlank (blankNames vars) := by
  refine ⟨h.1, fun f hf hname => ?_⟩
  rw [textFields_overlaidWith _ _ f hf, ofVariables_eq, textFields_ofMap _ f hf,
    Variable.get?_withoutBlank_of_mem hnodup hname, Option.none_or]
  exact h.2 f hf hname

/-- **A blank variable counts as absent exactly where there is nothing to cover.** Blank variables
make no difference to what parameters resolve into, nor to why they are refused, if the parameters
below leave blank what the variables carry. A blank duration is always refused. And what resolves
without the blank variables resolves into the same with them exactly if no duration is among them,
no version under an image, and the configuration has its defaults in all that they carry. -/
theorem resolve_blank_variables (p : RunParams) {vars : List (String × String)}
    (hnodup : (vars.map (·.1)).Nodup) (policy : SelectorPolicy) :
    (p.LeavesBlank (blankNames vars) →
      (p.overlaidWith (ofVariables vars)).resolve policy =
        (p.overlaidWith (ofVariables (withoutBlank vars))).resolve policy) ∧
      (Variable.testDuration ∈ blankNames vars →
        ∀ c, (p.overlaidWith (ofVariables vars)).resolve policy ≠ .ok c) ∧
      ∀ c, (p.overlaidWith (ofVariables (withoutBlank vars))).resolve policy = .ok c →
        ((p.overlaidWith (ofVariables vars)).resolve policy = .ok c ↔
          Variable.testDuration ∉ blankNames vars ∧
            (Variable.version ∈ blankNames vars →
              IsBlank (p.overlaidWith (ofVariables vars)).dockerImage) ∧
            c.HasDefaults (blankNames vars)) := by
  have hblanked := blanked_ofVariables p hnodup
  refine ⟨fun h => ?_, fun hduration c hc => ?_, fun c hc => ?_⟩
  · exact hblanked.resolve_eq (leavesBlank_overlaidWith hnodup h) policy
  · exact hblanked.refused hduration (resolve_eq_ok_iff.1 hc).wholeDuration
  · rw [resolve_eq_ok_iff]
    exact hblanked.resolves_iff (resolve_eq_ok_iff.1 hc)

/-- A document that names a place, a build and a duration. -/
def placedParams : RunParams :=
  { backend := some "gce", region := some "us-west1", amiId := some "ami-1",
    durationMinutes := some 30 }

/-- What the document resolves into. -/
def placedConfiguration : RunConfiguration where
  backend := .gce
  region := "us-west1"
  availabilityZone := "a"
  artifactSource := .ami "ami-1"
  disposal := ⟨.destroy, .destroy, .destroy⟩
  provisionType := .spot
  testName := defaultTestName
  testConfig := Option.none
  durationMinutes := 30
  emailRecipients := []
  overlay := NameMap.ofList (decidedOverlay .gce "us-west1" "a" (.ami "ami-1")
    ⟨.destroy, .destroy, .destroy⟩ .spot Option.none)

/-- A blank zone has nothing to cover, a blank region has. A blank duration is refused. -/
theorem resolve_blank_variables_placed :
    ([Variable.availabilityZone].Nodup ∧ placedParams.LeavesBlank [Variable.availabilityZone] ∧
      (placedParams.overlaidWith
          (ofVariables [(Variable.availabilityZone, "\t")])).resolve .strict =
        (placedParams.overlaidWith (ofVariables [])).resolve .strict) ∧
      ((placedParams.overlaidWith (ofVariables [])).resolve .strict = .ok placedConfiguration ∧
        (placedParams.overlaidWith (ofVariables [(Variable.region, " ")])).resolve .strict ≠
          .ok placedConfiguration) ∧
      Variable.testDuration ∈ blankNames [(Variable.testDuration, "")] ∧
        (placedParams.overlaidWith (ofVariables [(Variable.testDuration, "")])).resolve .strict ≠
          .ok placedConfiguration := by
  have hzone : placedParams.LeavesBlank [Variable.availabilityZone] := by
    simp only [LeavesBlank, isBlank_iff]
    decide
  have hok : (placedParams.overlaidWith (ofVariables [])).resolve .strict =
      .ok placedConfiguration :=
    eq_ok_of_toOption (by decide +kernel)
  obtain ⟨hsame, -, -⟩ := @resolve_blank_variables placedParams
    [(Variable.availabilityZone, "\t")] (by decide) .strict
  obtain ⟨-, -, hexact⟩ := @resolve_blank_variables placedParams
    [(Variable.region, " ")] (by decide) .strict
  obtain ⟨-, hrefused, -⟩ := @resolve_blank_variables placedParams
    [(Variable.testDuration, "")] (by decide) .strict
  refine ⟨⟨by decide, hzone, hsame hzone⟩, ⟨hok, fun h => ?_⟩, by decide,
    hrefused (by decide) _⟩
  have hdefault := ((hexact _ hok).1 h).2.2.region (by decide)
  revert hdefault
  decide

/-- A blank variable takes away the build or the backend that a document names, and a blank duration
has the document refused. -/
theorem blank_variables_cover :
    (placedParams.overlaidWith (ofVariables [(Variable.amiId, "")])).resolve .firstMatch ≠
        (placedParams.overlaidWith (ofVariables (withoutBlank [(Variable.amiId, "")]))).resolve
          .firstMatch ∧
      (placedParams.overlaidWith (ofVariables [(Variable.backend, "")])).resolve .firstMatch ≠
        (placedParams.overlaidWith (ofVariables (withoutBlank [(Variable.backend, "")]))).resolve
          .firstMatch ∧
      (placedParams.overlaidWith (ofVariables [(Variable.testDuration, "")])).resolve .firstMatch ≠
        (placedParams.overlaidWith
          (ofVariables (withoutBlank [(Variable.testDuration, "")]))).resolve .firstMatch := by
  have hdiffer : ∀ {x y : RunResult RunConfiguration}, x.toOption ≠ y.toOption → x ≠ y :=
    fun hne heq => hne (congrArg Except.toOption heq)
  exact ⟨hdiffer (by decide +kernel), hdiffer (by decide +kernel), hdiffer (by decide +kernel)⟩

end RunParams

end Stagehand

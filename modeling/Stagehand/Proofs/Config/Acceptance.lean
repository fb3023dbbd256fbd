import Stagehand.Proofs.Config.RoundTrip

/-!
# Which parameters are accepted

Parameters resolve exactly if each of them, on its own or beside the others, is what it has to be
(`RunParams.Acceptable`); else they are refused as a faulty configuration. The configuration that
they resolve into is tested on the build that is named first, and tells its parts to the test in
spite of the variables that are passed on. The strict policy only refuses more than the other: what
both accept becomes the same configuration (`RunParams.resolve_correct`).

A parameter is looked at in one of two ways. It **is blank** if nothing but blanks was given, which
is the same as nothing; else it **says** a text, the one between the blanks at its ends. Both are
stated on the characters that were given.
-/

namespace Stagehand

/-! ## Refusals -/

/-- Whatever refuses does so for a faulty configuration. -/
def RefusesConfiguration {α : Type} (x : RunResult α) : Prop :=
  ∀ e, x = .error e → ∃ cause, e = .configuration cause

theorem refusesConfiguration_ok {α : Type} (a : α) : RefusesConfiguration (.ok a : RunResult α) :=
  fun _ h => nomatch h

theorem refusesConfiguration_refuse {α : Type} (cause : ConfigError) :
    RefusesConfiguration (refuse cause : RunResult α) :=
  fun _ h => ⟨cause, (Except.error.inj h).symm⟩

theorem RefusesConfiguration.bind {α β : Type} {x : RunResult α} {f : α → RunResult β}
    (hx : RefusesConfiguration x) (hf : ∀ a, RefusesConfiguration (f a)) :
    RefusesConfiguration (x >>= f) := by
  cases x with
  | ok a => exact hf a
  | error e =>
    intro e' h
    obtain rfl : e = e' := Except.error.inj h
    exact hx e rfl

/-! ## Reading a name -/

/-- What was found, or a refusal. -/
def orRefuse {α : Type} (found : Option α) (cause : ConfigError) : RunResult α :=
  found.elim (refuse cause) .ok

theorem refusesConfiguration_orRefuse {α : Type} (found : Option α) (cause : ConfigError) :
    RefusesConfiguration (orRefuse found cause) := by
  cases found with
  | some a => exact refusesConfiguration_ok a
  | none => exact refusesConfiguration_refuse cause

/-- A name is found among those of all exactly if it is one of them. -/
theorem exists_orRefuse_eq_ok_iff {α : Type} {all : List α} (hall : ∀ a, a ∈ all)
    (name : α → String) (wanted : String) (cause : ConfigError) :
    (∃ a, orRefuse (all.find? fun a => name a == wanted) cause = .ok a) ↔ ∃ a, name a = wanted := by
  have hfound : ∀ found : Option α, (∃ a, orRefuse found cause = .ok a) ↔ found.isSome := by
    rintro (_ | a) <;> simp [orRefuse, refuse]
  rw [hfound, List.find?_isSome]
  simp [hall]

theorem Backend.parse_eq (s : String) :
    parse s = orRefuse (all.find? fun b => b.name == Text.asciiLower (Text.trim s))
      (.unknownBackend s (all.map name)) := by
  rw [parse]
  cases all.find? fun b => b.name == Text.asciiLower (Text.trim s) <;> rfl

theorem PostBehavior.parse_eq (s : String) :
    parse s = orRefuse ([keep, keepOnFailure, destroy].find? fun b => b.name == Text.trim s)
      (.unknownPostBehavior (Text.trim s)) := by
  rw [parse]
  cases [keep, keepOnFailure, destroy].find? fun b => b.name == Text.trim s <;> rfl

theorem ProvisionType.parse_eq (s : String) :
    parse s = orRefuse ([spot, onDemand, spotLowPrice].find? fun t => t.name == Text.trim s)
      (.unknownProvisionType (Text.trim s)) := by
  rw [parse]
  cases [spot, onDemand, spotLowPrice].find? fun t => t.name == Text.trim s <;> rfl

theorem Backend.exists_parse_eq_ok_iff (s : String) :
    (∃ b, parse s = .ok b) ↔ ∃ b : Backend, b.name = Text.asciiLower (Text.trim s) := by
  have hall : ∀ b, b ∈ all := by rintro (_ | _) <;> decide
  simp only [parse_eq]
  exact exists_orRefuse_eq_ok_iff hall name _ _

theorem PostBehavior.exists_parse_eq_ok_iff (s : String) :
    (∃ b, parse s = .ok b) ↔ ∃ b : PostBehavior, b.name = Text.trim s := by
  have hall : ∀ b, b ∈ [keep, keepOnFailure, destroy] := by rintro (_ | _) <;> decide
  simp only [parse_eq]
  exact exists_orRefuse_eq_ok_iff hall name _ _

theorem ProvisionType.exists_parse_eq_ok_iff (s : String) :
    (∃ t, parse s = .ok t) ↔ ∃ t : ProvisionType, t.name = Text.trim s := by
  have hall : ∀ t, t ∈ [spot, onDemand, spotLowPrice] := by rintro (_ | _) <;> decide
  simp only [parse_eq]
  exact exists_orRefuse_eq_ok_iff hall name _ _

namespace RunParams

/-! ## What a parameter says -/

/-- Nothing but blanks is given. -/
def IsBlank (value : Option String) : Prop :=
  ∀ s, value = some s → ∀ c ∈ s.toList, Text.isBlank c = true

/-- The text stands between blanks, and ends in none itself. -/
structure Says (value : Option String) (text : String) : Prop where
  padded : ∃ before after : List Char, (∀ c ∈ before ++ after, Text.isBlank c = true) ∧
    value = some (String.ofList (before ++ text.toList ++ after))
  ends : ∃ first last : Char, text.toList.head? = some first ∧ text.toList.getLast? = some last ∧
    Text.isBlank first = false ∧ Text.isBlank last = false

theorem isBlank_iff {value : Option String} : IsBlank value ↔ nonBlank? value = Option.none := by
  cases value with
  | none => exact ⟨fun _ => rfl, fun _ s hs => nomatch hs⟩
  | some s =>
    have hblank : IsBlank (some s) ↔ Text.trim s = "" := by
      rw [Text.trim_eq_empty_iff]
      exact ⟨fun h => h s rfl, fun h _ hs => Option.some.inj hs ▸ h⟩
    rw [hblank]
    simp [nonBlank?]

theorem says_iff {value : Option String} {text : String} :
    Says value text ↔ nonBlank? value = some text := by
  constructor
  · rintro ⟨⟨before, after, hblank, rfl⟩, first, last, hfirst, hlast, hends⟩
    have htrim : Text.trim (String.ofList (before ++ text.toList ++ after)) = text := by
      rw [Text.trim, String.toList_ofList, Text.trimmed_append hblank hfirst hlast hends,
        String.ofList_toList]
    have hne : text ≠ "" := by
      rintro rfl
      cases hfirst
    rw [nonBlank?, Option.map_some, htrim, Option.filter_some, if_pos (by simpa using hne)]
  · intro h
    obtain ⟨hv, hne⟩ := Option.filter_eq_some_iff.1 h
    obtain ⟨s, rfl, rfl⟩ := Option.map_eq_some_iff.1 hv
    have htoList : (Text.trim s).toList = Text.trimmed s.toList := String.toList_ofList
    have hleft : Text.trimmed s.toList ≠ [] := by
      rw [← htoList]
      simpa using hne
    obtain ⟨before, after, hblank, hs⟩ := Text.exists_eq_append_trimmed s.toList
    refine ⟨⟨before, after, hblank, ?_⟩, ?_⟩
    · rw [htoList, ← hs, String.ofList_toList]
    · rw [htoList]
      exact Text.exists_ends_of_trimmed_ne_nil hleft

theorem not_isBlank_iff {value : Option String} : ¬ IsBlank value ↔ ∃ text, Says value text := by
  simp only [isBlank_iff, says_iff, ← Option.ne_none_iff_exists', ne_eq]

theorem Says.trim_eq {value : Option String} {text : String} (h : Says value text) :
    Text.trim text = text :=
  (isGiven_iff.1 (isGiven_of_nonBlank? (says_iff.1 h))).1

/-! ## The source -/

variable {p : RunParams} {policy : SelectorPolicy} {source : ArtifactSource}

/-- The first build that is named, in the order AMI, version, repository. A version that comes with
an image stands for the image. -/
inductive NamesFirst (p : RunParams) : ArtifactSource → Prop
  | ami {id : String} (hami : Says p.amiId id) : NamesFirst p (.ami id)
  | dockerImage {image version : String} (hami : IsBlank p.amiId)
      (hversion : Says p.version version)
      (himage : Says p.dockerImage image) : NamesFirst p (.dockerImage image version)
  | version {version : String} (hami : IsBlank p.amiId) (hversion : Says p.version version)
      (himage : IsBlank p.dockerImage) : NamesFirst p (.version version)
  | repo {repo : String} (hami : IsBlank p.amiId) (hversion : IsBlank p.version)
      (hrepo : Says p.repo repo) : NamesFirst p (.repo repo)

/-- Of any two selectors of a build one is blank. -/
def NamesOneAtMost (p : RunParams) : Prop :=
  [p.amiId, p.version, p.repo].Pairwise fun a b => IsBlank a ∨ IsBlank b

theorem head?_artifactSources_eq_some_iff :
    p.artifactSources.head? = some source ↔ p.NamesFirst source := by
  constructor
  · intro h
    -- The selectors in their order: the first that is not blank decides.
    cases hami : nonBlank? p.amiId with
    | some id =>
      obtain rfl : .ami id = source := by simpa [artifactSources, hami] using h
      exact .ami (says_iff.2 hami)
    | none =>
      cases hversion : nonBlank? p.version with
      | some version =>
        cases himage : nonBlank? p.dockerImage with
        | some image =>
          obtain rfl : .dockerImage image version = source := by
            simpa [artifactSources, hami, hversion, himage] using h
          exact .dockerImage (isBlank_iff.2 hami) (says_iff.2 hversion) (says_iff.2 himage)
        | none =>
          obtain rfl : .version version = source := by
            simpa [artifactSources, hami, hversion, himage] using h
          exact .version (isBlank_iff.2 hami) (says_iff.2 hversion) (isBlank_iff.2 himage)
      | none =>
        obtain ⟨repo, hrepo, rfl⟩ : ∃ repo, nonBlank? p.repo = some repo ∧ .repo repo = source := by
          simpa [artifactSources, hami, hversion] using h
        exact .repo (isBlank_iff.2 hami) (isBlank_iff.2 hversion) (says_iff.2 hrepo)
  · rintro (hami | ⟨hami, hversion, himage⟩ | ⟨hami, hversion, himage⟩ | ⟨hami, hversion, hrepo⟩)
      <;>
    simp_all [artifactSources, says_iff, isBlank_iff]

theorem artifactSources_eq_nil_iff :
    p.artifactSources = [] ↔ IsBlank p.amiId ∧ IsBlank p.version ∧ IsBlank p.repo := by
  simp [artifactSources, isBlank_iff]

theorem length_artifactSources_le_one_iff : p.artifactSources.length ≤ 1 ↔ p.NamesOneAtMost := by
  cases hami : nonBlank? p.amiId <;> cases hversion : nonBlank? p.version <;>
    cases hrepo : nonBlank? p.repo <;>
    simp [artifactSources, NamesOneAtMost, isBlank_iff, hami, hversion, hrepo]

/-- The source is the one named first, if it is allowed to name more. -/
theorem artifactSource_eq_ok_iff :
    p.artifactSource policy = .ok source ↔
      (IsBlank p.dockerImage ∨ ¬ IsBlank p.version) ∧ p.NamesFirst source ∧
        (policy = .strict → p.NamesOneAtMost) := by
  rw [← head?_artifactSources_eq_some_iff, ← length_artifactSources_le_one_iff, isBlank_iff,
    isBlank_iff]
  have hfits : (nonBlank? p.dockerImage = Option.none ∨ ¬ nonBlank? p.version = Option.none) ↔
      ¬ ((nonBlank? p.dockerImage).isSome && (nonBlank? p.version).isNone) = true := by
    cases nonBlank? p.dockerImage <;> cases nonBlank? p.version <;> simp
  rw [hfits]
  unfold artifactSource
  by_cases himage : ((nonBlank? p.dockerImage).isSome && (nonBlank? p.version).isNone) = true
  · rw [if_pos himage]
    simp [himage, refuse]
  · rw [if_neg himage]
    rcases p.artifactSources with _ | ⟨first, _ | ⟨second, rest⟩⟩ <;> cases policy <;>
      simp [refuse, himage]

/-! ## Parameters that say a name -/

theorem exists_parseOr_eq_ok_iff {α : Type} {read : String → RunResult α} {default : α}
    {value : Option String} :
    (∃ a, parseOr read default value = .ok a) ↔
      IsBlank value ∨ ∃ text, Says value text ∧ ∃ a, read text = .ok a := by
  simp only [isBlank_iff, says_iff]
  cases h : nonBlank? value with
  | none => simp [parseOr, h]
  | some text => simp [parseOr, h]

theorem exists_parseOr_backend_iff :
    (∃ b, parseOr Backend.parse .aws p.backend = .ok b) ↔
      IsBlank p.backend ∨ ∃ text, Says p.backend text ∧
      ∃ b : Backend, b.name = Text.asciiLower text := by
  rw [exists_parseOr_eq_ok_iff]
  refine or_congr_right (exists_congr fun text => and_congr_right fun htext => ?_)
  rw [Backend.exists_parse_eq_ok_iff, htext.trim_eq]

/-- What reads no more than a name accepts what says one. -/
theorem exists_parseOr_name_iff {α : Type} {read : String → RunResult α} {default : α}
    {name : α → String} (hread : ∀ s, (∃ a, read s = .ok a) ↔ ∃ a, name a = Text.trim s)
    {value : Option String} :
    (∃ a, parseOr read default value = .ok a) ↔ IsBlank value ∨ ∃ a, Says value (name a) := by
  rw [exists_parseOr_eq_ok_iff]
  refine or_congr_right ⟨?_, ?_⟩
  · rintro ⟨text, htext, hok⟩
    obtain ⟨a, ha⟩ := (hread text).1 hok
    rw [htext.trim_eq] at ha
    exact ⟨a, ha ▸ htext⟩
  · rintro ⟨a, ha⟩
    exact ⟨name a, ha, (hread _).2 ⟨a, ha.trim_eq.symm⟩⟩

theorem exists_parseOr_postBehavior_iff {value : Option String} :
    (∃ b, parseOr PostBehavior.parse .destroy value = .ok b) ↔
      IsBlank value ∨ ∃ b : PostBehavior, Says value b.name :=
  exists_parseOr_name_iff PostBehavior.exists_parse_eq_ok_iff

theorem exists_parseOr_provisionType_iff {value : Option String} :
    (∃ t, parseOr ProvisionType.parse .spot value = .ok t) ↔
      IsBlank value ∨ ∃ t : ProvisionType, Says value t.name :=
  exists_parseOr_name_iff ProvisionType.exists_parse_eq_ok_iff

/-! ## Acceptance -/

/-- What parameters have to be to make a configuration. -/
structure Acceptable (p : RunParams) (policy : SelectorPolicy) : Prop where
  /-- The backend is known; capital letters do not count. -/
  backend : IsBlank p.backend ∨
    ∃ text, Says p.backend text ∧ ∃ b : Backend, b.name = Text.asciiLower text
  /-- An image rides on a version. -/
  image : IsBlank p.dockerImage ∨ ¬ IsBlank p.version
  source : ¬ IsBlank p.amiId ∨ ¬ IsBlank p.version ∨ ¬ IsBlank p.repo
  onlySource : policy = .strict → p.NamesOneAtMost
  dbNodes : IsBlank p.postBehaviorDb ∨ ∃ b : PostBehavior, Says p.postBehaviorDb b.name
  loaderNodes : IsBlank p.postBehaviorLoader ∨ ∃ b : PostBehavior, Says p.postBehaviorLoader b.name
  monitorNodes :
    IsBlank p.postBehaviorMonitor ∨ ∃ b : PostBehavior, Says p.postBehaviorMonitor b.name
  provisionType : IsBlank p.provisionType ∨ ∃ t : ProvisionType, Says p.provisionType t.name
  /-- The duration was a whole number. -/
  duration : p.invalidDuration = Option.none

theorem exists_artifactSource_eq_ok_iff :
    (∃ source, p.artifactSource policy = .ok source) ↔
      (IsBlank p.dockerImage ∨ ¬ IsBlank p.version) ∧
        (¬ IsBlank p.amiId ∨ ¬ IsBlank p.version ∨ ¬ IsBlank p.repo) ∧
          (policy = .strict → p.NamesOneAtMost) := by
  have hfirst : (∃ source, p.NamesFirst source) ↔
      ¬ IsBlank p.amiId ∨ ¬ IsBlank p.version ∨ ¬ IsBlank p.repo := by
    rw [← not_and_or, ← not_and_or, ← artifactSources_eq_nil_iff]
    simp only [← head?_artifactSources_eq_some_iff, ← Option.ne_none_iff_exists', ne_eq,
      List.head?_eq_none_iff]
  simp only [artifactSource_eq_ok_iff, exists_and_left, exists_and_right, hfirst]

/-- Parameters resolve exactly if they are acceptable. -/
theorem exists_resolve_eq_ok_iff : (∃ c, p.resolve policy = .ok c) ↔ p.Acceptable policy := by
  constructor
  · rintro ⟨c, hc⟩
    have h := resolve_eq_ok_iff.1 hc
    obtain ⟨himage, hsource, honly⟩ := exists_artifactSource_eq_ok_iff.1 ⟨_, h.source⟩
    exact
      { backend := exists_parseOr_backend_iff.1 ⟨_, h.backend⟩
        image := himage
        source := hsource
        onlySource := honly
        dbNodes := exists_parseOr_postBehavior_iff.1 ⟨_, h.dbNodes⟩
        loaderNodes := exists_parseOr_postBehavior_iff.1 ⟨_, h.loaderNodes⟩
        monitorNodes := exists_parseOr_postBehavior_iff.1 ⟨_, h.monitorNodes⟩
        provisionType := exists_parseOr_provisionType_iff.1 ⟨_, h.provisionType⟩
        duration := h.wholeDuration }
  · intro h
    obtain ⟨backend, hbackend⟩ := exists_parseOr_backend_iff.2 h.backend
    obtain ⟨source, hsource⟩ := exists_artifactSource_eq_ok_iff.2 ⟨h.image, h.source, h.onlySource⟩
    obtain ⟨dbNodes, hdb⟩ := exists_parseOr_postBehavior_iff.2 h.dbNodes
    obtain ⟨loaderNodes, hloader⟩ := exists_parseOr_postBehavior_iff.2 h.loaderNodes
    obtain ⟨monitorNodes, hmonitor⟩ := exists_parseOr_postBehavior_iff.2 h.monitorNodes
    obtain ⟨provisionType, hprovision⟩ := exists_parseOr_provisionType_iff.2 h.provisionType
    unfold resolve
    rw [hbackend, hsource, hdb, hloader, hmonitor, hprovision, h.duration]
    exact ⟨_, rfl⟩

/-! ## What is refused -/

theorem refusesConfiguration_parseOr {α : Type} {read : String → RunResult α}
    (hread : ∀ s, RefusesConfiguration (read s)) (default : α) (value : Option String) :
    RefusesConfiguration (parseOr read default value) := by
  unfold parseOr
  split
  · exact hread _
  · exact refusesConfiguration_ok default

theorem refusesConfiguration_artifactSource (p : RunParams) (policy : SelectorPolicy) :
    RefusesConfiguration (p.artifactSource policy) := by
  unfold artifactSource
  split
  · exact refusesConfiguration_refuse _
  · split
    · exact refusesConfiguration_refuse _
    · exact refusesConfiguration_refuse _
    · exact refusesConfiguration_ok _

theorem refusesConfiguration_resolve (p : RunParams) (policy : SelectorPolicy) :
    RefusesConfiguration (p.resolve policy) := by
  have hbackend : ∀ s, RefusesConfiguration (Backend.parse s) := fun s =>
    Backend.parse_eq s ▸ refusesConfiguration_orRefuse _ _
  have hbehavior : ∀ s, RefusesConfiguration (PostBehavior.parse s) := fun s =>
    PostBehavior.parse_eq s ▸ refusesConfiguration_orRefuse _ _
  have hprovision : ∀ s, RefusesConfiguration (ProvisionType.parse s) := fun s =>
    ProvisionType.parse_eq s ▸ refusesConfiguration_orRefuse _ _
  refine .bind (refusesConfiguration_parseOr hbackend _ _) fun _ => ?_
  refine .bind (refusesConfiguration_artifactSource p policy) fun _ => ?_
  refine .bind (refusesConfiguration_parseOr hbehavior _ _) fun _ => ?_
  refine .bind (refusesConfiguration_parseOr hbehavior _ _) fun _ => ?_
  refine .bind (refusesConfiguration_parseOr hbehavior _ _) fun _ => ?_
  refine .bind (refusesConfiguration_parseOr hprovision _ _) fun _ => ?_
  cases p.invalidDuration with
  | some text => exact refusesConfiguration_refuse _
  | none => exact refusesConfiguration_ok _

end RunParams

/-! ## What an accepted configuration tells -/

/-- Words, at least one, with one space between them and no other blank. -/
def Text.SingleSpaced (s : String) : Prop :=
  ∃ words : List String, words ≠ [] ∧ (∀ w ∈ words, w ≠ "" ∧ ∀ c ∈ w.toList, isBlank c = false) ∧
    s = joinWith " " words

/-- What was decided is told to the test, and of the variables that are passed on all others. -/
structure RunConfiguration.Tells (c : RunConfiguration) (extra : NameMap String) : Prop where
  decided : ∀ v ∈ c.decided, c.overlay.get? v.1 = some v.2
  passedOn : ∀ name, name ∉ c.decided.map Prod.fst → c.overlay.get? name = extra.get? name

namespace RunParams

variable {p : RunParams} {policy : SelectorPolicy} {c : RunConfiguration}

theorem Resolves.singleSpaced (h : p.Resolves policy c) : Text.SingleSpaced c.region := by
  rw [h.region]
  refine ⟨Text.words (p.regionsOr c.backend), ?_, fun w hw => ?_,
    (joinWith_words_regionsOr p _).symm⟩
  · rw [Ne, Text.words_eq_nil_iff]
    exact trim_regionsOr_ne p c.backend
  · obtain ⟨cs, hcs, rfl⟩ := List.mem_map.1 hw
    obtain ⟨hne, hblank⟩ := Text.of_mem_fields hcs
    exact ⟨by simpa using hne, by simpa using hblank⟩

theorem Resolves.tells (h : p.Resolves policy c) : c.Tells p.extraEnv where
  decided := fun _ hv => h.get?_overlay_of_mem hv
  passedOn := by
    intro name hname
    have hfree : c.decided.lookup name = Option.none := by
      refine List.lookup_eq_none_iff.2 fun v hv => bne_iff_ne.2 ?_
      rintro rfl
      exact hname (List.mem_map_of_mem hv)
    rw [h.get?_overlay, hfree, Option.none_or]

/-- The strict policy makes nothing that the other would not make. -/
theorem Resolves.firstMatch (h : p.Resolves .strict c) : p.Resolves .firstMatch c := by
  obtain ⟨himage, hfirst, -⟩ := artifactSource_eq_ok_iff.1 h.source
  exact { h with source := artifactSource_eq_ok_iff.2 ⟨himage, hfirst, fun hc => nomatch hc⟩ }

/-- **Resolution accepts exactly the valid parameters.** All others are refused as a faulty
configuration. What is accepted is tested on the build that is named first, tells what was decided
in spite of the variables that are passed on, and names its regions with one space between them.
What the strict policy accepts, the other accepts as the same configuration. -/
theorem resolve_correct (p : RunParams) (policy : SelectorPolicy) :
    ((∃ c, p.resolve policy = .ok c) ↔ p.Acceptable policy) ∧
      (∀ e, p.resolve policy = .error e → ∃ cause, e = .configuration cause) ∧
      (∀ c, p.resolve policy = .ok c →
        p.NamesFirst c.artifactSource ∧ c.Tells p.extraEnv ∧ Text.SingleSpaced c.region) ∧
      ∀ c, p.resolve .strict = .ok c → p.resolve .firstMatch = .ok c := by
  refine ⟨exists_resolve_eq_ok_iff, refusesConfiguration_resolve p policy, fun c hc => ?_,
    fun c hc => resolve_eq_ok_iff.2 (resolve_eq_ok_iff.1 hc).firstMatch⟩
  have h := resolve_eq_ok_iff.1 hc
  exact ⟨(artifactSource_eq_ok_iff.1 h.source).2.1, h.tells, h.singleSpaced⟩

/-- A version and a backend in need of trimming, and variables one of which names
another version. -/
def contradictedParams : RunParams :=
  { backend := some " GCE", region := some "us-east1 \t us-west1 ", amiId := some "\n"
    version := some "5.2 "
    extraEnv :=
      NameMap.ofList [(Variable.version, "4.6"), (Variable.repo, "old"), ("SCT_N_DB_NODES", "3")] }

/-- The configuration that these parameters make. -/
def contradictedConfiguration : RunConfiguration where
  backend := .gce
  region := "us-east1 us-west1"
  availabilityZone := "a"
  artifactSource := .version "5.2"
  disposal := ⟨.destroy, .destroy, .destroy⟩
  provisionType := .spot
  testName := defaultTestName
  testConfig := Option.none
  durationMinutes := defaultDuration
  emailRecipients := []
  overlay := NameMap.ofList ([(Variable.repo, "old"), ("SCT_N_DB_NODES", "3")] ++
    decidedOverlay .gce "us-east1 us-west1" "a" (.version "5.2")
      ⟨.destroy, .destroy, .destroy⟩ .spot
      Option.none)

theorem resolve_contradictedParams :
    contradictedParams.resolve .strict = .ok contradictedConfiguration :=
  eq_ok_of_toOption (by decide +kernel)

theorem resolve_correct_contradicted :
    (contradictedParams.resolve .strict = .ok contradictedConfiguration ∧
      contradictedParams.Acceptable .strict ∧
      contradictedParams.NamesFirst (.version "5.2") ∧
      contradictedConfiguration.Tells contradictedParams.extraEnv ∧
      Text.SingleSpaced "us-east1 us-west1" ∧
      contradictedParams.resolve .firstMatch = .ok contradictedConfiguration) ∧
      ∃ cause, RunError.configuration ConfigError.noArtifactSource = .configuration cause := by
  have hok := resolve_contradictedParams
  obtain ⟨haccept, -, hparts, hpolicy⟩ := resolve_correct contradictedParams .strict
  obtain ⟨hfirst, htells, hspaced⟩ := hparts _ hok
  obtain ⟨-, hrefuse, -, -⟩ := resolve_correct RunParams.none .strict
  exact ⟨⟨hok, haccept.1 ⟨_, hok⟩, hfirst, htells, hspaced, hpolicy _ hok⟩, hrefuse _ rfl⟩

end RunParams

end Stagehand

import Stagehand.Proofs.Text.Replacement
import Stagehand.Remote.Runner

/-!
# A secret is never shown

A command is shown in four ways: text of its own masked, its command line, the failure that is made
of its output, and the command line with the variables in front. In none of them a secret of the
command is left, as it is or as it is written inside quotes (`CommandSpec.hides_of_mem_secrets`).

Every mask is applied to the whole text, one after the other. What carries the proof is that a mask
shares no character with a secret: the secret that was masked is gone, and no later mask brings it
back, be it a part of another secret or cut by one. A secret with an asterisk in it has no such
protection.

In front of the command line stand the names of variables, signs of equality and blanks, which
are not masked. So this way of showing a command only hides the secrets that none of these can
be a part of.
-/

namespace Stagehand

/-- A secret does not occur in a text, neither as it is nor as it is written inside quotes. -/
structure HiddenIn (secret text : String) : Prop where
  raw : ¬ secret.toList <:+: text.toList
  quoted : ¬ Shell.escapeQuotes secret.toList <:+: text.toList

instance (secret text : String) : Decidable (HiddenIn secret text) :=
  decidable_of_iff (¬ Text.occursIn secret.toList text.toList = true ∧
      ¬ Text.occursIn (Shell.escapeQuotes secret.toList) text.toList = true) <| by
    rw [Text.occursIn_iff, Text.occursIn_iff]
    exact ⟨fun h => ⟨h.1, h.2⟩, fun h => ⟨h.1, h.2⟩⟩

/-! ## Masking -/

theorem mask_ne_nil : mask.toList ≠ [] := by decide

theorem disjoint_mask_iff {u : List Char} : u.Disjoint mask.toList ↔ '*' ∉ u := by
  have hmask : ∀ c, c ∈ mask.toList ↔ c = '*' := by simp [mask]
  constructor
  · intro h hmem
    exact h hmem ((hmask _).2 rfl)
  · intro h c hmem hc
    rw [(hmask c).1 hc] at hmem
    exact h hmem

theorem not_infix_mask {u : List Char} (hne : u ≠ []) (hstar : '*' ∉ u) : ¬ u <:+: mask.toList := by
  intro h
  have hpart : u <:+: mask.toList ++ [] := by rwa [List.append_nil]
  exact hne (List.infix_nil.1 (Text.infix_of_infix_append (disjoint_mask_iff.2 hstar) hpart))

theorem toList_ne_nil {s : String} (h : s ≠ "") : s.toList ≠ [] := by
  simpa using h

namespace CommandSpec

theorem not_mem_escapeQuotes {u : List Char} (hu : '*' ∉ u) : '*' ∉ Shell.escapeQuotes u := by
  rwa [Shell.mem_escapeQuotes (by decide)]

theorem maskSecret_eq_ite (s cs : List Char) :
    maskSecret s cs =
      if Shell.escapeQuotes s = s then Text.replaceAll s mask.toList cs
      else Text.replaceAll (Shell.escapeQuotes s) mask.toList
        (Text.replaceAll s mask.toList cs) := rfl

theorem infix_of_infix_maskSecret {s u cs : List Char} (hu : '*' ∉ u)
    (h : u <:+: maskSecret s cs) : u <:+: cs := by
  have hdisj := disjoint_mask_iff.2 hu
  rw [maskSecret_eq_ite] at h
  split at h
  · exact Text.infix_of_infix_replaceAll mask_ne_nil hdisj h
  · exact Text.infix_of_infix_replaceAll mask_ne_nil hdisj
      (Text.infix_of_infix_replaceAll mask_ne_nil hdisj h)

theorem not_infix_maskSecret {s : List Char} (hs : s ≠ []) (hstar : '*' ∉ s) (cs : List Char) :
    ¬ s <:+: maskSecret s cs ∧ ¬ Shell.escapeQuotes s <:+: maskSecret s cs := by
  have hdisj := disjoint_mask_iff.2 hstar
  have hraw : ¬ s <:+: Text.replaceAll s mask.toList cs :=
    Text.not_infix_replaceAll hs mask_ne_nil hdisj
  rw [maskSecret_eq_ite]
  by_cases hquoted : Shell.escapeQuotes s = s
  · rw [if_pos hquoted, hquoted]
    exact ⟨hraw, hraw⟩
  · rw [if_neg hquoted]
    constructor
    · intro h
      exact hraw (Text.infix_of_infix_replaceAll mask_ne_nil hdisj h)
    · exact Text.not_infix_replaceAll (Shell.escapeQuotes_ne_nil hs) mask_ne_nil
        (disjoint_mask_iff.2 (not_mem_escapeQuotes hstar))

theorem maskSecret_of_not_infix {s cs : List Char} (hraw : ¬ s <:+: cs)
    (hquoted : ¬ Shell.escapeQuotes s <:+: cs) : maskSecret s cs = cs := by
  rw [maskSecret_eq_ite, Text.replaceAll_of_not_infix hraw]
  split
  · rfl
  · exact Text.replaceAll_of_not_infix hquoted

theorem infix_of_infix_foldl_maskSecret {secrets : List String} {u cs : List Char} (hu : '*' ∉ u)
    (h : u <:+: secrets.foldl (fun text s => maskSecret s.toList text) cs) : u <:+: cs := by
  induction secrets generalizing cs with
  | nil => exact h
  | cons s secrets ih => exact infix_of_infix_maskSecret hu (ih h)

variable {c : CommandSpec} {s : String}

/-- **A redacted text holds no secret.** Its own mask takes it away, and the masks that follow do
not bring it back. -/
theorem hiddenIn_redact (hs : s ∈ c.secrets) (hne : s ≠ "") (hstar : '*' ∉ s.toList)
    (text : String) : HiddenIn s (c.redact text) := by
  obtain ⟨before, after, hsecrets⟩ := List.append_of_mem hs
  have hfold : (c.redact text).toList =
      after.foldl (fun text s => maskSecret s.toList text)
        (maskSecret s.toList
          (before.foldl (fun text s => maskSecret s.toList text) text.toList)) := by
    rw [redact, String.toList_ofList, hsecrets, List.foldl_append, List.foldl_cons]
  obtain ⟨hraw, hquoted⟩ := not_infix_maskSecret (toList_ne_nil hne) hstar
    (before.foldl (fun text s => maskSecret s.toList text) text.toList)
  constructor
  · intro h
    rw [hfold] at h
    exact hraw (infix_of_infix_foldl_maskSecret hstar h)
  · intro h
    rw [hfold] at h
    exact hquoted (infix_of_infix_foldl_maskSecret (not_mem_escapeQuotes hstar) h)

theorem foldl_maskSecret_of_hiddenIn {secrets : List String} {text : String}
    (h : ∀ s ∈ secrets, HiddenIn s text) :
    secrets.foldl (fun text s => maskSecret s.toList text) text.toList = text.toList := by
  induction secrets with
  | nil => rfl
  | cons s secrets ih =>
    obtain ⟨hs, hrest⟩ := List.forall_mem_cons.1 h
    rw [List.foldl_cons, maskSecret_of_not_infix hs.raw hs.quoted]
    exact ih hrest

theorem redact_of_hiddenIn {text : String} (h : ∀ s ∈ c.secrets, HiddenIn s text) :
    c.redact text = text := by
  rw [redact, foldl_maskSecret_of_hiddenIn h, String.ofList_toList]

/-- Where no secret has an asterisk, redacting once is enough. -/
theorem redact_redact (hne : ∀ s ∈ c.secrets, s ≠ "") (hstar : ∀ s ∈ c.secrets, '*' ∉ s.toList)
    (text : String) : c.redact (c.redact text) = c.redact text :=
  redact_of_hiddenIn fun s hs => hiddenIn_redact hs (hne s hs) (hstar s hs) text

/-! ## Showing a command -/

/-- A secret is never shown. In front of the command line, where names of variables, signs of
equality and blanks are shown as they are, this holds of secrets that are no part of them; one with
quotes or backslashes may be a part of what quoting adds. -/
structure Hides (c : CommandSpec) (s : String) : Prop where
  redacted : ∀ text, HiddenIn s (c.redact text)
  commandLine : HiddenIn s c.commandLine
  failure : ∀ (o : CommandOutput) (e : RunError), o.check c = .error e →
    ∃ line stderr, e = .command line o.exitCode stderr ∧ HiddenIn s line ∧ HiddenIn s stderr
  display : (∀ x ∈ ['\'', '\\', '=', ' '], x ∉ s.toList) →
    (∀ v ∈ c.env.toList, ¬ s.toList <:+: v.1.toList) → ¬ s.toList <:+: c.display.toList

theorem toList_shownVariable (c : CommandSpec) (v : String × String) :
    (c.shownVariable v).toList = v.1.toList ++ '=' ::
      ((if isSensitive v.1 then mask.toList else Shell.quoteChars (c.redact v.2).toList) ++
        [' ']) := by
  unfold shownVariable
  split <;> simp [Shell.quote]

/-- Variables in front of a text show no secret that the text does not show. -/
theorem not_infix_shownVariables (hredacted : ∀ text, HiddenIn s (c.redact text)) (hne : s ≠ "")
    (hstar : '*' ∉ s.toList) (hplain : ∀ x ∈ ['\'', '\\', '=', ' '], x ∉ s.toList)
    {text : List Char} (htext : ¬ s.toList <:+: text) {vars : List (String × String)}
    (hnames : ∀ v ∈ vars, ¬ s.toList <:+: v.1.toList) :
    ¬ s.toList <:+: vars.flatMap (fun v => (c.shownVariable v).toList) ++ text := by
  induction vars with
  | nil => exact htext
  | cons v vars ih =>
    obtain ⟨hname, hrest⟩ := List.forall_mem_cons.1 hnames
    intro h
    rw [List.flatMap_cons, toList_shownVariable] at h
    simp only [List.append_assoc, List.cons_append, List.nil_append] at h
    rcases Text.infix_of_infix_append_cons (hplain '=' (by decide)) h with h | h
    · exact hname h
    rcases Text.infix_of_infix_append_cons (hplain ' ' (by decide)) h with h | h
    · by_cases hsensitive : isSensitive v.1 = true
      · rw [if_pos hsensitive] at h
        exact not_infix_mask (toList_ne_nil hne) hstar h
      · rw [if_neg hsensitive] at h
        have hspecial : ∀ x ∈ Shell.escapedQuote, x ∈ ['\'', '\\', '=', ' '] := by
          simp [Shell.escapedQuote]
        have hquotes : s.toList.Disjoint Shell.escapedQuote := fun x hmem hx =>
          hplain x (hspecial x hx) hmem
        exact (hredacted v.2).raw (Shell.infix_of_infix_quoteChars hquotes h)
    · exact ih hrest h

/-- **A secret of a command is never shown.** -/
theorem hides_of_mem_secrets (hs : s ∈ c.secrets) (hne : s ≠ "") (hstar : '*' ∉ s.toList) :
    c.Hides s := by
  have hredacted := hiddenIn_redact hs hne hstar
  have hline : HiddenIn s c.commandLine := hredacted _
  constructor
  case redacted => exact hredacted
  case commandLine => exact hline
  case failure =>
    intro o e h
    unfold CommandOutput.check at h
    split at h
    · cases h
    · cases h
      exact ⟨_, _, rfl, hline, hredacted _⟩
  case display =>
    intro hplain hnames
    have hshown : c.display.toList =
        c.env.toList.flatMap (fun v => (c.shownVariable v).toList) ++ c.commandLine.toList := by
      rw [display, String.toList_append, String.toList_join, List.flatMap_map]
    rw [hshown]
    exact not_infix_shownVariables hredacted hne hstar hplain hline.raw hnames

/-! ## Registering secrets -/

theorem mem_insertSecret {value : String} {secrets : List String} :
    s ∈ insertSecret value secrets ↔ s = value ∨ s ∈ secrets := by
  induction secrets with
  | nil => simp [insertSecret]
  | cons t secrets ih =>
    unfold insertSecret
    split
    · exact List.mem_cons
    · rw [List.mem_cons, ih, List.mem_cons]
      exact or_left_comm

/-- Every text but the empty one can be registered. -/
theorem mem_secrets_secret {value : String} :
    s ∈ (c.secret value).secrets ↔ s ∈ c.secrets ∨ s ≠ "" ∧ value = s := by
  unfold secret
  split
  · rename_i hskip
    have hknown : value = "" ∨ value ∈ c.secrets := by simpa using hskip
    constructor
    · exact .inl
    · rintro (h | ⟨hne, rfl⟩)
      · exact h
      · exact hknown.resolve_left hne
  · rename_i hnew
    have hvalue : value ≠ "" := by
      rintro rfl
      exact hnew (by simp)
    rw [mem_insertSecret, or_comm, eq_comm]
    refine or_congr_right ⟨?_, And.right⟩
    rintro rfl
    exact ⟨hvalue, rfl⟩

theorem mem_secrets_setEnv {name value : String} :
    s ∈ (c.setEnv name value).secrets ↔
      s ∈ c.secrets ∨ s ≠ "" ∧ isSensitive name = true ∧ value = s := by
  unfold setEnv
  by_cases hsensitive : isSensitive name = true
  · simp only [hsensitive, true_and]
    exact mem_secrets_secret
  · simp [hsensitive]

theorem withEnv_cons (c : CommandSpec) (v : String × String) (vars : List (String × String)) :
    c.withEnv (v :: vars) = (c.setEnv v.1 v.2).withEnv vars := by
  rw [withEnv, List.foldl_cons, ← withEnv]

theorem mem_secrets_withEnv {vars : List (String × String)} :
    s ∈ (c.withEnv vars).secrets ↔
      s ∈ c.secrets ∨ s ≠ "" ∧ ∃ v ∈ vars, isSensitive v.1 = true ∧ v.2 = s := by
  induction vars generalizing c with
  | nil => simp [withEnv]
  | cons v vars ih =>
    rw [withEnv_cons, ih, mem_secrets_setEnv, List.exists_mem_cons_iff, or_assoc, ← and_or_left]

theorem mem_secrets_foldl_secret {α : Type} (f : α → String) (xs : List α) :
    s ∈ (xs.foldl (fun c x => c.secret (f x)) c).secrets ↔
      s ∈ c.secrets ∨ s ≠ "" ∧ ∃ x ∈ xs, f x = s := by
  induction xs generalizing c with
  | nil => simp
  | cons x xs ih =>
    rw [List.foldl_cons, ih, mem_secrets_secret, List.exists_mem_cons_iff, or_assoc, ← and_or_left]

/-! ## Building a command -/

/-- A call that adds to a command. -/
inductive Extension where
  | arg (a : String)
  | args (as : List String)
  | env (name value : String)
  | envs (vars : List (String × String))
  | secret (value : String)
  | dir (path : String)

namespace Extension

def apply (c : CommandSpec) : Extension → CommandSpec
  | arg a => c.arg a
  | args as => c.withArgs as
  | env name value => c.setEnv name value
  | envs vars => c.withEnv vars
  | secret value => c.secret value
  | dir path => c.inDir path

/-- The texts that are to be kept secret from then on. -/
def registered : Extension → List String
  | arg _ | args _ | dir _ => []
  | env name value => if isSensitive name then [value] else []
  | envs vars => (vars.filter fun v => isSensitive v.1).map (·.2)
  | secret value => [value]

theorem mem_secrets_apply (x : Extension) :
    s ∈ (x.apply c).secrets ↔ s ∈ c.secrets ∨ s ≠ "" ∧ s ∈ x.registered := by
  cases x with
  | arg a | args as | dir path => simp [apply, registered, CommandSpec.arg, withArgs, inDir]
  | env name value =>
    rw [apply, mem_secrets_setEnv, registered]
    by_cases hsensitive : isSensitive name = true
    · rw [if_pos hsensitive, List.mem_singleton, eq_comm (b := s)]
      simp only [hsensitive, true_and]
    · simp [hsensitive]
  | envs vars =>
    rw [apply, mem_secrets_withEnv, registered]
    simp only [List.mem_map, List.mem_filter, and_assoc]
  | secret value =>
    rw [apply, mem_secrets_secret, registered, List.mem_singleton, eq_comm]

end Extension

/-- The command that calls make, one after the other. -/
def built (program : String) (calls : List Extension) : CommandSpec :=
  calls.foldl Extension.apply (command program)

theorem mem_secrets_foldl_apply {calls : List Extension} :
    s ∈ (calls.foldl Extension.apply c).secrets ↔
      s ∈ c.secrets ∨ s ≠ "" ∧ s ∈ calls.flatMap Extension.registered := by
  induction calls generalizing c with
  | nil => simp
  | cons x calls ih =>
    rw [List.foldl_cons, ih, x.mem_secrets_apply, List.flatMap_cons, List.mem_append, or_assoc,
      ← and_or_left]

/-- The secrets of a command are the texts that were registered, but the empty one. -/
theorem mem_secrets_built {program : String} {calls : List Extension} :
    s ∈ (built program calls).secrets ↔ s ≠ "" ∧ s ∈ calls.flatMap Extension.registered := by
  rw [built, mem_secrets_foldl_apply]
  simp [command]

end CommandSpec

end Stagehand

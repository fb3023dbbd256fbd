import Mathlib.Data.List.Basic
import Mathlib.Data.String.Basic
import Stagehand.Proofs.Command.Secrets

/-!
# The order of secrets

However a command is built, its list of secrets is told by the texts that were registered: it holds
each of them once but for the empty one, the longer ones first, and those of one length as they were
registered (`CommandSpec.KeepsSecrets`). Every call keeps this: a new secret is added at the end,
and a stable sort puts it in its place (`KeepsSecrets.secrets_secret`).

The order is what redacting a secret rests on. A secret that is masked earlier is at least as long
in bytes, so it has no occurrence in this one, and in the form it has inside quotes it is not
shorter: what comes to the mask of a secret is the **whole** secret (`hiddenIn_of_size_le`). What is
left is a mask, and a mask holds no secret.

Main result: `CommandSpec.secrets_kept_in_order`.
-/

namespace Stagehand

namespace CommandSpec

variable {c : CommandSpec} {s t value : String} {registered secrets : List String}

/-! ## The order -/

/-- The order of secrets: a longer one comes first, and of two that are as long as each other, the
one that was registered first. -/
def ComesBefore (registered : List String) (s t : String) : Prop :=
  t.utf8ByteSize < s.utf8ByteSize ∨
    s.utf8ByteSize = t.utf8ByteSize ∧ registered.idxOf s < registered.idxOf t

namespace ComesBefore

theorem ne (h : ComesBefore registered s t) : s ≠ t := by
  rintro rfl
  rcases h with h | ⟨-, h⟩ <;> exact Nat.lt_irrefl _ h

theorem size_le (h : ComesBefore registered s t) : t.utf8ByteSize ≤ s.utf8ByteSize := by
  rcases h with h | ⟨h, -⟩
  · exact h.le
  · exact h.ge

theorem append (h : ComesBefore registered s t) (hs : s ∈ registered) (ht : t ∈ registered)
    (more : List String) : ComesBefore (registered ++ more) s t := by
  rwa [ComesBefore, List.idxOf_append_of_mem hs, List.idxOf_append_of_mem ht]

theorem of_new (hs : s ∈ registered) (hnew : value ∉ registered)
    (hsize : value.utf8ByteSize ≤ s.utf8ByteSize) :
    ComesBefore (registered ++ [value]) s value := by
  rcases hsize.lt_or_eq with hlt | heq
  · exact .inl hlt
  · refine .inr ⟨heq.symm, ?_⟩
    rw [List.idxOf_append_of_mem hs, List.idxOf_append_of_notMem hnew]
    exact Nat.lt_add_right _ (List.idxOf_lt_length_of_mem hs)

end ComesBefore

theorem pairwise_insertSecret (hordered : secrets.Pairwise (ComesBefore registered))
    (hknown : ∀ s ∈ secrets, s ∈ registered) (hnew : value ∉ registered) :
    (insertSecret value secrets).Pairwise (ComesBefore (registered ++ [value])) := by
  induction secrets with
  | nil => exact List.pairwise_singleton _ value
  | cons t ts ih =>
    obtain ⟨hhead, htail⟩ := List.pairwise_cons.1 hordered
    obtain ⟨ht, hts⟩ := List.forall_mem_cons.1 hknown
    have hhead' : ∀ u ∈ ts, ComesBefore (registered ++ [value]) t u := fun u hu =>
      (hhead u hu).append ht (hts u hu) [value]
    rw [insertSecret]
    split
    · next hshort =>
      have htail' : ts.Pairwise (ComesBefore (registered ++ [value])) :=
        htail.imp_of_mem fun hu hv h => h.append (hts _ hu) (hts _ hv) [value]
      refine List.pairwise_cons.2 ⟨fun u hu => .inl ?_, List.pairwise_cons.2 ⟨hhead', htail'⟩⟩
      rcases List.mem_cons.1 hu with rfl | hu
      · exact hshort
      · exact (hhead u hu).size_le.trans_lt hshort
    · next hlong =>
      refine List.pairwise_cons.2 ⟨fun u hu => ?_, ih htail hts⟩
      rcases mem_insertSecret.1 hu with rfl | hu
      · exact .of_new ht hnew (Nat.not_lt.1 hlong)
      · exact hhead' u hu

/-! ## Sorting -/

/-- The order that secrets are sorted by. -/
def longerFirst (s t : String) : Bool := t.utf8ByteSize ≤ s.utf8ByteSize

theorem longerFirst_iff : longerFirst s t = true ↔ t.utf8ByteSize ≤ s.utf8ByteSize :=
  decide_eq_true_iff

theorem longerFirst_trans (r s t : String) (hrs : longerFirst r s = true)
    (hst : longerFirst s t = true) : longerFirst r t = true :=
  longerFirst_iff.2 ((longerFirst_iff.1 hst).trans (longerFirst_iff.1 hrs))

theorem longerFirst_total (s t : String) : (longerFirst s t || longerFirst t s) = true := by
  rw [Bool.or_eq_true, longerFirst_iff, longerFirst_iff]
  exact Nat.le_total _ _

theorem insertSecret_of_forall_lt (h : ∀ s ∈ secrets, s.utf8ByteSize < value.utf8ByteSize) :
    insertSecret value secrets = value :: secrets := by
  cases secrets with
  | nil => rfl
  | cons t ts => rw [insertSecret, if_pos (h t List.mem_cons_self)]

/-- **Putting a secret in its place is adding it at the end and sorting again**: the sort is stable,
so those that are as long as the new one stay in front of it. -/
theorem insertSecret_eq_mergeSort
    (hordered : secrets.Pairwise fun s t => t.utf8ByteSize ≤ s.utf8ByteSize) :
    insertSecret value secrets = (secrets ++ [value]).mergeSort longerFirst := by
  induction secrets with
  | nil => exact (List.mergeSort_singleton value).symm
  | cons t ts ih =>
    obtain ⟨hhead, htail⟩ := List.pairwise_cons.1 hordered
    obtain ⟨front, back, hsorted, hrest, hfront⟩ :=
      List.mergeSort_cons longerFirst_trans longerFirst_total t (ts ++ [value])
    rw [← ih htail] at hrest
    rw [List.cons_append, hsorted, insertSecret]
    -- What is sorted in front of `t` is longer than `t`, so it can only be the new secret.
    have hlonger : ∀ s ∈ front, t.utf8ByteSize < s.utf8ByteSize := by
      intro s hs
      have hnot := hfront s hs
      rwa [Bool.not_eq_true', ← Bool.not_eq_true, longerFirst_iff, Nat.not_le] at hnot
    have hnew : ∀ s ∈ front, s ∉ ts := fun s hs hmem =>
      absurd (hhead s hmem) (Nat.not_le.2 (hlonger s hs))
    split
    · next hshort =>
      rw [insertSecret_of_forall_lt fun s hs => (hhead s hs).trans_lt hshort] at hrest
      cases front with
      | nil =>
        have hpairs := List.pairwise_mergeSort longerFirst_trans longerFirst_total
          (t :: (ts ++ [value]))
        rw [hsorted, List.nil_append, ← List.nil_append back, ← hrest] at hpairs
        have hle := longerFirst_iff.1 ((List.pairwise_cons.1 hpairs).1 value List.mem_cons_self)
        exact absurd hle (Nat.not_le.2 hshort)
      | cons b front =>
        obtain ⟨rfl, rfl⟩ := List.cons.inj hrest
        obtain rfl : front = [] := List.eq_nil_iff_forall_not_mem.2 fun s hs =>
          hnew s (List.mem_cons_of_mem _ hs) (List.mem_append_left _ hs)
        rfl
    · next hlong =>
      obtain rfl : front = [] := by
        refine List.eq_nil_iff_forall_not_mem.2 fun s hs => ?_
        rcases mem_insertSecret.1 (hrest ▸ List.mem_append_left _ hs) with rfl | hmem
        · exact hlong (hlonger s hs)
        · exact hnew s hs hmem
      rw [hrest, List.nil_append, List.nil_append]

/-! ## Building a command -/

/-- The secrets of a command are the texts that were registered, but the empty one, in
their order. -/
structure KeepsSecrets (c : CommandSpec) (registered : List String) : Prop where
  mem_iff : ∀ s, s ∈ c.secrets ↔ s ≠ "" ∧ s ∈ registered
  ordered : c.secrets.Pairwise (ComesBefore registered)

namespace KeepsSecrets

theorem congr {c' : CommandSpec} (h : c.KeepsSecrets registered) (hsame : c'.secrets = c.secrets) :
    c'.KeepsSecrets registered :=
  ⟨by rw [hsame]; exact h.mem_iff, by rw [hsame]; exact h.ordered⟩

theorem known (h : c.KeepsSecrets registered) : ∀ s ∈ c.secrets, s ∈ registered :=
  fun s hs => ((h.mem_iff s).1 hs).2

theorem secret (h : c.KeepsSecrets registered) (value : String) :
    (c.secret value).KeepsSecrets (registered ++ [value]) := by
  constructor
  case mem_iff =>
    intro s
    rw [mem_secrets_secret, h.mem_iff, List.mem_append, List.mem_singleton, ← and_or_left,
      eq_comm (a := value)]
  case ordered =>
    rw [CommandSpec.secret]
    split
    · exact h.ordered.imp_of_mem fun hs ht hst => hst.append (h.known _ hs) (h.known _ ht) [value]
    · next hskip =>
      rw [Bool.or_eq_true, String.isEmpty_iff, List.contains_iff_mem, not_or] at hskip
      exact pairwise_insertSecret h.ordered h.known fun hmem =>
        hskip.2 ((h.mem_iff value).2 ⟨hskip.1, hmem⟩)

theorem secrets_secret (h : c.KeepsSecrets registered) (hne : value ≠ "")
    (hnew : value ∉ c.secrets) :
    (c.secret value).secrets = (c.secrets ++ [value]).mergeSort longerFirst := by
  have hskip : (value.isEmpty || c.secrets.contains value) = false := by
    rw [Bool.eq_false_iff, Ne, Bool.or_eq_true, String.isEmpty_iff, List.contains_iff_mem, not_or]
    exact ⟨hne, hnew⟩
  rw [CommandSpec.secret, hskip]
  exact insertSecret_eq_mergeSort (h.ordered.imp ComesBefore.size_le)

theorem setEnv (h : c.KeepsSecrets registered) (name value : String) :
    (c.setEnv name value).KeepsSecrets
        (registered ++ if isSensitive name then [value] else []) := by
  rw [CommandSpec.setEnv]
  split
  · exact (h.secret value).congr rfl
  · rw [List.append_nil]
    exact h.congr rfl

theorem withEnv (h : c.KeepsSecrets registered) (vars : List (String × String)) :
    (c.withEnv vars).KeepsSecrets
      (registered ++ (vars.filter fun v => isSensitive v.1).map (·.2)) := by
  induction vars generalizing c registered with
  | nil =>
    rw [List.filter_nil, List.map_nil, List.append_nil]
    exact h
  | cons v vars ih =>
    have hrest := ih (h.setEnv v.1 v.2)
    rw [List.append_assoc] at hrest
    rw [withEnv_cons, List.filter_cons]
    split
    · next hsensitive => rwa [if_pos hsensitive, List.singleton_append, ← List.map_cons] at hrest
    · next hsensitive => rwa [if_neg hsensitive, List.nil_append] at hrest

/-- **Every call keeps the order of secrets.** -/
theorem apply (h : c.KeepsSecrets registered) (x : Extension) :
    (x.apply c).KeepsSecrets (registered ++ x.registered) := by
  cases x with
  | arg a | args as | dir path =>
    rw [Extension.registered, List.append_nil]
    exact h.congr rfl
  | env name value => exact h.setEnv name value
  | envs vars => exact h.withEnv vars
  | secret value => exact h.secret value

theorem foldl_apply (h : c.KeepsSecrets registered) (calls : List Extension) :
    (calls.foldl Extension.apply c).KeepsSecrets
      (registered ++ calls.flatMap Extension.registered) := by
  induction calls generalizing c registered with
  | nil =>
    rw [List.flatMap_nil, List.append_nil]
    exact h
  | cons x calls ih =>
    rw [List.flatMap_cons, ← List.append_assoc]
    exact ih (h.apply x)

end KeepsSecrets

/-- Whatever is called one after the other, the secrets are in their order. -/
theorem keepsSecrets_built (program : String) (calls : List Extension) :
    (built program calls).KeepsSecrets (calls.flatMap Extension.registered) := by
  have hstart : (command program).KeepsSecrets [] := ⟨by simp [command], List.Pairwise.nil⟩
  exact hstart.foldl_apply calls

/-! ## Redacting a secret -/

/-- A text that keeps as many bytes as it is taken from keeps all of it. -/
theorem eq_of_sublist {u v : List Char} (h : u.Sublist v)
    (hsize : String.utf8Len v ≤ String.utf8Len u) :
    u = v := by
  induction h with
  | slnil => rfl
  | @cons u v d hsub =>
    have hpos := d.utf8Size_pos
    have hle := String.utf8Len_le_of_sublist hsub
    rw [String.utf8Len_cons] at hsize
    omega
  | cons_cons d hsub ih =>
    rw [String.utf8Len_cons, String.utf8Len_cons] at hsize
    rw [ih (Nat.le_of_add_le_add_right hsize)]

/-- **A secret is hidden in every other one that is not longer**, be it as it is or
inside quotes. -/
theorem hiddenIn_of_size_le (hne : s ≠ t) (hsize : t.utf8ByteSize ≤ s.utf8ByteSize) :
    HiddenIn s t := by
  have hsub : ¬ s.toList.Sublist t.toList := by
    intro h
    rw [← String.ofList_toList (s := s), ← String.ofList_toList (s := t),
      String.utf8ByteSize_ofList, String.utf8ByteSize_ofList] at hsize
    exact hne (String.toList_inj.1 (eq_of_sublist h hsize))
  exact ⟨fun h => hsub h.sublist, fun h => hsub ((Shell.sublist_escapeQuotes _).trans h.sublist)⟩

theorem hiddenIn_mask (hne : s ≠ "") (hstar : '*' ∉ s.toList) : HiddenIn s mask :=
  ⟨not_infix_mask (toList_ne_nil hne) hstar,
    not_infix_mask (Shell.escapeQuotes_ne_nil (toList_ne_nil hne)) (not_mem_escapeQuotes hstar)⟩

theorem maskSecret_self (hne : s ≠ "") (hstar : '*' ∉ s.toList) :
    maskSecret s.toList s.toList = mask.toList := by
  rw [maskSecret_eq_ite, Text.replaceAll_self (toList_ne_nil hne)]
  split
  · rfl
  · exact Text.replaceAll_of_not_infix (hiddenIn_mask hne hstar).quoted

/-- **A secret is masked whole.** -/
theorem KeepsSecrets.redact_eq (h : c.KeepsSecrets registered)
    (hstar : ∀ t ∈ c.secrets, '*' ∉ t.toList) (hs : s ∈ c.secrets) : c.redact s = mask := by
  obtain ⟨before, after, hsecrets⟩ := List.append_of_mem hs
  have hne : ∀ t ∈ c.secrets, t ≠ "" := fun t ht => ((h.mem_iff t).1 ht).1
  have hbefore : ∀ t ∈ before, HiddenIn t s := by
    intro t ht
    have hpair := h.ordered
    rw [hsecrets] at hpair
    have hfirst := (List.pairwise_append.1 hpair).2.2 t ht s List.mem_cons_self
    exact hiddenIn_of_size_le hfirst.ne hfirst.size_le
  have hafter : ∀ t ∈ after, HiddenIn t mask := by
    intro t ht
    have hmem : t ∈ c.secrets := by
      rw [hsecrets]
      exact List.mem_append_right _ (List.mem_cons_of_mem s ht)
    exact hiddenIn_mask (hne t hmem) (hstar t hmem)
  rw [redact, hsecrets, List.foldl_append, foldl_maskSecret_of_hiddenIn hbefore, List.foldl_cons,
    maskSecret_self (hne s hs) (hstar s hs), foldl_maskSecret_of_hiddenIn hafter,
    String.ofList_toList]

/-- **The list of secrets tells what was registered**: every text that is not empty once and nothing
else, the longer ones first, and those of one length as they were registered. If none has an
asterisk, each of them is masked whole, also where it contains another one. -/
theorem secrets_kept_in_order (program : String) (calls : List Extension) :
    (∀ s, (built program calls).secrets.count s =
        if s ≠ "" ∧ s ∈ calls.flatMap Extension.registered then 1 else 0) ∧
      (built program calls).secrets.Pairwise (ComesBefore (calls.flatMap Extension.registered)) ∧
      ((∀ s ∈ (built program calls).secrets, '*' ∉ s.toList) →
        ∀ s ∈ (built program calls).secrets, (built program calls).redact s = mask) := by
  have hkeeps := keepsSecrets_built program calls
  have hnodup : (built program calls).secrets.Nodup := hkeeps.ordered.imp ComesBefore.ne
  refine ⟨fun s => ?_, hkeeps.ordered, fun hstar s hs => hkeeps.redact_eq hstar hs⟩
  rw [hnodup.count]
  simp only [hkeeps.mem_iff]

/-- A password is set again, a token is registered as a secret and contains the password, and a text
of four letters takes more bytes than one of five. -/
def reassignedPassword : List Extension :=
  [.env "DB_PASSWORD" "tok", .secret "token", .env "DB_PASSWORD" "it's", .arg "tok",
    .envs [("API_KEY", "tok"), ("REGION", "eu"), ("X_TOKEN", "abcde")], .secret "", .secret "éèàù"]

theorem secrets_kept_in_order_reassignedPassword :
    (built "docker" reassignedPassword).secrets = ["éèàù", "token", "abcde", "it's", "tok"] ∧
      ∀ s ∈ ["éèàù", "token", "abcde", "it's", "tok"],
        (built "docker" reassignedPassword).redact s = "***" := by
  have hsecrets : (built "docker" reassignedPassword).secrets =
      ["éèàù", "token", "abcde", "it's", "tok"] := by
    decide +kernel
  obtain ⟨-, -, hmasked⟩ := secrets_kept_in_order "docker" reassignedPassword
  rw [hsecrets] at hmasked
  exact ⟨hsecrets, hmasked (by decide)⟩

end CommandSpec

end Stagehand

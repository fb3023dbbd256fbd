import Mathlib.Data.List.Infix
import Stagehand.Shell.Quote

/-!
# What is left after replacing

When a pattern is replaced by a text that shares no character with it, the pattern is gone
(`not_infix_replaceAll`): an occurrence in the result would lie between two replacements, and so in
what was copied. For the same reason no other word that shares no character with the replacement
comes into being (`infix_of_infix_replaceAll`). Writing quotes for a shell is such a replacement.
-/

namespace Stagehand

namespace Text

variable {pat new u a b cs : List Char}

/-! ## Words around a separator -/

theorem prefix_of_prefix_append_cons {x : Char} (hx : x ∉ u) (h : u <+: a ++ x :: b) : u <+: a := by
  have hstart : a ++ [x] <+: a ++ x :: b := ⟨b, by simp⟩
  rcases List.prefix_or_prefix_of_prefix h hstart with h | h
  · rcases List.prefix_concat_iff.1 h with rfl | h
    · exact absurd (by simp) hx
    · exact h
  · exact absurd (h.subset (by simp)) hx

/-- A word without a separator stands on one side of it. -/
theorem infix_of_infix_append_cons {x : Char} (hx : x ∉ u) (h : u <:+: a ++ x :: b) :
    u <:+: a ∨ u <:+: b := by
  induction a with
  | nil =>
    rcases List.infix_cons_iff.1 h with h | h
    · exact .inl (prefix_of_prefix_append_cons (a := []) hx h).isInfix
    · exact .inr h
  | cons y a ih =>
    rcases List.infix_cons_iff.1 h with h | h
    · exact .inl (prefix_of_prefix_append_cons (a := y :: a) hx h).isInfix
    · exact (ih h).imp_left List.infix_cons

/-- A word does not begin in a text that it shares no character with. -/
theorem infix_of_infix_append (hu : u.Disjoint a) (h : u <:+: a ++ b) : u <:+: b := by
  induction a with
  | nil => exact h
  | cons x a ih =>
    obtain ⟨hx, ha⟩ := List.disjoint_cons_right.1 hu
    rcases infix_of_infix_append_cons (a := []) hx h with h | h
    · rw [List.infix_nil.1 h]
      exact List.nil_infix
    · exact ih ha h

theorem eq_nil_of_prefix_append (ha : a ≠ []) (hu : u.Disjoint a) (h : u <+: a ++ b) : u = [] := by
  cases u with
  | nil => rfl
  | cons c u =>
    cases a with
    | nil => exact absurd rfl ha
    | cons x a =>
      obtain ⟨rfl, -⟩ := List.cons_prefix_cons.1 h
      exact absurd List.mem_cons_self (hu List.mem_cons_self)

/-! ## Beginnings -/

theorem startsWith_iff : startsWith pat cs = true ↔ pat <+: cs := List.isPrefixOf_iff_prefix

theorem rest?_eq_some_iff {s stem rest : String} : rest? s stem = some rest ↔ s = stem ++ rest := by
  rw [rest?, stripLeading?, Option.map_eq_some_iff]
  constructor
  · rintro ⟨cs, hcs, rfl⟩
    split at hcs
    · next hstarts =>
      obtain ⟨tail, htail⟩ := startsWith_iff.1 hstarts
      cases hcs
      rw [← String.toList_inj, String.toList_append, String.toList_ofList, ← htail, List.drop_left]
    · cases hcs
  · rintro rfl
    have hstarts : startsWith stem.toList (stem ++ rest).toList = true :=
      startsWith_iff.2 ⟨rest.toList, String.toList_append.symm⟩
    rw [if_pos hstarts]
    exact ⟨rest.toList, by simp, String.ofList_toList⟩

theorem rest?_eq_none_iff {s stem : String} : rest? s stem = none ↔ ¬ stem.toList <+: s.toList := by
  rw [rest?, stripLeading?, Option.map_eq_none_iff, ← startsWith_iff]
  split <;> simp [*]

/-! ## Replacing -/

theorem occursIn_iff : occursIn pat cs = true ↔ pat <:+: cs := by
  induction cs with
  | nil => simp [occursIn]
  | cons c rest ih => rw [occursIn, Bool.or_eq_true, startsWith_iff, ih, List.infix_cons_iff]

section Disjoint

variable (hnew : new ≠ []) (hu : u.Disjoint new)
include hnew hu

theorem prefix_of_prefix_replaceAll (h : u <+: replaceAll pat new cs) : u <+: cs := by
  induction cs generalizing u with
  | nil => exact h
  | cons c rest ih =>
    rw [replaceAll, replaceFrom] at h
    split at h
    · rw [eq_nil_of_prefix_append hnew hu h]
      exact List.nil_prefix
    · cases u with
      | nil => exact List.nil_prefix
      | cons x u =>
        obtain ⟨rfl, htail⟩ := List.cons_prefix_cons.1 h
        exact List.cons_prefix_cons.2 ⟨rfl, ih (List.disjoint_of_disjoint_cons_left hu) htail⟩

theorem infix_of_infix_replaceFrom {k : Nat} (h : u <:+: replaceFrom pat new k cs) : u <:+: cs := by
  induction cs generalizing k with
  | nil => cases k <;> exact h
  | cons c rest ih =>
    cases k with
    | succ k => exact List.infix_cons (ih h)
    | zero =>
      have hall : replaceFrom pat new 0 (c :: rest) = replaceAll pat new (c :: rest) := rfl
      by_cases hhit : startsWith pat (c :: rest) = true
      · rw [replaceFrom, if_pos hhit] at h
        exact List.infix_cons (ih (infix_of_infix_append hu h))
      · rw [replaceFrom, if_neg hhit] at h hall
        rcases List.infix_cons_iff.1 h with h | h
        · exact (prefix_of_prefix_replaceAll hnew hu (hall ▸ h)).isInfix
        · exact List.infix_cons (ih h)

theorem infix_of_infix_replaceAll (h : u <:+: replaceAll pat new cs) : u <:+: cs :=
  infix_of_infix_replaceFrom hnew hu h

end Disjoint

theorem not_infix_replaceFrom (hpat : pat ≠ []) (hnew : new ≠ []) (hdisj : pat.Disjoint new)
    (k : Nat) : ¬ pat <:+: replaceFrom pat new k cs := by
  induction cs generalizing k with
  | nil =>
    intro h
    cases k <;> exact hpat (List.infix_nil.1 h)
  | cons c rest ih =>
    intro h
    cases k with
    | succ k => exact ih k h
    | zero =>
      have hall : replaceFrom pat new 0 (c :: rest) = replaceAll pat new (c :: rest) := rfl
      by_cases hhit : startsWith pat (c :: rest) = true
      · rw [replaceFrom, if_pos hhit] at h
        exact ih _ (infix_of_infix_append hdisj h)
      · rw [replaceFrom, if_neg hhit] at h hall
        rcases List.infix_cons_iff.1 h with h | h
        · exact hhit (startsWith_iff.2 (prefix_of_prefix_replaceAll hnew hdisj (hall ▸ h)))
        · exact ih 0 h

/-- **What is replaced is gone.** -/
theorem not_infix_replaceAll (hpat : pat ≠ []) (hnew : new ≠ []) (hdisj : pat.Disjoint new) :
    ¬ pat <:+: replaceAll pat new cs :=
  not_infix_replaceFrom hpat hnew hdisj 0

theorem replaceAll_of_not_infix (h : ¬ pat <:+: cs) : replaceAll pat new cs = cs := by
  induction cs with
  | nil => rfl
  | cons c rest ih =>
    have hmiss : ¬ startsWith pat (c :: rest) = true := by
      intro hhit
      exact h (startsWith_iff.1 hhit).isInfix
    have hrest : ¬ pat <:+: rest := by
      intro hoccurs
      exact h (List.infix_cons hoccurs)
    have htail : replaceFrom pat new 0 rest = rest := ih hrest
    rw [replaceAll, replaceFrom, if_neg hmiss, htail]

theorem replaceFrom_length (pat new cs : List Char) : replaceFrom pat new cs.length cs = [] := by
  induction cs with
  | nil => rfl
  | cons c rest ih => rw [List.length_cons, replaceFrom, ih]

theorem replaceAll_self (hpat : pat ≠ []) : replaceAll pat new pat = new := by
  cases pat with
  | nil => exact absurd rfl hpat
  | cons c rest =>
    rw [replaceAll, replaceFrom, if_pos (startsWith_iff.2 List.prefix_rfl), List.length_cons,
      Nat.add_sub_cancel, replaceFrom_length, List.append_nil]

/-! ## Joining -/

theorem infix_joinWith_of_mem {sep w : String} {ws : List String} (h : w ∈ ws) :
    w.toList <:+: (joinWith sep ws).toList := by
  induction ws with
  | nil => cases h
  | cons v ws ih =>
    cases ws with
    | nil =>
      rw [List.mem_singleton.1 h]
      simp [joinWith]
    | cons v' ws =>
      have hjoin : (joinWith sep (v :: v' :: ws)).toList =
          v.toList ++ (sep.toList ++ (joinWith sep (v' :: ws)).toList) := by
        simp [joinWith, String.intercalate_cons_cons]
      rw [hjoin]
      rcases List.mem_cons.1 h with rfl | h
      · exact (List.prefix_append _ _).isInfix
      · have hrest := (List.suffix_append sep.toList (joinWith sep (v' :: ws)).toList).isInfix
        exact (ih h).trans (hrest.trans (List.suffix_append _ _).isInfix)

end Text

/-! ## Quotes -/

namespace Shell

variable {u cs : List Char}

/-- Writing the quotes of a text is replacing them. -/
theorem escapeQuotes_eq_replaceAll (cs : List Char) :
    escapeQuotes cs = Text.replaceAll ['\''] escapedQuote cs := by
  induction cs with
  | nil => rfl
  | cons c cs ih =>
    rw [escapeQuotes, List.flatMap_cons, Text.replaceAll, Text.replaceFrom]
    by_cases hc : c = '\''
    · subst hc
      exact congrArg (escapedQuote ++ ·) ih
    · have hmiss : ¬ Text.startsWith ['\''] (c :: cs) = true := by
        simp [Text.startsWith, List.isPrefixOf, Ne.symm hc]
      rw [if_neg hc, if_neg hmiss]
      exact congrArg (c :: ·) ih

theorem escapeQuotes_of_not_mem (h : '\'' ∉ cs) : escapeQuotes cs = cs := by
  induction cs with
  | nil => rfl
  | cons c cs ih =>
    obtain ⟨hc, hcs⟩ := not_or.1 fun hmem => h (List.mem_cons.2 hmem)
    rw [escapeQuotes, List.flatMap_cons, if_neg (Ne.symm hc)]
    exact congrArg (c :: ·) (ih hcs)

theorem escapeQuotes_ne_nil (h : cs ≠ []) : escapeQuotes cs ≠ [] := by
  cases cs with
  | nil => exact absurd rfl h
  | cons c cs =>
    rw [escapeQuotes, List.flatMap_cons]
    split <;> simp [escapedQuote]

theorem sublist_escapeQuotes (cs : List Char) : cs.Sublist (escapeQuotes cs) := by
  induction cs with
  | nil => exact .slnil
  | cons c cs ih =>
    have hfirst : [c].Sublist (if c = '\'' then escapedQuote else [c]) := by
      rw [List.singleton_sublist]
      split
      · next hquote => exact hquote ▸ List.mem_cons_self
      · exact List.mem_singleton_self c
    exact hfirst.append ih

theorem mem_escapeQuotes {x : Char} (hx : x ∉ escapedQuote) : x ∈ escapeQuotes cs ↔ x ∈ cs := by
  have hquote : x ≠ '\'' := by
    rintro rfl
    exact hx List.mem_cons_self
  rw [escapeQuotes, List.mem_flatMap]
  constructor
  · rintro ⟨c, hc, hmem⟩
    split at hmem
    · exact absurd hmem hx
    · rwa [List.mem_singleton.1 hmem]
  · intro hmem
    exact ⟨x, hmem, by simp [hquote]⟩

/-- A word without quotes and backslashes occurs in a quoted word only if it occurs in the word. -/
theorem infix_of_infix_quoteChars (hu : u.Disjoint escapedQuote) (h : u <:+: quoteChars cs) :
    u <:+: cs := by
  have hquote : '\'' ∉ u := fun hmem => hu hmem List.mem_cons_self
  unfold quoteChars at h
  split at h
  · exact h
  · have hinside : u <:+: escapeQuotes cs ∨ u <:+: [] := by
      rcases Text.infix_of_infix_append_cons (a := []) hquote h with h | h
      · exact .inr h
      · exact Text.infix_of_infix_append_cons hquote h
    rcases hinside with h | h
    · rw [escapeQuotes_eq_replaceAll] at h
      exact Text.infix_of_infix_replaceAll (by decide) hu h
    · rw [List.infix_nil.1 h]
      exact List.nil_infix

/-- A word without quotes is in the quoted text as it is. -/
theorem infix_quoteChars_of_infix (hu : '\'' ∉ u) (h : u <:+: cs) : u <:+: quoteChars cs := by
  have hinside : u <:+: escapeQuotes cs := by
    have hmap := h.flatMap fun c => if c = '\'' then escapedQuote else [c]
    rwa [← escapeQuotes, ← escapeQuotes, escapeQuotes_of_not_mem hu] at hmap
  unfold quoteChars
  split
  · exact h
  · exact List.infix_cons (hinside.trans (List.prefix_append _ _).isInfix)

theorem infix_quoteAll_of_mem {word : String} {words : List String} (hu : '\'' ∉ u)
    (hword : word ∈ words) (h : u <:+: word.toList) : u <:+: (quoteAll words).toList := by
  have hquoted : u <:+: (quote word).toList := by
    rw [quote, String.toList_ofList]
    exact infix_quoteChars_of_infix hu h
  exact hquoted.trans (Text.infix_joinWith_of_mem (List.mem_map_of_mem hword))

end Shell

end Stagehand

import Mathlib.Data.List.DropRight
import Stagehand.Text.Blank
import Stagehand.Text.Search

/-!
# Trimming, words and first lines

Nothing is lost by trimming twice (`trim_trim`), and blanks at the ends of a text make no words
(`words_trim`). The words of a text keep all of its characters but the blanks
(`flatten_fields`), and words with one space between them are told apart again
(`words_joinWith_words`). The first line of a text is what is in front of its first line feed,
but for blanks at its end (`trimmed_head?_lines`).
-/

namespace Stagehand.Text

variable {sep : Char → Bool} {cs w : List Char}

/-! ## Trimming -/

theorem trimRight_eq_rdropWhile (cs : List Char) : trimRight cs = cs.rdropWhile isBlank := rfl

theorem trimmed_eq_nil_iff : trimmed cs = [] ↔ ∀ c ∈ cs, isBlank c = true := by
  rw [trimmed, trimRight_eq_rdropWhile, List.rdropWhile_eq_nil_iff]
  constructor
  · intro h
    have hparts : ∀ c ∈ cs.takeWhile isBlank ++ trimLeft cs, isBlank c = true := by
      intro c hc
      rcases List.mem_append.1 hc with hc | hc
      · exact List.mem_takeWhile_imp hc
      · exact h c hc
    rwa [trimLeft, List.takeWhile_append_dropWhile] at hparts
  · intro h c hc
    exact h c ((List.dropWhile_suffix isBlank).subset hc)

/-- What is left when both ends are dropped has nothing in front to be dropped. -/
theorem dropWhile_rdropWhile_dropWhile (p : Char → Bool) (cs : List Char) :
    ((cs.dropWhile p).rdropWhile p).dropWhile p = (cs.dropWhile p).rdropWhile p := by
  have hfront := List.rdropWhile_prefix p (cs.dropWhile p)
  refine List.dropWhile_eq_self_iff.2 fun hpos => ?_
  rw [hfront.getElem hpos]
  exact List.dropWhile_get_zero_not p cs (hpos.trans_le hfront.length_le)

theorem trimLeft_trimmed (cs : List Char) : trimLeft (trimmed cs) = trimmed cs :=
  dropWhile_rdropWhile_dropWhile isBlank cs

theorem trimRight_trimmed (cs : List Char) : trimRight (trimmed cs) = trimmed cs :=
  List.rdropWhile_idempotent isBlank (trimLeft cs)

theorem trimmed_trimmed (cs : List Char) : trimmed (trimmed cs) = trimmed cs := by
  rw [trimmed, trimLeft_trimmed, trimRight_trimmed]

theorem trim_trim (s : String) : trim (trim s) = trim s := by
  rw [trim, trim, String.toList_ofList, trimmed_trimmed]

theorem trim_eq_empty_iff {s : String} : trim s = "" ↔ ∀ c ∈ s.toList, isBlank c = true := by
  rw [trim, ← trimmed_eq_nil_iff]
  exact String.ofList_eq_empty_iff

/-- A text is what is left after trimming, with the blanks at both ends. -/
theorem exists_eq_append_trimmed (cs : List Char) : ∃ before after : List Char,
    (∀ c ∈ before ++ after, isBlank c = true) ∧ cs = before ++ trimmed cs ++ after := by
  refine ⟨cs.takeWhile isBlank, (trimLeft cs).rtakeWhile isBlank, fun c hc => ?_, ?_⟩
  · rcases List.mem_append.1 hc with hc | hc
    · exact List.mem_takeWhile_imp hc
    · exact List.mem_rtakeWhile_imp hc
  · rw [trimmed, trimRight_eq_rdropWhile, List.append_assoc, List.rdropWhile_append_rtakeWhile,
      trimLeft, List.takeWhile_append_dropWhile]

theorem trimmed_of_forall_not (h : ∀ c ∈ cs, isBlank c = false) : trimmed cs = cs := by
  have hkept : ∀ ds : List Char, (∀ c ∈ ds, isBlank c = false) → ds.dropWhile isBlank = ds := by
    rintro (_ | ⟨c, rest⟩) hds
    · rfl
    · exact List.dropWhile_cons_of_neg (by simp [hds c List.mem_cons_self])
  have hreverse : ∀ c ∈ cs.reverse, isBlank c = false := fun c hc => h c (List.mem_reverse.1 hc)
  rw [trimmed, trimLeft, hkept cs h, trimRight, hkept cs.reverse hreverse, List.reverse_reverse]

/-- What ends in no blank at either side is left between blanks. -/
theorem trimmed_append {before after : List Char} (h : ∀ c ∈ before ++ after, isBlank c = true)
    {first last : Char} (hfirst : w.head? = some first) (hlast : w.getLast? = some last)
    (hends : isBlank first = false ∧ isBlank last = false) :
    trimmed (before ++ w ++ after) = w := by
  rw [List.forall_mem_append] at h
  have hleft : trimLeft (before ++ (w ++ after)) = w ++ after := by
    obtain ⟨rest, rfl⟩ := List.head?_eq_some_iff.1 hfirst
    rw [trimLeft, List.dropWhile_append_of_pos h.1, List.cons_append,
      List.dropWhile_cons_of_neg (by simp [hends.1])]
  have hright : trimRight (w ++ after) = w := by
    obtain ⟨front, rfl⟩ := List.getLast?_eq_some_iff.1 hlast
    rw [trimRight, List.reverse_append, List.dropWhile_append_of_pos (by simpa using h.2),
      List.reverse_concat, List.dropWhile_cons_of_neg (by simp [hends.2]), List.reverse_cons,
      List.reverse_reverse]
  rw [List.append_assoc, trimmed, hleft, hright]

theorem trimmed_eq_self {first last : Char} (hfirst : w.head? = some first)
    (hlast : w.getLast? = some last) (hends : isBlank first = false ∧ isBlank last = false) :
    trimmed w = w := by
  have hnone : ∀ c ∈ ([] ++ [] : List Char), isBlank c = true := List.forall_mem_nil _
  simpa using trimmed_append hnone hfirst hlast hends

/-- If anything is left after trimming, it ends in no blank at either side. -/
theorem exists_ends_of_trimmed_ne_nil (h : trimmed cs ≠ []) :
    ∃ first last : Char, (trimmed cs).head? = some first ∧ (trimmed cs).getLast? = some last ∧
      isBlank first = false ∧ isBlank last = false := by
  have hpos := List.length_pos_of_ne_nil h
  refine ⟨(trimmed cs)[0], (trimmed cs).getLast h, ?_, List.getLast?_eq_getLast_of_ne_nil h, ?_, ?_⟩
  · rw [List.head?_eq_getElem?, List.getElem?_eq_getElem hpos]
  · simpa using List.dropWhile_eq_self_iff.1 (trimLeft_trimmed cs) hpos
  · simpa using List.rdropWhile_eq_self_iff.1 (trimRight_trimmed cs) h

/-! ## Fields -/

theorem pieces_eq_splitOnP (sep : Char → Bool) (cs : List Char) :
    pieces sep cs = cs.splitOnP sep := by
  induction cs with
  | nil => exact List.splitOnP_nil.symm
  | cons c cs ih =>
    rw [pieces, List.splitOnP_cons_eq_if_modifyHead, ih]
    split
    · rfl
    · obtain ⟨v, vs, hvs⟩ := List.exists_cons_of_ne_nil (List.splitOnP_ne_nil sep cs)
      rw [hvs, List.modifyHead_cons]

theorem fields_append_cons {x : Char} (hx : sep x = true) (a b : List Char) :
    fields sep (a ++ x :: b) = fields sep a ++ fields sep b := by
  simp only [fields, pieces_eq_splitOnP, List.splitOnP_append_cons a b hx, List.filter_append]

theorem fields_of_forall_not (hne : w ≠ []) (h : ∀ c ∈ w, sep c = false) : fields sep w = [w] := by
  rw [fields, pieces_eq_splitOnP, List.splitOnP_eq_singleton h]
  simp [hne]

/-- The fields of a text hold every character that is no separator. -/
theorem flatten_fields (sep : Char → Bool) (cs : List Char) :
    (fields sep cs).flatten = cs.filter fun c => !sep c := by
  have hpieces : (pieces sep cs).flatten = cs.filter fun c => !sep c := by
    induction cs with
    | nil => rfl
    | cons c cs ih =>
      rw [pieces]
      split
      · next hc => simpa [hc] using ih
      · next hc =>
        rw [List.filter_cons_of_pos (by simpa using hc), ← ih]
        cases pieces sep cs <;> rfl
  rw [← hpieces, fields, List.flatten_filter_not_isEmpty]

theorem fields_eq_nil_iff : fields sep cs = [] ↔ ∀ c ∈ cs, sep c = true := by
  have hne : ∀ v ∈ fields sep cs, v ≠ [] := by
    intro v hv
    simpa using (List.mem_filter.1 hv).2
  have hflat : fields sep cs = [] ↔ (fields sep cs).flatten = [] := by
    rw [List.flatten_eq_nil_iff]
    refine ⟨fun h => by simp [h], fun h => ?_⟩
    exact List.eq_nil_iff_forall_not_mem.2 fun v hv => hne v hv (h v hv)
  rw [hflat, flatten_fields, List.filter_eq_nil_iff]
  simp

theorem of_mem_fields (h : w ∈ fields sep cs) : w ≠ [] ∧ ∀ c ∈ w, sep c = false := by
  refine ⟨by simpa using (List.mem_filter.1 h).2, fun c hc => ?_⟩
  have hkept : c ∈ (fields sep cs).flatten := List.mem_flatten_of_mem h hc
  rw [flatten_fields] at hkept
  simpa using (List.mem_filter.1 hkept).2

/-- Fields with one separator between them are the fields of the whole. -/
theorem fields_intercalate {x : Char} (hx : sep x = true) {ws : List (List Char)}
    (h : ∀ w ∈ ws, w ≠ [] ∧ ∀ c ∈ w, sep c = false) : fields sep ([x].intercalate ws) = ws := by
  induction ws with
  | nil => rfl
  | cons w ws ih =>
    obtain ⟨⟨hne, hw⟩, hws⟩ := List.forall_mem_cons.1 h
    cases ws with
    | nil => simpa using fields_of_forall_not hne hw
    | cons v vs =>
      rw [List.intercalate_cons_cons, List.append_assoc, List.singleton_append,
        fields_append_cons hx, fields_of_forall_not hne hw, ih hws]
      rfl

/-! ## Words -/

theorem fields_trimLeft (cs : List Char) : fields isBlank (trimLeft cs) = fields isBlank cs := by
  induction cs with
  | nil => rfl
  | cons c cs ih =>
    rw [trimLeft, List.dropWhile_cons]
    split
    · next hc => rw [← trimLeft, ih, ← List.nil_append (c :: cs), fields_append_cons hc]; rfl
    · rfl

theorem fields_trimRight (cs : List Char) : fields isBlank (trimRight cs) = fields isBlank cs := by
  rw [trimRight_eq_rdropWhile]
  induction cs using List.reverseRecOn with
  | nil => rfl
  | append_singleton cs c ih =>
    rw [List.rdropWhile_concat]
    split
    · next hc => rw [ih, fields_append_cons hc]; exact (List.append_nil _).symm
    · rfl

/-- Blanks at the ends make no words. -/
theorem words_trim (s : String) : words (trim s) = words s := by
  rw [words, trim, String.toList_ofList, trimmed, fields_trimRight, fields_trimLeft, words]

theorem words_eq_nil_iff {s : String} : words s = [] ↔ trim s = "" := by
  rw [words, List.map_eq_nil_iff, fields_eq_nil_iff, trim_eq_empty_iff]

/-- Words with one space between them are told apart again. -/
theorem words_joinWith_words (s : String) : words (joinWith " " (words s)) = words s := by
  have hspace : isBlank ' ' = true := by decide
  have hjoined : (joinWith " " (words s)).toList = [' '].intercalate (fields isBlank s.toList) := by
    rw [joinWith, String.toList_intercalate, words, List.map_map]
    simp
  rw [words, hjoined, fields_intercalate hspace fun w hw => of_mem_fields hw, words]

/-! ## First lines -/

/-- What is in front of the first line feed. -/
def firstLine (s : String) : List Char := s.toList.takeWhile (· != '\n')

theorem head?_pieces (sep : Char → Bool) (cs : List Char) :
    (pieces sep cs).head? = some (cs.takeWhile fun c => !sep c) := by
  induction cs with
  | nil => rfl
  | cons c cs ih =>
    rw [pieces]
    cases hc : sep c with
    | true => simp [hc]
    | false =>
      obtain ⟨rest, hrest⟩ := List.head?_eq_some_iff.1 ih
      simp [hc, hrest]

theorem trimmed_concat {c : Char} (hc : isBlank c = true) (cs : List Char) :
    trimmed (cs ++ [c]) = trimmed cs := by
  have hlast : trimLeft [c] = [] := by simp [trimLeft, hc]
  rw [trimmed, trimmed, trimLeft, List.dropWhile_append]
  split
  · next hempty =>
    rw [List.isEmpty_iff] at hempty
    rw [← trimLeft, hlast, trimLeft, hempty]
  · exact List.rdropWhile_concat_pos isBlank _ c hc

/-- A carriage return at the end is a blank. -/
theorem trimmed_dropReturn (cs : List Char) : trimmed (dropReturn cs) = trimmed cs := by
  rw [dropReturn]
  split
  · next rest hrest =>
    rw [← List.reverse_reverse cs, hrest, List.reverse_cons]
    exact (trimmed_concat rfl rest.reverse).symm
  · rfl

/-- The first of the lines is the first line, but for blanks at its end. -/
theorem trimmed_head?_lines (s : String) :
    trimmed ((lines s).head?.getD "").toList = trimmed (firstLine s) := by
  have hfirst : (pieces (· == '\n') s.toList).head? = some (firstLine s) := head?_pieces _ _
  obtain ⟨rest, hrest⟩ := List.head?_eq_some_iff.1 hfirst
  rw [lines, hrest]
  cases rest with
  | nil =>
    rw [endedLines]
    split
    · next hempty =>
      rw [List.isEmpty_iff.1 hempty]
      rfl
    · rw [List.map_singleton, List.head?_cons, Option.getD_some, String.toList_ofList]
  | cons w ws =>
    rw [endedLines, List.map_cons, List.head?_cons, Option.getD_some, String.toList_ofList,
      trimmed_dropReturn]
    exact List.cons_ne_nil _ _

/-! ## Texts and their bytes -/

theorem fromUTF8?_eq_some_iff_toUTF8 {bytes : ByteArray} {s : String} :
    String.fromUTF8? bytes = some s ↔ bytes = s.toUTF8 := by
  rw [String.fromUTF8?]
  constructor
  · intro h
    split at h
    · cases h
      rfl
    · cases h
  · rintro rfl
    rw [String.toUTF8_eq_toByteArray, dif_pos s.isValidUTF8]
    rfl

end Stagehand.Text

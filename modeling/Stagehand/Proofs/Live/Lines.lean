import Stagehand.Live.Capture
import Stagehand.Proofs.Text.Blank

/-!
# Lines of bytes, and the text that is captured of them

Bytes fall into lines that end in a line feed, and a rest that holds none (`exists_ended_append`).
Lines of text that are written are read back as they are (`lines_of_writes`), whatever is text is
such lines (`writes_lines`), and no line that is read holds a line feed (`not_mem_of_mem_lines`).

**What is captured of lines** is one below the other, without the empty ones at the start
(`captured_eq`). So the captured text is that of all lines, and gives them back when it is split,
exactly if the first line is not empty or is the only one (`capturedFrom`).
-/

namespace Stagehand.Live

/-! ## Cutting bytes -/

/-- A line with its end. -/
def IsEndedLine (line : List UInt8) : Prop := ∃ body : List UInt8, 10 ∉ body ∧ line = body ++ [10]

/-- The line that the bytes behind all ends make, if there are any. -/
def lastLine (rest : List UInt8) : List (List UInt8) := if rest.isEmpty then [] else [rest]

variable {ended : List (List UInt8)} {body rest bytes : List UInt8}

theorem flatten_lastLine (rest : List UInt8) : (lastLine rest).flatten = rest := by
  cases rest <;> simp [lastLine]

theorem eq_of_mem_lastLine {line : List UInt8} (h : line ∈ lastLine rest) : line = rest := by
  cases rest <;> simp_all [lastLine]

theorem rawLines_cons (b : UInt8) (bytes : List UInt8) :
    rawLines (b :: bytes) = consByte b (rawLines bytes) := rfl

theorem rawLines_append_cons (h : 10 ∉ body) (bytes : List UInt8) :
    rawLines (body ++ 10 :: bytes) = (body ++ [10]) :: rawLines bytes := by
  induction body with
  | nil =>
    rw [List.nil_append, rawLines_cons]
    cases rawLines bytes <;> rfl
  | cons b body ih =>
    obtain ⟨hb, hbody⟩ := List.ne_and_not_mem_of_not_mem_cons h
    rw [List.cons_append, rawLines_cons, ih hbody, consByte, if_neg hb.symm]
    rfl

theorem rawLines_of_not_mem (h : 10 ∉ rest) : rawLines rest = lastLine rest := by
  induction rest with
  | nil => rfl
  | cons b rest ih =>
    obtain ⟨hb, hrest⟩ := List.ne_and_not_mem_of_not_mem_cons h
    rw [rawLines_cons, ih hrest]
    cases rest with
    | nil => rfl
    | cons c rest => exact if_neg hb.symm

theorem rawLines_flatten_append (h : ∀ line ∈ ended, IsEndedLine line) (bytes : List UInt8) :
    rawLines (ended.flatten ++ bytes) = ended ++ rawLines bytes := by
  induction ended with
  | nil => rfl
  | cons line ended ih =>
    obtain ⟨⟨body, hbody, rfl⟩, hended⟩ := List.forall_mem_cons.1 h
    rw [List.flatten_cons, List.append_assoc, List.append_assoc, List.singleton_append,
      rawLines_append_cons hbody, ih hended, List.cons_append]

/-- Bytes fall into lines that have their ends, and a rest. -/
theorem exists_ended_append (bytes : List UInt8) :
    ∃ (ended : List (List UInt8)) (rest : List UInt8), (∀ line ∈ ended, IsEndedLine line) ∧
    10 ∉ rest ∧ bytes = ended.flatten ++ rest := by
  induction bytes with
  | nil => exact ⟨[], [], by simp, by simp, rfl⟩
  | cons b bytes ih =>
    obtain ⟨ended, rest, hended, hrest, rfl⟩ := ih
    by_cases hb : b = 10
    · exact ⟨[b] :: ended, rest, List.forall_mem_cons.2
        ⟨⟨[], by simp, by simp [hb]⟩, hended⟩, hrest, rfl⟩
    · cases ended with
      | nil => exact ⟨[], b :: rest, by simp, by simpa [Ne.symm hb] using hrest, rfl⟩
      | cons line ended =>
        obtain ⟨⟨body, hbody, rfl⟩, hmore⟩ := List.forall_mem_cons.1 hended
        refine ⟨(b :: body ++ [10]) :: ended, rest,
          List.forall_mem_cons.2 ⟨⟨b :: body, ?_, rfl⟩, hmore⟩, hrest, rfl⟩
        simpa [Ne.symm hb] using hbody

theorem isEnded_of_isEndedLine {line : List UInt8} (h : IsEndedLine line) :
    isEnded line = true := by
  obtain ⟨body, -, rfl⟩ := h
  simp [isEnded]

theorem isEnded_eq_false {line : List UInt8} (h : 10 ∉ line) : isEnded line = false := by
  rw [isEnded, beq_eq_false_iff_ne]
  exact fun hlast => h (List.mem_of_getLast? hlast)

theorem filter_isEnded (hended : ∀ line ∈ ended, IsEndedLine line) (hrest : 10 ∉ rest) :
    (ended ++ lastLine rest).filter isEnded = ended := by
  have hkept : ended.filter isEnded = ended :=
    List.filter_eq_self.2 fun line hline => isEnded_of_isEndedLine (hended line hline)
  have hnone : (lastLine rest).filter isEnded = [] := by
    refine List.filter_eq_nil_iff.2 fun line hline => ?_
    obtain rfl := eq_of_mem_lastLine hline
    simp [isEnded_eq_false hrest]
  rw [List.filter_append, hkept, hnone, List.append_nil]

theorem flatten_filter_not_isEnded (hended : ∀ line ∈ ended, IsEndedLine line) (hrest : 10 ∉ rest) :
    ((ended ++ lastLine rest).filter fun line => !isEnded line).flatten = rest := by
  have hnone : (ended.filter fun line => !isEnded line) = [] :=
    List.filter_eq_nil_iff.2 fun line hline => by simp [isEnded_of_isEndedLine (hended line hline)]
  have hkept : ((lastLine rest).filter fun line => !isEnded line) = lastLine rest := by
    refine List.filter_eq_self.2 fun line hline => ?_
    obtain rfl := eq_of_mem_lastLine hline
    simp [isEnded_eq_false hrest]
  rw [List.filter_append, hnone, hkept, List.nil_append, flatten_lastLine]

/-! ## Lines that are text -/

theorem length_readable_le (raw : List (List UInt8)) : (readable raw).length ≤ raw.length := by
  induction raw with
  | nil => exact Nat.le_refl _
  | cons line raw ih =>
    rw [readable]
    cases lineText? line with
    | some text => exact Nat.succ_le_succ ih
    | none => exact Nat.zero_le _

theorem readable_append {a : List (List UInt8)} (h : (readable a).length = a.length)
    (b : List (List UInt8)) : readable (a ++ b) = readable a ++ readable b := by
  induction a with
  | nil => rfl
  | cons line a ih =>
    rw [List.cons_append, readable, readable] at *
    cases hline : lineText? line with
    | some text =>
      rw [hline] at h
      exact congrArg (text :: ·) (ih (Nat.succ.inj h))
    | none =>
      rw [hline] at h
      cases h

theorem readable_append_of_ne {a : List (List UInt8)} (h : (readable a).length ≠ a.length)
    (b : List (List UInt8)) : readable (a ++ b) = readable a := by
  induction a with
  | nil => exact absurd rfl h
  | cons line a ih =>
    rw [List.cons_append, readable, readable]
    cases hline : lineText? line with
    | some text =>
      rw [readable, hline] at h
      exact congrArg (text :: ·) (ih fun hlength => h (congrArg Nat.succ hlength))
    | none => rfl

/-! ## The bytes of a text -/

def bytesOf (cs : List Char) : List UInt8 := cs.flatMap String.utf8EncodeChar

theorem toUTF8_eq_bytesOf (s : String) : s.toUTF8.data.toList = bytesOf s.toList := by
  rw [String.toUTF8_eq_toByteArray, ← String.utf8Encode_toList, List.utf8Encode]
  simp [bytesOf]

theorem fromUTF8?_eq_some_iff {bytes : List UInt8} {s : String} :
    String.fromUTF8? ⟨bytes.toArray⟩ = some s ↔ bytes = bytesOf s.toList := by
  rw [Text.fromUTF8?_eq_some_iff_toUTF8, ← toUTF8_eq_bytesOf]
  constructor
  · intro h
    rw [← h]
  · rintro rfl
    rfl

/-- Only a line feed is written with the byte of a line feed. -/
theorem ten_mem_utf8EncodeChar_iff {c : Char} : 10 ∈ String.utf8EncodeChar c ↔ c = '\n' := by
  constructor
  · intro h
    have hbyte : ∀ n : Nat, 10 = UInt8.ofNat n → n % 256 = 10 := by
      intro n hn
      simpa [eq_comm] using congrArg UInt8.toNat hn
    -- The bytes of a character that takes more than one are all at least 128.
    have hlarge : ∀ n : Nat, 128 ≤ n → n < 256 → (10 : UInt8) ≠ UInt8.ofNat n := by
      intro n hn hn' heq
      have := hbyte n heq
      omega
    have hcode : c.val.toNat = 10 := by
      have hlt := c.val.toNat_lt
      rw [String.utf8EncodeChar] at h
      split at h
      · have := hbyte _ (List.mem_singleton.1 h)
        omega
      · split at h
        · simp only [List.mem_cons, List.not_mem_nil, or_false] at h
          rcases h with h | h <;> exact absurd h (hlarge _ (by omega) (by omega))
        · split at h
          · simp only [List.mem_cons, List.not_mem_nil, or_false] at h
            rcases h with h | h | h <;> exact absurd h (hlarge _ (by omega) (by omega))
          · simp only [List.mem_cons, List.not_mem_nil, or_false] at h
            rcases h with h | h | h | h <;> exact absurd h (hlarge _ (by omega) (by omega))
    exact Char.ext (UInt32.toNat_inj.1 hcode)
  · rintro rfl
    decide

variable {cs : List Char} {s : String}

theorem ten_mem_bytesOf_iff : 10 ∈ bytesOf cs ↔ '\n' ∈ cs := by
  simp [bytesOf, ten_mem_utf8EncodeChar_iff]

theorem bytesOf_concat (cs : List Char) (c : Char) :
    bytesOf (cs ++ [c]) = bytesOf cs ++ String.utf8EncodeChar c := by
  simp [bytesOf]

theorem bytesOf_newline (cs : List Char) : bytesOf (cs ++ ['\n']) = bytesOf cs ++ [10] :=
  bytesOf_concat cs '\n'

theorem exists_eq_concat_newline (h : bytesOf cs = body ++ [10]) (hbody : 10 ∉ body) :
    ∃ front, cs = front ++ ['\n'] ∧ '\n' ∉ front := by
  cases cs using List.reverseRecOn with
  | nil => simp [bytesOf] at h
  | append_singleton front c =>
    have hlast : 10 ∈ String.utf8EncodeChar c := by
      have hne : String.utf8EncodeChar c ≠ [] := by simp
      have hlast := congrArg List.getLast? h
      rw [bytesOf_concat, List.getLast?_append_of_ne_nil _ hne, List.getLast?_concat] at hlast
      exact List.mem_of_getLast? hlast
    obtain rfl := ten_mem_utf8EncodeChar_iff.1 hlast
    rw [bytesOf_newline, List.append_cancel_right_eq] at h
    exact ⟨front, rfl, fun hfront => hbody (h ▸ ten_mem_bytesOf_iff.2 hfront)⟩

/-! ## Reading lines -/

theorem dropEnd_of_not_mem (h : '\n' ∉ cs) : dropEnd cs = cs := by
  rw [dropEnd]
  split
  · next hcs => simp_all [List.reverse_eq_cons_iff]
  · next hcs => simp_all [List.reverse_eq_cons_iff]
  · rfl

theorem dropEnd_concat (h : cs.getLast? ≠ some '\r') : dropEnd (cs ++ ['\n']) = cs := by
  rw [dropEnd, List.reverse_concat]
  split
  · next rest hcs =>
    have hlast := congrArg List.head? (List.cons.inj hcs).2
    rw [List.head?_reverse] at hlast
    exact absurd hlast h
  · next rest _ hcs => rw [← (List.cons.inj hcs).2, List.reverse_reverse]
  · next hno => exact absurd rfl (hno _)

theorem dropEnd_returned (cs : List Char) : dropEnd (cs ++ ['\r', '\n']) = cs := by
  rw [dropEnd, List.reverse_append]
  exact List.reverse_reverse cs

theorem mem_of_mem_dropEnd {c : Char} (h : c ∈ dropEnd (cs ++ ['\n'])) : c ∈ cs := by
  by_cases hlast : cs.getLast? = some '\r'
  · obtain ⟨front, rfl⟩ := List.getLast?_eq_some_iff.1 hlast
    rw [List.append_assoc] at h
    exact List.mem_append_left _ (dropEnd_returned front ▸ h)
  · rwa [dropEnd_concat hlast] at h

theorem lineText?_bytesOf (cs : List Char) :
    lineText? (bytesOf cs) = some (String.ofList (dropEnd cs)) := by
  have hread : String.fromUTF8? ⟨(bytesOf cs).toArray⟩ = some (String.ofList cs) := by
    rw [fromUTF8?_eq_some_iff, String.toList_ofList]
  rw [lineText?, hread, Option.map_some, String.toList_ofList]

theorem exists_of_lineText? {line : List UInt8} {text : String} (h : lineText? line = some text) :
    ∃ cs, line = bytesOf cs ∧ text.toList = dropEnd cs := by
  obtain ⟨s, hs, rfl⟩ := Option.map_eq_some_iff.1 h
  exact ⟨s.toList, fromUTF8?_eq_some_iff.1 hs, String.toList_ofList⟩

theorem not_mem_of_lineText? {line : List UInt8} {text : String}
    (hline : IsEndedLine line ∨ 10 ∉ line) (h : lineText? line = some text) :
    '\n' ∉ text.toList := by
  obtain ⟨cs, rfl, htext⟩ := exists_of_lineText? h
  rw [htext]
  rcases hline with ⟨body, hbody, heq⟩ | hno
  · obtain ⟨front, rfl, hfront⟩ := exists_eq_concat_newline heq hbody
    exact fun hmem => hfront (mem_of_mem_dropEnd hmem)
  · rw [ten_mem_bytesOf_iff] at hno
    rwa [dropEnd_of_not_mem hno]

theorem exists_of_mem_readable {raw : List (List UInt8)} {text : String} (h : text ∈ readable raw) :
    ∃ line ∈ raw, lineText? line = some text := by
  induction raw with
  | nil => cases h
  | cons line raw ih =>
    rw [readable] at h
    cases hline : lineText? line with
    | none =>
      rw [hline] at h
      cases h
    | some first =>
      rw [hline] at h
      rcases List.mem_cons.1 h with rfl | hmore
      · exact ⟨line, List.mem_cons_self, hline⟩
      · obtain ⟨other, hother, htext⟩ := ih hmore
        exact ⟨other, List.mem_cons_of_mem _ hother, htext⟩

theorem not_mem_of_mem_lines {text : String} (h : text ∈ lines bytes) : '\n' ∉ text.toList := by
  obtain ⟨ended, rest, hended, hrest, rfl⟩ := exists_ended_append bytes
  obtain ⟨line, hline, htext⟩ := exists_of_mem_readable h
  rw [rawLines_flatten_append hended, rawLines_of_not_mem hrest] at hline
  refine not_mem_of_lineText? ?_ htext
  rcases List.mem_append.1 hline with hline | hline
  · exact .inl (hended line hline)
  · exact .inr (eq_of_mem_lastLine hline ▸ hrest)

/-! ## Lines that are written -/

/-- The bytes are these lines, written one after the other. Each ends in a line feed, or in a
carriage return and a line feed; the last one may lack its end. -/
inductive Writes : List UInt8 → List String → Prop
  | nothing : Writes [] []
  | last {s : String} (hne : s ≠ "") (hfeed : '\n' ∉ s.toList) : Writes (bytesOf s.toList) [s]
  | feed {s : String} {bytes : List UInt8} {texts : List String} (hfeed : '\n' ∉ s.toList)
      (hreturn : s.toList.getLast? ≠ some '\r') (hrest : Writes bytes texts) :
      Writes (bytesOf s.toList ++ 10 :: bytes) (s :: texts)
  | returnFeed {s : String} {bytes : List UInt8} {texts : List String} (hfeed : '\n' ∉ s.toList)
      (hrest : Writes bytes texts) : Writes (bytesOf s.toList ++ 13 :: 10 :: bytes) (s :: texts)

theorem lines_append (h : 10 ∉ bytesOf cs) (bytes : List UInt8) :
    lines (bytesOf cs ++ 10 :: bytes) = String.ofList (dropEnd (cs ++ ['\n'])) :: lines bytes := by
  rw [lines, rawLines_append_cons h, ← bytesOf_newline, readable, lineText?_bytesOf]
  rfl

theorem lastLine_bytesOf (hne : s ≠ "") : lastLine (bytesOf s.toList) = [bytesOf s.toList] := by
  have hbytes : bytesOf s.toList ≠ [] := by
    simpa [bytesOf, List.flatMap_eq_nil_iff, ← List.eq_nil_iff_forall_not_mem] using hne
  simp [lastLine, hbytes]

theorem returned_append (cs : List Char) (bytes : List UInt8) :
    bytesOf cs ++ 13 :: 10 :: bytes = bytesOf (cs ++ ['\r']) ++ 10 :: bytes := by
  rw [bytesOf_concat, List.append_assoc]
  rfl

theorem not_mem_bytesOf_returned (hfeed : '\n' ∉ cs) : 10 ∉ bytesOf (cs ++ ['\r']) :=
  mt ten_mem_bytesOf_iff.1 (by simpa using hfeed)

/-- **Lines that are written are read back as they are.** -/
theorem lines_of_writes {texts : List String} (h : Writes bytes texts) : lines bytes = texts := by
  induction h with
  | nothing => rfl
  | last hne hfeed =>
    rw [lines, rawLines_of_not_mem (mt ten_mem_bytesOf_iff.1 hfeed), lastLine_bytesOf hne, readable,
      lineText?_bytesOf, dropEnd_of_not_mem hfeed, String.ofList_toList]
    rfl
  | feed hfeed hreturn _ ih =>
    rw [lines_append (mt ten_mem_bytesOf_iff.1 hfeed), dropEnd_concat hreturn,
      String.ofList_toList, ih]
  | returnFeed hfeed _ ih =>
    rw [returned_append, lines_append (not_mem_bytesOf_returned hfeed), List.append_assoc,
      List.singleton_append, dropEnd_returned, String.ofList_toList, ih]

theorem exists_writes (cs : List Char) : ∃ texts, Writes (bytesOf cs) texts := by
  induction hlength : cs.length using Nat.strong_induction_on generalizing cs with
  | _ n ih =>
    -- What comes behind the first line feed is shorter.
    by_cases hfeed : '\n' ∈ cs
    · obtain ⟨front, more, rfl, hfront⟩ := List.eq_append_cons_of_mem hfeed
      obtain ⟨texts, htexts⟩ := ih more.length (by simp [← hlength]; omega) more rfl
      have hbytes : bytesOf (front ++ '\n' :: more) = bytesOf front ++ 10 :: bytesOf more := by
        simp [bytesOf, show String.utf8EncodeChar '\n' = [10] from rfl]
      rw [hbytes]
      by_cases hreturn : front.getLast? = some '\r'
      · obtain ⟨start, rfl⟩ := List.getLast?_eq_some_iff.1 hreturn
        have hstart : '\n' ∉ (String.ofList start).toList := by simp_all
        have hwrites := Writes.returnFeed hstart htexts
        rw [String.toList_ofList] at hwrites
        rw [bytesOf_concat, List.append_assoc]
        exact ⟨_, hwrites⟩
      · have hwrites := Writes.feed (s := String.ofList front) (by simpa using hfront)
          (by simpa using hreturn) htexts
        rw [String.toList_ofList] at hwrites
        exact ⟨_, hwrites⟩
    · rcases eq_or_ne cs [] with rfl | hne
      · exact ⟨[], .nothing⟩
      · have hwrites := Writes.last (s := String.ofList cs) (by simpa using hne)
          (by simpa using hfeed)
        rw [String.toList_ofList] at hwrites
        exact ⟨_, hwrites⟩

/-- Whatever is text is the lines that are read of it, written one after the other. -/
theorem writes_lines (cs : List Char) : Writes (bytesOf cs) (lines (bytesOf cs)) := by
  obtain ⟨texts, htexts⟩ := exists_writes cs
  rwa [lines_of_writes htexts]

theorem length_rawLines_of_writes {texts : List String} (h : Writes bytes texts) :
    (rawLines bytes).length = texts.length := by
  induction h with
  | nothing => rfl
  | last hne hfeed =>
    rw [rawLines_of_not_mem (mt ten_mem_bytesOf_iff.1 hfeed), lastLine_bytesOf hne]; rfl
  | feed hfeed _ _ ih =>
    rw [rawLines_append_cons (mt ten_mem_bytesOf_iff.1 hfeed), List.length_cons, ih,
      List.length_cons]
  | returnFeed hfeed _ ih =>
    rw [returned_append, rawLines_append_cons (not_mem_bytesOf_returned hfeed),
      List.length_cons, ih, List.length_cons]

/-! ## What is captured -/

variable {text : String} {texts : List String}

theorem foldl_addLine (h : text ≠ "") (texts : List String) :
    texts.foldl addLine text = Text.joinWith "\n" (text :: texts) := by
  induction texts generalizing text with
  | nil => exact String.intercalate_singleton.symm
  | cons line texts ih =>
    have hadd : addLine text line = text ++ "\n" ++ line := if_neg (by simpa using h)
    rw [List.foldl_cons, hadd, ih (by simp [h]), Text.joinWith, Text.joinWith,
      String.intercalate_cons_cons, String.intercalate_cons_append]

/-- **What is captured of lines** is one below the other, without the empty ones at the start. -/
theorem captured_eq (texts : List String) :
    captured texts = Text.joinWith "\n" (texts.dropWhile String.isEmpty) := by
  induction texts with
  | nil => rfl
  | cons line texts ih =>
    by_cases hline : line = ""
    · subst hline
      exact ih
    · rw [List.dropWhile_cons_of_neg (by simpa using hline)]
      exact foldl_addLine hline texts

theorem split_joinWith (hne : texts ≠ []) (h : ∀ s ∈ texts, '\n' ∉ s.toList) :
    Text.split (· == '\n') (Text.joinWith "\n" texts) = texts := by
  have hpieces : (['\n'].intercalate (texts.map String.toList)).splitOn '\n' =
      texts.map String.toList :=
    List.splitOn_intercalate '\n' (by simpa using h) (by simpa using hne)
  rw [Text.split, Text.pieces_eq_splitOnP, Text.joinWith, String.toList_intercalate]
  refine (congrArg (List.map String.ofList) hpieces).trans ?_
  simp [List.map_map, Function.comp_def]

/-- The text that is captured of the lines that were given on: what it holds of them, when it is all
of them, and when it tells them apart. -/
structure CapturedFrom (told : List String) (text : String) : Prop where
  eq : text = Text.joinWith "\n" (told.dropWhile String.isEmpty)
  eq_all_iff : text = Text.joinWith "\n" told ↔ told = [""] ∨ told.head? ≠ some ""
  split_iff : told ≠ [] →
    (Text.split (· == '\n') text = told ↔ told = [""] ∨ told.head? ≠ some "")

theorem dropWhile_isEmpty_of_head (h : texts.head? ≠ some "") :
    texts.dropWhile String.isEmpty = texts := by
  cases texts with
  | nil => rfl
  | cons line texts => exact List.dropWhile_cons_of_neg (by simpa using h)

/-- The captured text tells the lines apart exactly if no empty one at the start is
missing in it. -/
theorem split_captured_iff (hne : texts ≠ []) (h : ∀ s ∈ texts, '\n' ∉ s.toList) :
    Text.split (· == '\n') (captured texts) = texts ↔ texts = [""] ∨ texts.head? ≠ some "" := by
  constructor
  · intro hsplit
    by_contra hno
    rw [not_or, not_not, List.head?_eq_some_iff] at hno
    obtain ⟨hone, more, rfl⟩ := hno
    rw [captured_eq, List.dropWhile_cons_of_pos rfl] at hsplit
    -- Without its first text the list is shorter, so that it is not the one that was captured.
    have hshort : (more.dropWhile String.isEmpty).length ≤ more.length :=
      (List.dropWhile_suffix _).length_le
    rcases eq_or_ne (more.dropWhile String.isEmpty) [] with hnil | hsome
    · rw [hnil] at hsplit
      exact hone hsplit.symm
    · have hmore : ∀ s ∈ more.dropWhile String.isEmpty, '\n' ∉ s.toList := fun s hs =>
        h s (List.mem_cons_of_mem _ ((List.dropWhile_suffix _).subset hs))
      rw [split_joinWith hsome hmore] at hsplit
      rw [hsplit, List.length_cons] at hshort
      omega
  · rintro (rfl | hhead)
    · rfl
    · rw [captured_eq, dropWhile_isEmpty_of_head hhead, split_joinWith hne h]

theorem capturedFrom (h : ∀ s ∈ texts, '\n' ∉ s.toList) : CapturedFrom texts (captured texts) where
  eq := captured_eq texts
  eq_all_iff := by
    rcases eq_or_ne texts [] with rfl | hne
    · simp [captured_eq]
    constructor
    · intro hall
      rw [← split_captured_iff hne h, hall, split_joinWith hne h]
    · rintro (rfl | hhead)
      · rfl
      · rw [captured_eq, dropWhile_isEmpty_of_head hhead]
  split_iff := fun hne => split_captured_iff hne h

end Stagehand.Live

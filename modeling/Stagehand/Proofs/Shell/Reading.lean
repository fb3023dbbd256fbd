import Mathlib.Data.List.TakeWhile
import Stagehand.Shell.Quote
import Stagehand.Shell.Token

/-!
# Reading one simple command

What a POSIX shell makes of a line that holds one simple command, and how it reads quoted words.

**The reader.** `splitWords` divides a line at its unquoted blanks, removes the quotes and keeps of
every character whether it was quoted. A line in which an unquoted character would be expanded, act
as an operator, match file names or start a comment is not read at all, so whatever is read stands
for itself. `readSimple` takes the words in front that begin with an unquoted name and an unquoted
`=` as assignments; all others are the program and its arguments.

Main results: `splitWords_quoteAll` (the words of a quoted line are the words that were quoted) and
`readSimple_quoteAll` (which of them assign).
-/

namespace Stagehand.Shell

/-! ## Words -/

/-- The characters of a word, each with whether it was quoted. -/
abbrev MarkedWord := List (Char × Bool)

def MarkedWord.text (w : MarkedWord) : String := String.ofList (w.map Prod.fst)

/-- Where a character of a line stands. -/
inductive Standing where
  | bare
  /-- Behind a backslash. -/
  | escaped
  | single
  | double
  /-- Behind a backslash between double quotes. -/
  | doubleEscaped
  deriving DecidableEq

/-- Unquoted characters with a meaning of their own: operators, expansions, patterns, comments. -/
def isExposed (c : Char) : Bool := "|&;<>()$\x60\n*?[#~".toList.contains c

/-- Characters that a backslash quotes between double quotes. -/
def isEscapable (c : Char) : Bool := "$\x60\"\\".toList.contains c

/-- The word that is being read, with one more character. -/
def addMark (word : Option MarkedWord) (c : Char) (quoted : Bool) : Option MarkedWord :=
  some (word.getD [] ++ [(c, quoted)])

def splitWords : Standing → Option MarkedWord → List Char → Option (List MarkedWord)
  | .bare, word, [] => some word.toList
  | .escaped, _, [] | .single, _, [] | .double, _, [] | .doubleEscaped, _, [] => none
  | .bare, word, c :: cs =>
    if c = ' ' ∨ c = '\t' then (splitWords .bare none cs).map (word.toList ++ ·)
    else if c = '\'' then splitWords .single (some (word.getD [])) cs
    else if c = '"' then splitWords .double (some (word.getD [])) cs
    else if c = '\\' then splitWords .escaped word cs
    else if isExposed c then none
    else splitWords .bare (addMark word c false) cs
  | .escaped, word, c :: cs =>
    if c = '\n' then splitWords .bare word cs else splitWords .bare (addMark word c true) cs
  | .single, word, c :: cs =>
    if c = '\'' then splitWords .bare word cs else splitWords .single (addMark word c true) cs
  | .double, word, c :: cs =>
    if c = '"' then splitWords .bare word cs
    else if c = '\\' then splitWords .doubleEscaped word cs
    else if c = '$' ∨ c = '\x60' then none
    else splitWords .double (addMark word c true) cs
  | .doubleEscaped, word, c :: cs =>
    if c = '\n' then splitWords .double word cs
    else if isEscapable c then splitWords .double (addMark word c true) cs
    else splitWords .double (addMark (addMark word '\\' true) c true) cs

/-! ## Commands -/

/-- A simple command: the variables assigned for it, and its program with the arguments. -/
structure SimpleCommand where
  assignments : List (String × String)
  argv : List String
  deriving DecidableEq, Repr

/-- The name and the value of a word that begins with an unquoted name and an unquoted `=`. -/
def markedAssignment? (w : MarkedWord) : Option (String × String) :=
  let name := w.takeWhile (· != ('=', false))
  match w.dropWhile (· != ('=', false)) with
  | _ :: value =>
    if name.all (!·.2) && isName (MarkedWord.text name) then
      some (MarkedWord.text name, MarkedWord.text value)
    else none
  | [] => none

def SimpleCommand.ofWords : List MarkedWord → SimpleCommand
  | [] => ⟨[], []⟩
  | w :: ws =>
    match markedAssignment? w with
    | some a => { ofWords ws with assignments := a :: (ofWords ws).assignments }
    | none => ⟨[], (w :: ws).map MarkedWord.text⟩

/-- The line starts with an unquoted word that structures commands. -/
def startsReserved : List MarkedWord → Bool
  | [] => false
  | w :: _ => w.all (!·.2) && reservedWords.contains (MarkedWord.text w)

def readSimple (line : String) : Option SimpleCommand :=
  match splitWords .bare none line.toList with
  | some ws => if startsReserved ws then none else some (SimpleCommand.ofWords ws)
  | none => none

/-! ## Reading a quoted word -/

/-- The word needs no quotes. -/
def isPlainWord (cs : List Char) : Bool := !cs.isEmpty && cs.all isPlain

/-- A word with the marks that it has once it was quoted. -/
def wordMarks (cs : List Char) : MarkedWord := cs.map (·, !isPlainWord cs)

theorem text_map_mark (cs : List Char) (quoted : Bool) :
    MarkedWord.text (cs.map (·, quoted)) = String.ofList cs := by
  simp [MarkedWord.text, Function.comp_def]

theorem isPlain_of_isExposed {c : Char} (h : isExposed c) : isPlain c = false := by
  simp [isExposed] at h
  rcases h with rfl | rfl | rfl | rfl | rfl | rfl | rfl | rfl | rfl | rfl | rfl | rfl | rfl | rfl |
      rfl <;>
    rfl

theorem splitWords_plain {c : Char} (h : isPlain c) (word : Option MarkedWord) (cs : List Char) :
    splitWords .bare word (c :: cs) = splitWords .bare (addMark word c false) cs := by
  have hne : ∀ d, isPlain d = false → c ≠ d := by
    rintro d hd rfl
    exact absurd h (by simp [hd])
  have hexp : isExposed c = false :=
    Bool.eq_false_iff.2 fun hc => hne c (isPlain_of_isExposed hc) rfl
  rw [splitWords, if_neg, if_neg (hne '\'' (by decide)), if_neg (hne '"' (by decide)),
    if_neg (hne '\\' (by decide)), if_neg (by simp [hexp])]
  rintro (hc | hc)
  · exact hne ' ' (by decide) hc
  · exact hne '\t' (by decide) hc

theorem splitWords_plain_append {cs : List Char} (h : cs.all isPlain) (w : MarkedWord)
    (rest : List Char) :
    splitWords .bare (some w) (cs ++ rest) =
      splitWords .bare (some (w ++ cs.map (·, false))) rest := by
  induction cs generalizing w with
  | nil => simp
  | cons c cs ih =>
    obtain ⟨hc, hcs⟩ : isPlain c ∧ cs.all isPlain := by simpa using h
    rw [List.cons_append, splitWords_plain hc, addMark, ih hcs]
    simp

/-- Between single quotes every character is read as itself, and an escaped quote as a quote. -/
theorem splitWords_escapeQuotes (cs : List Char) (w : MarkedWord) (rest : List Char) :
    splitWords .single (some w) (escapeQuotes cs ++ '\'' :: rest) =
      splitWords .bare (some (w ++ cs.map (·, true))) rest := by
  induction cs generalizing w with
  | nil => simp [escapeQuotes, splitWords]
  | cons c cs ih =>
    by_cases hc : c = '\''
    · subst hc
      have hsplit : escapeQuotes ('\'' :: cs) =
          '\'' :: '\\' :: '\'' :: '\'' :: escapeQuotes cs := by
        simp [escapeQuotes, escapedQuote]
      rw [hsplit]
      simp only [List.cons_append, splitWords, addMark]
      simpa using ih (w ++ [('\'', true)])
    · have hsplit : escapeQuotes (c :: cs) = c :: escapeQuotes cs := by
        simp [escapeQuotes, hc]
      rw [hsplit, List.cons_append, splitWords, if_neg hc, addMark]
      simpa using ih (w ++ [(c, true)])

theorem splitWords_quoteChars (cs rest : List Char) :
    splitWords .bare none (quoteChars cs ++ rest) =
      splitWords .bare (some (wordMarks cs)) rest := by
  by_cases h : isPlainWord cs
  · have hq : quoteChars cs = cs := if_pos h
    obtain ⟨hne, hall⟩ : cs ≠ [] ∧ cs.all isPlain := by simpa [isPlainWord] using h
    obtain ⟨c, cs, rfl⟩ := List.exists_cons_of_ne_nil hne
    obtain ⟨hc, hcs⟩ : isPlain c ∧ cs.all isPlain := by simpa using hall
    rw [hq, List.cons_append, splitWords_plain hc, addMark, splitWords_plain_append hcs]
    simp [wordMarks, h]
  · have hq : quoteChars cs = '\'' :: (escapeQuotes cs ++ ['\'']) := if_neg h
    rw [hq, List.cons_append, splitWords]
    simpa [wordMarks, h] using splitWords_escapeQuotes cs [] rest

/-! ## Reading a quoted line -/

theorem toList_quoteAll (words : List String) :
    (quoteAll words).toList = [' '].intercalate (words.map fun w => quoteChars w.toList) := by
  simp [quoteAll, Text.joinWith, quote, String.toList_intercalate, Function.comp_def]

/-- **Quoting is undone by the shell.** A line of quoted words is read as exactly these words. -/
theorem splitWords_quoteAll (words : List String) :
    splitWords .bare none (quoteAll words).toList =
      some (words.map fun w => wordMarks w.toList) := by
  rw [toList_quoteAll]
  induction words with
  | nil => simp [splitWords]
  | cons w ws ih =>
    cases ws with
    | nil =>
      have h := splitWords_quoteChars w.toList []
      simpa [splitWords] using h
    | cons v vs =>
      simp only [List.map_cons] at ih ⊢
      rw [List.intercalate_cons_cons, List.append_assoc, splitWords_quoteChars,
        List.singleton_append, splitWords, if_pos (.inl rfl), ih]
      simp

/-! ## Assignments in front -/

/-- The word that assigns a value to a variable. -/
def assignmentWord (v : String × String) : String := v.1 ++ "=" ++ v.2

/-- Every character of the value is plain. -/
def isPlainValue (value : String) : Bool := value.toList.all isPlain

theorem isPlain_of_inName {c : Char} (h : inName c) : isPlain c := by
  rcases Bool.or_eq_true_iff.1 h with h | h
  · simp [isPlain, h]
  · obtain rfl : c = '_' := by simpa using h
    decide

theorem inName_of_isName {name : String} (h : isName name) : ∀ c ∈ name.toList, inName c := by
  intro c hc
  unfold isName at h
  split at h
  · simp_all
  · rename_i d rest heq
    obtain ⟨hd, hrest⟩ : startsName d ∧ ∀ c ∈ rest, inName c := by simpa using h
    rcases List.mem_cons.1 (heq ▸ hc) with rfl | hc
    · rcases Bool.or_eq_true_iff.1 hd with hd | hd
      · simp [inName, Char.isAlphanum, hd]
      · simp [inName, hd]
    · exact hrest c hc

theorem toList_assignmentWord (v : String × String) :
    (assignmentWord v).toList = v.1.toList ++ '=' :: v.2.toList := by
  simp [assignmentWord]

/-- An assignment is quoted exactly if its value has to be. -/
theorem isPlainWord_assignmentWord {v : String × String} (h : isName v.1) :
    isPlainWord (assignmentWord v).toList = isPlainValue v.2 := by
  have hname : v.1.toList.all isPlain :=
    List.all_eq_true.2 fun c hc => isPlain_of_inName (inName_of_isName h c hc)
  have heq : isPlain '=' = true := by decide
  simp [isPlainWord, toList_assignmentWord, isPlainValue, hname, heq]

theorem markedAssignment?_map_true (cs : List Char) :
    markedAssignment? (cs.map (·, true)) = none := by
  have hdrop : (cs.map (·, true)).dropWhile (· != ('=', false)) = [] := by
    rw [List.dropWhile_eq_nil_iff]
    simp
  simp [markedAssignment?, hdrop]

theorem markedAssignment?_of_not_mem {cs : List Char} (h : '=' ∉ cs) (quoted : Bool) :
    markedAssignment? (cs.map (·, quoted)) = none := by
  have hdrop : (cs.map (·, quoted)).dropWhile (· != ('=', false)) = [] := by
    rw [List.dropWhile_eq_nil_iff]
    rintro x hx
    obtain ⟨c, hc, rfl⟩ := List.mem_map.1 hx
    have hne : c ≠ '=' := fun heq => h (heq ▸ hc)
    simp [hne]
  simp [markedAssignment?, hdrop]

theorem markedAssignment?_map_false {v : String × String} (h : isName v.1) :
    markedAssignment? ((assignmentWord v).toList.map (·, false)) = some v := by
  have hname : ∀ x ∈ v.1.toList.map (·, false), (x != ('=', false)) = true := by
    intro x hx
    obtain ⟨c, hc, rfl⟩ := List.mem_map.1 hx
    have hne : c ≠ '=' := by
      rintro rfl
      exact absurd (inName_of_isName h _ hc) (by decide)
    simp [hne]
  have hsplit : (assignmentWord v).toList.map (·, false) =
      v.1.toList.map (·, false) ++ ('=', false) :: v.2.toList.map (·, false) := by
    simp [toList_assignmentWord]
  rw [markedAssignment?, hsplit, List.takeWhile_append_of_pos hname,
    List.dropWhile_append_of_pos hname]
  simp [text_map_mark, h]

theorem markedAssignment?_assignmentWord {v : String × String} (h : isName v.1) :
    markedAssignment? (wordMarks (assignmentWord v).toList) =
      if isPlainValue v.2 then some v else none := by
  rw [wordMarks, isPlainWord_assignmentWord h]
  cases isPlainValue v.2 with
  | true => exact markedAssignment?_map_false h
  | false => exact markedAssignment?_map_true _

/-- Assignments in front of a program are read as such up to the first whose value is quoted; that
one is then the program. -/
theorem ofWords_wordMarks {vars : List (String × String)} (hvars : ∀ v ∈ vars, isName v.1)
    {program : String} (hprogram : '=' ∉ program.toList) (args : List String) :
    SimpleCommand.ofWords
        ((vars.map assignmentWord ++ program :: args).map fun w => wordMarks w.toList) =
      { assignments := vars.takeWhile fun v => isPlainValue v.2
        argv :=
          (vars.dropWhile fun v => isPlainValue v.2).map assignmentWord ++ program :: args } := by
  have htexts : ∀ ws : List String,
      (ws.map fun w => wordMarks w.toList).map MarkedWord.text = ws := by
    intro ws
    simp [wordMarks, text_map_mark, Function.comp_def]
  induction vars with
  | nil =>
    have hnone : markedAssignment? (wordMarks program.toList) = none :=
      markedAssignment?_of_not_mem hprogram _
    simp only [List.map_nil, List.nil_append, List.takeWhile_nil, List.dropWhile_nil]
    rw [List.map_cons, SimpleCommand.ofWords, hnone]
    exact congrArg (SimpleCommand.mk []) (htexts (program :: args))
  | cons v vars ih =>
    obtain ⟨hv, hvars⟩ := List.forall_mem_cons.1 hvars
    rw [List.map_cons, List.cons_append, List.map_cons, SimpleCommand.ofWords,
      markedAssignment?_assignmentWord hv]
    -- A value that had to be quoted stops the assignments: what follows is read as words.
    by_cases hplain : isPlainValue v.2
    · simp only [hplain, if_true, ih hvars, List.takeWhile_cons, List.dropWhile_cons]
    · have hfalse : isPlainValue v.2 = false := by simpa using hplain
      simp only [hfalse, List.takeWhile_cons, List.dropWhile_cons, Bool.false_eq_true, if_false]
      exact congrArg (SimpleCommand.mk [])
        (htexts (assignmentWord v :: (vars.map assignmentWord ++ program :: args)))

theorem not_startsReserved_of_mem {w : String} (h : '=' ∈ w.toList) (ws : List MarkedWord) :
    startsReserved (wordMarks w.toList :: ws) = false := by
  have hfree : ∀ r ∈ reservedWords, '=' ∉ r.toList := by decide
  have hnot : w ∉ reservedWords := fun hc => hfree w hc h
  simp [startsReserved, wordMarks, text_map_mark, hnot]

/-- **Reading a quoted command line.** Variables are assigned up to the first whose value has to be
quoted; its word, and all behind it, are the program and its arguments. -/
theorem readSimple_quoteAll {vars : List (String × String)} (hvars : ∀ v ∈ vars, isName v.1)
    {program : String} (hprogram : '=' ∉ program.toList)
    (hreserved : program ∉ reservedWords) (args : List String) :
    readSimple (quoteAll (vars.map assignmentWord ++ program :: args)) =
      some
        { assignments := vars.takeWhile fun v => isPlainValue v.2
          argv :=
            (vars.dropWhile fun v => isPlainValue v.2).map assignmentWord ++ program :: args } := by
  have hstart : startsReserved
      ((vars.map assignmentWord ++ program :: args).map fun w => wordMarks w.toList) = false := by
    cases vars with
    | nil => simp [startsReserved, wordMarks, text_map_mark, hreserved]
    | cons v vars => exact not_startsReserved_of_mem (by simp [toList_assignmentWord]) _
  simp only [readSimple, splitWords_quoteAll, hstart, Bool.false_eq_true, if_false,
    ofWords_wordMarks hvars hprogram]

end Stagehand.Shell

import Stagehand.Command.Spec
import Stagehand.Proofs.Shell.Reading

/-!
# A quoted line says its words

A shell that reads a quoted line gets the words that were quoted, whatever is in them, and finds
nothing in the line that it would act on (`readsAs_quoteAll`). So a line tells its words
(`quoteAll_injective`), and a command without secrets can be run again from the line that is
shown of it (`readsAs_commandLine`).

The reader keeps of every character whether it was quoted. A character outside of quotes comes from
a plain word, and plain characters mean nothing to a shell: that is all there is to **nothing being
exposed**, also where the quotes of a word are left for a quote that is in it.
-/

namespace Stagehand

namespace Shell

/-! ## Reading a line as words -/

/-- Characters that a shell may act on where they are not quoted: they part words or quote, run
other commands, stand for other texts or the names of files, or begin a comment. -/
def meaningfulChars : List Char := " \t\n'\"\\|&;<>()$\x60*?[]!^\x7b\x7d~#".toList

/-- A word in which nothing is left to act on. -/
def MarkedWord.Sheltered (w : MarkedWord) : Prop := ∀ c, (c, false) ∈ w → c ∉ meaningfulChars

/-- A shell reads the line as the words, and has nothing to act on in any of them. -/
def ReadsAs (line : String) (words : List String) : Prop :=
  ∃ ws : List MarkedWord, splitWords .bare none line.toList = some ws ∧
    ws.map MarkedWord.text = words ∧ ∀ w ∈ ws, w.Sheltered

theorem ReadsAs.unique {line : String} {words words' : List String} (h : ReadsAs line words)
    (h' : ReadsAs line words') : words = words' := by
  obtain ⟨ws, hread, rfl, -⟩ := h
  obtain ⟨ws', hread', rfl, -⟩ := h'
  rw [Option.some.inj (hread.symm.trans hread')]

/-! ## What quoting leaves outside of quotes -/

theorem not_isPlain_of_mem_meaningfulChars {c : Char} (h : c ∈ meaningfulChars) :
    isPlain c = false := by
  have hall : meaningfulChars.all (fun c => !isPlain c) = true := by decide
  simpa using List.all_eq_true.1 hall c h

theorem text_wordMarks (cs : List Char) : MarkedWord.text (wordMarks cs) = String.ofList cs :=
  text_map_mark cs _

/-- A character of a quoted word that stands outside of quotes is plain. -/
theorem isPlain_of_mem_wordMarks {cs : List Char} {c : Char} (h : (c, false) ∈ wordMarks cs) :
    isPlain c = true := by
  obtain ⟨d, hd, hmark⟩ := List.mem_map.1 h
  obtain ⟨rfl, hplain⟩ := Prod.mk.inj hmark
  have hword : isPlainWord cs = true := by simpa using hplain
  rw [isPlainWord, Bool.and_eq_true] at hword
  exact List.all_eq_true.1 hword.2 d hd

theorem sheltered_wordMarks (cs : List Char) : (wordMarks cs).Sheltered := by
  intro c hc hmeans
  have hplain := isPlain_of_mem_wordMarks hc
  rw [not_isPlain_of_mem_meaningfulChars hmeans] at hplain
  contradiction

/-- A quoted line is read as its words. -/
theorem readsAs_quoteAll (words : List String) : ReadsAs (quoteAll words) words := by
  refine ⟨words.map fun w => wordMarks w.toList, splitWords_quoteAll words, ?_, ?_⟩
  · simp [text_wordMarks, Function.comp_def]
  · intro w hw
    obtain ⟨v, -, rfl⟩ := List.mem_map.1 hw
    exact sheltered_wordMarks v.toList

theorem quoteAll_injective : Function.Injective quoteAll := by
  intro words words' h
  exact (readsAs_quoteAll words).unique (h ▸ readsAs_quoteAll words')

end Shell

/-! ## Commands -/

namespace CommandSpec

theorem redact_of_secrets_eq_nil {c : CommandSpec} (h : c.secrets = []) (text : String) :
    c.redact text = text := by
  simp [redact, h]

theorem commandLine_of_secrets_eq_nil {c : CommandSpec} (h : c.secrets = []) :
    c.commandLine = Shell.quoteAll c.argv := by
  simp only [commandLine, redact_of_secrets_eq_nil h]
  rfl

/-- **Quoting is undone by the shell.** Any list of words, quoted and put one behind the other, is
read as just that list; and so is the line that is shown of a command without secrets. -/
theorem readsAs_commandLine :
    (∀ words : List String, Shell.ReadsAs (Shell.quoteAll words) words) ∧
      ∀ c : CommandSpec, c.secrets = [] → Shell.ReadsAs c.commandLine c.argv := by
  refine ⟨Shell.readsAs_quoteAll, fun c hsecrets => ?_⟩
  rw [commandLine_of_secrets_eq_nil hsecrets]
  exact Shell.readsAs_quoteAll c.argv

/-- A command whose arguments are just what a shell would act on. One is empty, one has a quote,
a variable and a pattern in it, one the end of a line behind a backslash, and one a letter that
is not ASCII. -/
def trickyCommand : CommandSpec :=
  { program := "printf", args := ["", "it's $HOME *", "a\\\nb\x60#", "~è;\"'\"", "plain=1"] }

theorem readsAs_commandLine_trickyCommand :
    trickyCommand.secrets = [] ∧
      Shell.ReadsAs trickyCommand.commandLine
        ["printf", "", "it's $HOME *", "a\\\nb\x60#", "~è;\"'\"", "plain=1"] :=
  ⟨rfl, readsAs_commandLine.2 trickyCommand rfl⟩

end CommandSpec

end Stagehand

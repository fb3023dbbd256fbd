import Stagehand.Dispatch.AddressFile
import Stagehand.Proofs.Files.Tree
import Stagehand.Proofs.Network.Address

/-!
# What the address file tells

**Theorem (`addressFile_tells`).** An address that could be written to a file is read again,
whatever the file held before. Of all bytes that a file may hold, those are read as an address
that are a text whose first line is the dotted form of the address, with blanks around it or
without. A file that is missing or cannot be read, bytes that are no text and a blank first line
are errors of the configuration; any other line is not an address. Addresses given by hand are
read by the same rule.

Nothing behind the first line counts, and a carriage return at its end is a blank.
-/

namespace Stagehand

open Network (Address)
open Network.Address (IsDotted)
open Text (firstLine trimmed)

/-! ## Lines -/

theorem parseRunnerAddress_eq_ok_iff {s : String} {a : Address} :
    parseRunnerAddress s = .ok a ↔ IsDotted (trimmed s.toList) a := by
  rw [← Address.parseChars?_eq_some_iff, parseRunnerAddress, Address.parse?, Text.trim,
    String.toList_ofList]
  cases Address.parseChars? (trimmed s.toList) with
  | none => constructor <;> intro h <;> cases h
  | some found => exact ⟨fun h => by rw [Except.ok.inj h], fun h => by rw [Option.some.inj h]⟩

theorem parseRunnerAddress_of_forall_not {s : String} (h : ∀ a, ¬ IsDotted (trimmed s.toList) a) :
    parseRunnerAddress s = .error (.notAnAddress s) := by
  cases hparsed : Address.parse? (Text.trim s) with
  | none => rw [parseRunnerAddress, hparsed]
  | some a =>
    exact absurd (parseRunnerAddress_eq_ok_iff.1 (by rw [parseRunnerAddress, hparsed])) (h a)

theorem Network.Address.IsDotted.not_isBlank {cs : List Char} {a : Address} (h : IsDotted cs a) :
    ∀ c ∈ cs, Text.isBlank c = false := by
  intro c hc
  rcases h.digit_or_point c hc with hdigit | rfl
  · have hrange := Decimal.isDigit_iff.1 hdigit
    simp only [Text.isBlank, Bool.or_eq_false_iff, Bool.and_eq_false_iff, decide_eq_false_iff_not,
      beq_eq_false_iff_ne]
    omega
  · rfl

namespace AddressFile

variable {path : String} {files : FileTree} {cwd : List String} {text : String} {a : Address}

/-! ## Reading -/

/-- The first line decides, without the blanks around it. -/
theorem parse_eq (path text : String) :
    parse path text =
      if trimmed (firstLine text) = [] then .error (.configuration (.blankAddress path))
      else parseRunnerAddress (String.ofList (trimmed (firstLine text))) := by
  rw [parse, Text.trim, Text.trimmed_head?_lines]
  cases hline : trimmed (firstLine text) with
  | nil => rfl
  | cons c rest =>
    have hempty : (String.ofList (c :: rest)).isEmpty = false := by
      rw [String.isEmpty_eq_false_iff]
      exact fun h => List.cons_ne_nil c rest (String.ofList_eq_empty_iff.1 h)
    simp only [hempty, Bool.false_eq_true, if_false, List.cons_ne_nil]

theorem parse_eq_ok_iff : parse path text = .ok a ↔ IsDotted (trimmed (firstLine text)) a := by
  have hread : parseRunnerAddress (String.ofList (trimmed (firstLine text))) = .ok a ↔
      IsDotted (trimmed (firstLine text)) a := by
    rw [parseRunnerAddress_eq_ok_iff, String.toList_ofList, Text.trimmed_trimmed]
  rw [parse_eq]
  split
  · next hblank =>
    refine ⟨fun h => (nomatch h), fun ⟨p, q, r, s, hdotted, _⟩ => ?_⟩
    rw [hblank] at hdotted
    exact absurd hdotted.symm (by simp)
  · exact hread

theorem parse_of_forall_not (h : ∀ a, ¬ IsDotted (trimmed (firstLine text)) a)
    (hblank : ¬ ∀ c ∈ firstLine text, Text.isBlank c = true) :
    parse path text = .error (.notAnAddress (String.ofList (trimmed (firstLine text)))) := by
  rw [parse_eq, if_neg (mt Text.trimmed_eq_nil_iff.1 hblank)]
  refine parseRunnerAddress_of_forall_not ?_
  rwa [String.toList_ofList, Text.trimmed_trimmed]

theorem parse_of_blank (h : ∀ c ∈ firstLine text, Text.isBlank c = true) :
    parse path text = .error (.configuration (.blankAddress path)) := by
  rw [parse_eq, if_pos (Text.trimmed_eq_nil_iff.2 h)]

theorem read_of_error {e : FileError} (h : files.readBytes cwd path = .error e) :
    read path files cwd = .error (.configuration (.unreadableAddress path e)) := by
  simp only [read, FileTree.readText, h, bind, Except.bind]

theorem read_of_text (h : files.readBytes cwd path = .ok text.toUTF8) :
    read path files cwd = parse path text := by
  have htext : String.fromUTF8? text.toUTF8 = some text := Text.fromUTF8?_eq_some_iff_toUTF8.2 rfl
  simp only [read, FileTree.readText, h, bind, Except.bind, htext]

theorem read_of_not_text {bytes : ByteArray} (h : files.readBytes cwd path = .ok bytes)
    (htext : ∀ text : String, bytes ≠ text.toUTF8) :
    read path files cwd = .error (.configuration (.unreadableAddress path .notText)) := by
  have hnone : String.fromUTF8? bytes = none :=
    Option.eq_none_iff_forall_ne_some.2 fun text hsome =>
      htext text (Text.fromUTF8?_eq_some_iff_toUTF8.1 hsome)
  simp only [read, FileTree.readText, h, bind, Except.bind, hnone]

/-! ## What a file tells -/

/-- The first line of the file is the dotted form of an address, with blanks around it
or without. -/
def Tells (files : FileTree) (cwd : List String) (path : String) (a : Address) : Prop :=
  ∃ text : String, files.readBytes cwd path = .ok text.toUTF8 ∧
    IsDotted (trimmed (firstLine text)) a

/-- There is no line to be read: the file is missing or cannot be read, what it holds is no text, or
its first line is blank. -/
def TellsNothing (files : FileTree) (cwd : List String) (path : String) : Prop :=
  (∃ e, files.readBytes cwd path = .error e) ∨
    (∃ bytes, files.readBytes cwd path = .ok bytes ∧ ∀ text : String, bytes ≠ text.toUTF8) ∨
    ∃ text : String, files.readBytes cwd path = .ok text.toUTF8 ∧
      ∀ c ∈ firstLine text, Text.isBlank c = true

theorem Tells.read_eq (h : Tells files cwd path a) : read path files cwd = .ok a := by
  obtain ⟨text, hbytes, hdotted⟩ := h
  rw [read_of_text hbytes, parse_eq_ok_iff.2 hdotted]

theorem TellsNothing.exists_read_eq (h : TellsNothing files cwd path) :
    ∃ cause, read path files cwd = .error (.configuration cause) := by
  rcases h with ⟨e, hbytes⟩ | ⟨bytes, hbytes, htext⟩ | ⟨text, hbytes, hblank⟩
  · exact ⟨_, read_of_error hbytes⟩
  · exact ⟨_, read_of_not_text hbytes htext⟩
  · exact ⟨_, (read_of_text hbytes).trans (parse_of_blank hblank)⟩

/-- A line that is not blank and no address is refused as none. -/
theorem exists_read_eq_of_not_tells (hline : ¬ TellsNothing files cwd path)
    (hnone : ∀ a, ¬ Tells files cwd path a) :
    ∃ given, read path files cwd = .error (.notAnAddress given) := by
  cases hbytes : files.readBytes cwd path with
  | error e => exact absurd (.inl ⟨e, hbytes⟩) hline
  | ok bytes =>
    by_cases htext : ∃ text : String, bytes = text.toUTF8
    · obtain ⟨text, rfl⟩ := htext
      exact ⟨_, (read_of_text hbytes).trans (parse_of_forall_not
        (fun a ha => hnone a ⟨text, hbytes, ha⟩) fun hblank =>
          hline (.inr (.inr ⟨text, hbytes, hblank⟩)))⟩
    · exact absurd (.inr (.inl ⟨bytes, hbytes, not_exists.1 htext⟩)) hline

/-- A file is read in one of three ways. -/
theorem read_cases (files : FileTree) (cwd : List String) (path : String) :
    (∃ a, Tells files cwd path a ∧ read path files cwd = .ok a) ∨
      (TellsNothing files cwd path ∧
        ∃ cause, read path files cwd = .error (.configuration cause)) ∨
      (¬ TellsNothing files cwd path ∧ (∀ a, ¬ Tells files cwd path a) ∧
        ∃ given, read path files cwd = .error (.notAnAddress given)) := by
  by_cases hline : TellsNothing files cwd path
  · exact .inr (.inl ⟨hline, hline.exists_read_eq⟩)
  · by_cases htells : ∃ a, Tells files cwd path a
    · obtain ⟨a, ha⟩ := htells
      exact .inl ⟨a, ha, ha.read_eq⟩
    · have hnone := not_exists.1 htells
      exact .inr (.inr ⟨hline, hnone, exists_read_eq_of_not_tells hline hnone⟩)

theorem read_eq_ok_iff : read path files cwd = .ok a ↔ Tells files cwd path a := by
  refine ⟨fun h => ?_, Tells.read_eq⟩
  rcases read_cases files cwd path with ⟨b, hb, hread⟩ | ⟨-, _, hread⟩ | ⟨-, -, _, hread⟩ <;>
    rw [hread] at h <;> cases h
  exact hb

theorem exists_read_eq_configuration_iff :
    (∃ cause, read path files cwd = .error (.configuration cause)) ↔
    TellsNothing files cwd path := by
  refine ⟨fun ⟨cause, h⟩ => ?_, TellsNothing.exists_read_eq⟩
  rcases read_cases files cwd path with ⟨a, -, hread⟩ | ⟨hline, -⟩ | ⟨-, -, _, hread⟩
  · rw [hread] at h
    cases h
  · exact hline
  · rw [hread] at h
    cases h

theorem exists_read_eq_notAnAddress_iff :
    (∃ given, read path files cwd = .error (.notAnAddress given)) ↔
      ¬ TellsNothing files cwd path ∧ ∀ a, ¬ Tells files cwd path a := by
  refine ⟨fun ⟨given, h⟩ => ?_, fun ⟨hline, hnone⟩ => exists_read_eq_of_not_tells hline hnone⟩
  rcases read_cases files cwd path with ⟨a, -, hread⟩ | ⟨-, _, hread⟩ | ⟨hline, hnone, -⟩
  · rw [hread] at h
    cases h
  · rw [hread] at h
    cases h
  · exact ⟨hline, hnone⟩

/-! ## Writing and reading -/

theorem firstLine_render (a : Address) : firstLine (a.render ++ "\n") = a.renderChars := by
  have hline : ∀ c ∈ a.renderChars, (c != '\n') = true := by
    intro c hc
    have hblank := (Address.isDotted_iff.2 rfl : IsDotted a.renderChars a).not_isBlank c hc
    refine bne_iff_ne.2 ?_
    rintro rfl
    cases hblank
  have hchars : (a.render ++ "\n").toList = a.renderChars ++ ['\n'] := by
    rw [String.toList_append, Address.render, String.toList_ofList]
    rfl
  rw [firstLine, hchars, List.takeWhile_append_of_pos hline]
  exact List.append_nil _

/-- **What was written to a file tells the address**, whatever the file held before. -/
theorem tells_of_write {written : FileTree} (h : write path a files cwd = (.ok (), written))
    (hfile : written.isFile cwd path = true) : Tells written cwd path a := by
  unfold write at h
  split at h
  · cases h
  · next made hmade =>
    split at h
    · next tree hwritten =>
      obtain ⟨-, rfl⟩ := Prod.mk.inj h
      refine ⟨a.render ++ "\n", FileTree.readBytes_of_writeBytes hwritten hfile, ?_⟩
      have hdotted : IsDotted a.renderChars a := Address.isDotted_iff.2 rfl
      rwa [firstLine_render, Text.trimmed_of_forall_not hdotted.not_isBlank]
    · cases h

/-- **What the address file tells.** -/
theorem addressFile_tells (path : String) (cwd : List String) :
    (∀ address files written, write path address files cwd = (.ok (), written) →
      written.isFile cwd path = true → read path written cwd = .ok address) ∧
    (∀ files,
      (∀ a, read path files cwd = .ok a ↔ Tells files cwd path a) ∧
      ((∃ cause, read path files cwd = .error (.configuration cause)) ↔
        TellsNothing files cwd path) ∧
      ((∃ given, read path files cwd = .error (.notAnAddress given)) ↔
        ¬ TellsNothing files cwd path ∧ ∀ a, ¬ Tells files cwd path a)) ∧
    ∀ s, (∀ a, parseRunnerAddress s = .ok a ↔ IsDotted (trimmed s.toList) a) ∧
      ((∀ a, ¬ IsDotted (trimmed s.toList) a) → parseRunnerAddress s = .error (.notAnAddress s)) :=
  ⟨fun _ _ _ h hfile => (tells_of_write h hfile).read_eq,
    fun _ => ⟨fun _ => read_eq_ok_iff, exists_read_eq_configuration_iff,
      exists_read_eq_notAnAddress_iff⟩,
    fun _ => ⟨fun _ => parseRunnerAddress_eq_ok_iff, parseRunnerAddress_of_forall_not⟩⟩

/-- A workspace that holds an older address. -/
def olderFiles : FileTree :=
  ⟨[("ws", .dir [("sct_runner_ip", .file " 10.0.0.99\r\n10.0.0.100".toUTF8 false)])]⟩

/-- A newer address takes the place of an older one; the line behind the older one did not count. -/
theorem addressFile_tells_olderFiles :
    Tells olderFiles ["ws"] "sct_runner_ip" ⟨10, 0, 0, 99⟩ ∧
      ∃ written, write "sct_runner_ip" ⟨10, 0, 0, 7⟩ olderFiles ["ws"] = (.ok (), written) ∧
        written.isFile ["ws"] "sct_runner_ip" = true ∧
        read "sct_runner_ip" written ["ws"] = .ok ⟨10, 0, 0, 7⟩ := by
  obtain ⟨hwritten, hread, -⟩ := addressFile_tells "sct_runner_ip" ["ws"]
  have hwrite : write "sct_runner_ip" ⟨10, 0, 0, 7⟩ olderFiles ["ws"] =
      (.ok (), (write "sct_runner_ip" ⟨10, 0, 0, 7⟩ olderFiles ["ws"]).2) := rfl
  have hfile : ((write "sct_runner_ip" ⟨10, 0, 0, 7⟩ olderFiles ["ws"]).2).isFile ["ws"]
      "sct_runner_ip" = true := rfl
  exact ⟨((hread olderFiles).1 _).1 rfl, _, hwrite, hfile, hwritten _ _ _ hwrite hfile⟩

end AddressFile

end Stagehand

import Stagehand.Proofs.Text.Blank
import Stagehand.Proofs.Text.Replacement
import Stagehand.Remote.Agent

/-!
# What an agent prints is read back

An agent tells where it is as statements of a shell, among others that are of no interest. A
printed text is taken as the list of its statements, and of these only the ones that set a variable
count for its value (`KeyAgent.valueOf?_eq`). What is put behind a text in which a statement has
just ended adds its own statements to the list (`KeyAgent.settings_append`), so whatever is around
a setting does not change what it says; and a variable is not taken for another one that it does
not begin with (`KeyAgent.IsApart`).

Main results: `KeyAgent.Surrounds.parse_eq_ok` and `KeyAgent.Surrounds.parse_eq_error`.
-/

namespace Stagehand

/-! ## Where two texts meet -/

namespace Text

variable {sep : Char → Bool} {a b first last : List Char} {front rest : List (List Char)}

/-- The last piece of a text and the first one of the text behind it are one piece. -/
theorem pieces_append (ha : pieces sep a = front ++ [last]) (hb : pieces sep b = first :: rest) :
    pieces sep (a ++ b) = front ++ (last ++ first) :: rest := by
  induction a generalizing front last with
  | nil =>
    obtain ⟨rfl, hlast⟩ := (List.append_eq_singleton_iff.1 ha.symm).resolve_right (by simp)
    obtain rfl := List.singleton_inj.1 hlast
    exact hb
  | cons c a ih =>
    obtain ⟨w, ws, hws⟩ := List.exists_cons_of_ne_nil (List.splitOnP_ne_nil sep a)
    rw [← pieces_eq_splitOnP] at hws
    rw [List.cons_append, pieces]
    rw [pieces, hws] at ha
    -- A separator ends the first piece; any other character lengthens it.
    split at ha
    · next hc =>
      rw [if_pos hc]
      cases front with
      | nil => cases (List.cons.inj ha).2
      | cons v front =>
        obtain ⟨rfl, htail⟩ := List.cons.inj ha
        rw [ih (hws.trans htail), List.cons_append]
    · next hc =>
      rw [if_neg hc]
      cases front with
      | nil =>
        obtain ⟨rfl, rfl⟩ := List.cons.inj ha
        have hnext : pieces sep (a ++ b) = (w ++ first) :: rest := @ih w [] hws
        rw [hnext, List.nil_append, List.cons_append]
      | cons v front =>
        obtain ⟨rfl, rfl⟩ := List.cons.inj ha
        have hnext : pieces sep (a ++ b) = w :: front ++ (last ++ first) :: rest := ih hws
        rw [hnext, List.cons_append, List.cons_append]

theorem trimmed_append_of_blank (ha : trimmed a = []) (b : List Char) :
    trimmed (a ++ b) = trimmed b := by
  rw [trimmed, trimmed, trimLeft,
    List.dropWhile_append_of_pos (trimmed_eq_nil_iff.1 ha), ← trimLeft]

end Text

namespace KeyAgent

variable {name other value statement printed before between after : String}

/-! ## Statements -/

def endsStatement (c : Char) : Bool := c == ';' || c == '\n'

/-- The statements of a printed text, without the blanks around them. -/
def statements (printed : String) : List (List Char) :=
  (Text.pieces endsStatement printed.toList).map Text.trimmed

/-- What is put behind this text begins a statement: behind its last end there is
nothing but blanks. -/
def OpensStatement (before : String) : Prop := (statements before).getLast? = some []

instance (before : String) : Decidable (OpensStatement before) :=
  inferInstanceAs (Decidable ((statements before).getLast? = some []))

/-- A statement, put between two texts. -/
def putBetween (before statement after : String) : String := before ++ statement ++ ";" ++ after

theorem statements_append (h : OpensStatement before) (rest : String) :
    statements (before ++ rest) = (statements before).dropLast ++ statements rest := by
  obtain ⟨first, others, hrest⟩ :=
    List.exists_cons_of_ne_nil (List.splitOnP_ne_nil endsStatement rest.toList)
  rw [← Text.pieces_eq_splitOnP] at hrest
  rw [OpensStatement, statements, List.getLast?_map, Option.map_eq_some_iff] at h
  obtain ⟨last, hlast, hblank⟩ := h
  obtain ⟨front, hfront⟩ := List.getLast?_eq_some_iff.1 hlast
  rw [statements, String.toList_append, Text.pieces_append hfront hrest, List.map_append,
    List.map_cons, Text.trimmed_append_of_blank hblank, statements, statements, hfront, hrest,
    List.map_append, List.map_singleton, List.dropLast_concat, List.map_cons]

/-- A statement is read as it was written. -/
theorem statements_cons (h : ∀ c ∈ statement.toList, endsStatement c = false) (rest : String) :
    statements (statement ++ ";" ++ rest) = Text.trimmed statement.toList :: statements rest := by
  have hchars : (statement ++ ";" ++ rest).toList =
      statement.toList ++ ';' :: rest.toList := by simp
  rw [statements, hchars, Text.pieces_eq_splitOnP,
    List.splitOnP_append_cons_of_forall_mem h ';' (by rfl), List.map_cons,
    ← Text.pieces_eq_splitOnP, statements]

/-! ## Settings -/

def setting (name value : String) : String := name ++ "=" ++ value

/-- The statements of a printed text that set a variable. -/
def settings (name printed : String) : List (List Char) :=
  (statements printed).filter fun s => Text.startsWith (name ++ "=").toList s

theorem settings_eq_nil_iff :
    settings name printed = [] ↔ ∀ s ∈ statements printed, ¬ (name ++ "=").toList <+: s := by
  simp only [settings, List.filter_eq_nil_iff, Text.startsWith_iff]

theorem valueOf?_eq (name printed : String) :
    valueOf? name printed = (settings name printed).head?.map fun s =>
      String.ofList (Text.trimmed (s.drop (name ++ "=").toList.length)) := by
  have hread : valueOf? name printed = ((statements printed).findSome? fun s =>
      if Text.startsWith (name ++ "=").toList s then
        some (Text.trimmed (s.drop (name ++ "=").toList.length)) else none).map String.ofList := by
    rw [valueOf?, statements, List.findSome?_map]
    congr 2
    funext s
    have hname : (name ++ "=").toList = name.toList ++ ['='] := by simp
    rw [Function.comp_apply, statementValue?, Text.stripLeading?, hname]
    split <;> rfl
  rw [hread, settings]
  induction statements printed with
  | nil => rfl
  | cons s ss ih =>
    rw [List.findSome?_cons, List.filter_cons]
    by_cases hsets : Text.startsWith (name ++ "=").toList s = true
    · rw [if_pos hsets, if_pos hsets]
      rfl
    · rw [if_neg hsets, if_neg hsets]
      exact ih

theorem settings_append (h : OpensStatement before) (rest : String) :
    settings name (before ++ rest) = settings name before ++ settings name rest := by
  obtain ⟨front, hfront⟩ := List.getLast?_eq_some_iff.1 h
  have hnone : Text.startsWith (name ++ "=").toList [] = false := by simp [Text.startsWith]
  rw [settings, statements_append h, settings, settings, hfront, List.dropLast_concat,
    List.filter_append, List.filter_append, List.filter_singleton, hnone, cond_false,
    List.append_nil]

/-- What a statement adds to the settings of a variable. -/
theorem settings_putBetween (h : OpensStatement before)
    (hends : ∀ c ∈ statement.toList, endsStatement c = false) (after : String) :
    settings name (putBetween before statement after) = settings name before ++
      ([Text.trimmed statement.toList].filter (fun s => Text.startsWith (name ++ "=").toList s) ++
        settings name after) := by
  have hassoc : putBetween before statement after = before ++ (statement ++ ";" ++ after) := by
    simp only [putBetween, String.append_assoc]
  rw [hassoc, settings_append h, settings, settings, statements_cons hends, ← List.singleton_append,
    List.filter_append, ← settings, ← settings]

/-! ### Plain texts -/

/-- A text that ends no statement, and has no blanks around it. -/
structure IsPlain (text : String) : Prop where
  noEnd : ∀ c ∈ text.toList, endsStatement c = false
  trim_eq : Text.trim text = text

instance (text : String) : Decidable (IsPlain text) :=
  decidable_of_iff (text.toList.any endsStatement = false ∧ Text.trim text = text) <| by
    simp only [List.any_eq_false, Bool.not_eq_true]
    exact ⟨fun h => ⟨h.1, h.2⟩, fun h => ⟨h.noEnd, h.trim_eq⟩⟩

theorem toList_setting (name value : String) :
    (setting name value).toList = (name ++ "=").toList ++ value.toList :=
  String.toList_append

namespace IsPlain

theorem trimmed_eq (h : IsPlain value) : Text.trimmed value.toList = value.toList := by
  rw [← String.toList_ofList (l := Text.trimmed value.toList), ← Text.trim, h.trim_eq]

theorem exists_ends (h : IsPlain value) (hne : value ≠ "") : ∃ first last : Char,
    value.toList.head? = some first ∧ value.toList.getLast? = some last ∧
      Text.isBlank first = false ∧ Text.isBlank last = false := by
  have hsome : Text.trimmed value.toList ≠ [] := by
    rwa [h.trimmed_eq, Ne, String.toList_eq_nil_iff]
  simpa only [h.trimmed_eq] using Text.exists_ends_of_trimmed_ne_nil hsome

theorem setting (hname : IsPlain name) (hne : name ≠ "") (h : IsPlain value) :
    IsPlain (KeyAgent.setting name value) where
  noEnd := by
    simp only [toList_setting, String.toList_append, List.forall_mem_append]
    exact ⟨⟨hname.noEnd, List.forall_mem_singleton.2 rfl⟩, h.noEnd⟩
  trim_eq := by
    obtain ⟨first, -, hfirst, -, hbegins, -⟩ := hname.exists_ends hne
    have hhead : (KeyAgent.setting name value).toList.head? = some first := by
      rw [toList_setting, String.toList_append, List.append_assoc, List.head?_append, hfirst,
        Option.some_or]
    have hlast : ∃ last : Char, (KeyAgent.setting name value).toList.getLast? = some last ∧
        Text.isBlank last = false := by
      by_cases hempty : value = ""
      · exact ⟨'=', by simp [hempty, KeyAgent.setting], rfl⟩
      · obtain ⟨-, last, -, hlast, -, hblank⟩ := h.exists_ends hempty
        exact ⟨last, by rw [toList_setting, List.getLast?_append, hlast, Option.some_or], hblank⟩
    obtain ⟨last, hlast, hblank⟩ := hlast
    have hkept := Text.trimmed_eq_self hhead hlast ⟨hbegins, hblank⟩
    rw [Text.trim, hkept, String.ofList_toList]

end IsPlain

/-! ### Variables -/

/-- A variable whose settings are read back, and are not taken for those of the other one. -/
structure IsApart (name other : String) : Prop where
  plain : IsPlain name
  ne : name ≠ ""
  other : ∀ value, ¬ (other ++ "=").toList <+: (setting name value).toList

theorem isApart_of_length (plain : IsPlain name) (ne : name ≠ "") (hne : name ≠ other)
    (hlength : other.toList.length = name.toList.length) : IsApart name other where
  plain
  ne
  other value hprefix := by
    have hown : (name ++ "=").toList <+: (setting name value).toList :=
      ⟨value.toList, (toList_setting name value).symm⟩
    have hlen : (other ++ "=").toList.length = (name ++ "=").toList.length := by simp [hlength]
    have heq := (List.prefix_of_prefix_length_le hprefix hown hlen.le).eq_of_length hlen
    exact hne ((String.append_left_inj _).1 (String.toList_inj.1 heq)).symm

theorem valueOf?_of_settings (hvalue : IsPlain value)
    (h : settings name printed = [(setting name value).toList]) :
    valueOf? name printed = some value := by
  rw [valueOf?_eq, h, List.head?_cons, Option.map_some, toList_setting, List.drop_left,
    hvalue.trimmed_eq, String.ofList_toList]

theorem valueOf?_eq_none (h : settings name printed = []) : valueOf? name printed = none := by
  rw [valueOf?_eq, h]
  rfl

section Between

variable (hopens : OpensStatement before) (hname : IsApart name other) (hvalue : IsPlain value)
include hopens hname hvalue

/-- A setting between two texts is one of its variable. -/
theorem settings_putBetween_setting (after : String) :
    settings name (putBetween before (setting name value) after) =
      settings name before ++ (setting name value).toList :: settings name after := by
  have hplain := hname.plain.setting hname.ne hvalue
  have hstarts : Text.startsWith (name ++ "=").toList (setting name value).toList = true :=
    Text.startsWith_iff.2 ⟨value.toList, (toList_setting name value).symm⟩
  rw [settings_putBetween hopens hplain.noEnd, hplain.trimmed_eq, List.filter_cons_of_pos hstarts]
  rfl

/-- A setting between two texts is none of another variable. -/
theorem settings_putBetween_other (after : String) :
    settings other (putBetween before (setting name value) after) =
      settings other before ++ settings other after := by
  have hplain := hname.plain.setting hname.ne hvalue
  have hstarts : ¬ Text.startsWith (other ++ "=").toList (setting name value).toList = true := by
    rw [Text.startsWith_iff]
    exact hname.other value
  rw [settings_putBetween hopens hplain.noEnd, hplain.trimmed_eq, List.filter_cons_of_neg hstarts]
  rfl

end Between

/-! ## The two settings of an agent -/

/-- What is said of a text in which no agent can be found. -/
def unexpected (printed : String) : RunError :=
  .command "ssh-agent -s" (some 0) ("unexpected ssh-agent output: " ++ Text.trim printed)

/-- The two variables of an agent. -/
inductive ArePair : String → String → Prop where
  | socketPid : ArePair "SSH_AUTH_SOCK" "SSH_AGENT_PID"
  | pidSocket : ArePair "SSH_AGENT_PID" "SSH_AUTH_SOCK"

/-- The settings that tell where an agent is, in either order. -/
inductive IsSetBy (a : KeyAgent) : String → String → Prop where
  | socketFirst : IsSetBy a (setting "SSH_AUTH_SOCK" a.socket) (setting "SSH_AGENT_PID" a.pid)
  | pidFirst : IsSetBy a (setting "SSH_AGENT_PID" a.pid) (setting "SSH_AUTH_SOCK" a.socket)

/-- The texts around two statements, in which no statement sets a variable of an agent. -/
structure Surrounds (before between after : String) : Prop where
  opensFirst : OpensStatement before
  opensSecond : OpensStatement between
  silent : ∀ s ∈ statements (before ++ between ++ after),
    ¬ "SSH_AUTH_SOCK=".toList <+: s ∧ ¬ "SSH_AGENT_PID=".toList <+: s

namespace ArePair

theorem symm (h : ArePair name other) : ArePair other name := by
  cases h with
  | socketPid => exact .pidSocket
  | pidSocket => exact .socketPid

theorem isApart (h : ArePair name other) : IsApart name other := by
  cases h with
  | socketPid => exact isApart_of_length (by decide) (by decide) (by decide) (by decide)
  | pidSocket => exact isApart_of_length (by decide) (by decide) (by decide) (by decide)

end ArePair

theorem parse_eq_error (h : ArePair name other) (hnone : settings name printed = []) :
    parse printed = .error (unexpected printed) := by
  rw [parse]
  cases h with
  | socketPid =>
    rw [valueOf?_eq_none hnone]
    rfl
  | pidSocket =>
    rw [valueOf?_eq_none hnone]
    split
    · next hpid => cases hpid
    · rfl

namespace Surrounds

variable {value' first second : String} {a : KeyAgent} (h : Surrounds before between after)
include h

section Pairs

variable (hpair : ArePair name other)
include hpair

theorem settings_eq_nil : settings name (before ++ between ++ after) = [] := by
  rw [settings_eq_nil_iff]
  intro s hs
  cases hpair with
  | socketPid => exact (h.silent s hs).1
  | pidSocket => exact (h.silent s hs).2

theorem settings_parts_eq_nil :
    settings name before = [] ∧ settings name between = [] ∧ settings name after = [] := by
  have hsilent := h.settings_eq_nil hpair
  rwa [String.append_assoc, settings_append h.opensFirst, settings_append h.opensSecond,
    List.append_eq_nil_iff, List.append_eq_nil_iff] at hsilent

theorem valueOf?_both (hvalue : IsPlain value) (hvalue' : IsPlain value') :
    valueOf? name (putBetween before (setting name value)
        (putBetween between (setting other value') after)) = some value ∧
      valueOf? other (putBetween before (setting name value)
        (putBetween between (setting other value') after)) = some value' := by
  constructor
  · obtain ⟨hbefore, hbetween, hafter⟩ := h.settings_parts_eq_nil hpair
    refine valueOf?_of_settings hvalue ?_
    rw [settings_putBetween_setting h.opensFirst hpair.isApart hvalue,
      settings_putBetween_other h.opensSecond hpair.symm.isApart hvalue', hbefore, hbetween, hafter]
    rfl
  · obtain ⟨hbefore, hbetween, hafter⟩ := h.settings_parts_eq_nil hpair.symm
    refine valueOf?_of_settings hvalue' ?_
    rw [settings_putBetween_other h.opensFirst hpair.isApart hvalue,
      settings_putBetween_setting h.opensSecond hpair.symm.isApart hvalue', hbefore,
      hbetween, hafter]
    rfl

theorem settings_first_eq_nil (hvalue : IsPlain value) :
    settings other (putBetween before (setting name value) (between ++ after)) = [] := by
  rw [settings_putBetween_other h.opensFirst hpair.isApart hvalue, ← settings_append h.opensFirst,
    ← String.append_assoc]
  exact h.settings_eq_nil hpair.symm

theorem settings_second_eq_nil (hvalue : IsPlain value) :
    settings other (before ++ putBetween between (setting name value) after) = [] := by
  rw [settings_append h.opensFirst, settings_putBetween_other h.opensSecond hpair.isApart hvalue,
    ← settings_append h.opensSecond, ← settings_append h.opensFirst, ← String.append_assoc]
  exact h.settings_eq_nil hpair.symm

end Pairs

variable (hset : a.IsSetBy first second) (hsocket : IsPlain a.socket) (hpid : IsPlain a.pid)
include hset hsocket hpid

/-- **An agent is read back from its settings**, whatever is printed around them. -/
theorem parse_eq_ok :
    parse (putBetween before first (putBetween between second after)) = .ok a := by
  cases hset with
  | socketFirst =>
    obtain ⟨hfirst, hsecond⟩ := h.valueOf?_both .socketPid hsocket hpid
    rw [parse, hfirst, hsecond]
  | pidFirst =>
    obtain ⟨hfirst, hsecond⟩ := h.valueOf?_both .pidSocket hpid hsocket
    rw [parse, hfirst, hsecond]

/-- **Without both settings no agent is found.** -/
theorem parse_eq_error {printed : String}
    (hprinted : printed ∈ [putBetween before first (between ++ after),
      before ++ putBetween between second after, before ++ between ++ after]) :
    parse printed = .error (unexpected printed) := by
  simp only [List.mem_cons, List.not_mem_nil, or_false] at hprinted
  cases hset with
  | socketFirst =>
    rcases hprinted with rfl | rfl | rfl
    · exact KeyAgent.parse_eq_error .pidSocket (h.settings_first_eq_nil .socketPid hsocket)
    · exact KeyAgent.parse_eq_error .socketPid (h.settings_second_eq_nil .pidSocket hpid)
    · exact KeyAgent.parse_eq_error .socketPid (h.settings_eq_nil .socketPid)
  | pidFirst =>
    rcases hprinted with rfl | rfl | rfl
    · exact KeyAgent.parse_eq_error .socketPid (h.settings_first_eq_nil .pidSocket hpid)
    · exact KeyAgent.parse_eq_error .pidSocket (h.settings_second_eq_nil .socketPid hsocket)
    · exact KeyAgent.parse_eq_error .socketPid (h.settings_eq_nil .socketPid)

end Surrounds

end KeyAgent

end Stagehand

import Stagehand.CommandLine.Invocation
import Stagehand.Proofs.Config.Resolution
import Stagehand.Proofs.Text.Replacement

/-!
# The backend of a dispatch and the backend of its tool

A backend can be given in front of the command and, any number of times and in three spellings,
inside it. The tool gets one list of tokens with all of these in it, the one from the front first,
and goes by the last. The dispatch itself, which copies the credentials that its backend asks for,
goes by the one from the front if there is one, and only else by the last.

**Names.** `NamesBackends tokens names` tells which names a list of tokens gives, in
order. It follows the spellings, not the search for the last of them; that the search
finds the last is `namedBackend?_eq_getLast?`.

Main result: `Invocation.backend_eq_last_iff`. The two agree **exactly if the name from the front
stands for the same backend as the last name**.
-/

namespace Stagehand.Invocation

/-! ## The names in a list of tokens -/

/-- The options that a backend is named behind. -/
def backendOptions : List String := ["-b", "--backend"]

/-- What a token starts with that names a backend by itself. -/
def backendStem : String := "--backend="

/-- The names that tokens give to a backend, read from the left. Behind an option the next token is
its name, whatever it looks like. -/
inductive NamesBackends : List String → List String → Prop
  | nil : NamesBackends [] []
  | joined {name : String} {rest names : List String} (hrest : NamesBackends rest names) :
      NamesBackends ((backendStem ++ name) :: rest) (name :: names)
  | apart {option name : String} {rest names : List String} (hoption : option ∈ backendOptions)
      (hrest : NamesBackends rest names) : NamesBackends (option :: name :: rest) (name :: names)
  /-- Behind the last token there is no name. -/
  | unnamed {option : String} (hoption : option ∈ backendOptions) : NamesBackends [option] []
  | other {token : String} {rest names : List String} (hoption : token ∉ backendOptions)
      (hstem : ¬ backendStem.toList <+: token.toList) (hrest : NamesBackends rest names) :
      NamesBackends (token :: rest) names

/-- An option does not name a backend by itself. -/
theorem not_stem_of_mem {option : String} (h : option ∈ backendOptions) :
    ¬ backendStem.toList <+: option.toList := by
  revert option
  decide

theorem stem_starts (name : String) : backendStem.toList <+: (backendStem ++ name).toList :=
  ⟨name.toList, String.toList_append.symm⟩

theorem exists_namesBackends : ∀ tokens : List String, ∃ names, NamesBackends tokens names
  | [] => ⟨[], .nil⟩
  | [token] => by
    by_cases hoption : token ∈ backendOptions
    · exact ⟨[], .unnamed hoption⟩
    · cases hrest : Text.rest? token backendStem with
      | some name =>
        rw [Text.rest?_eq_some_iff.1 hrest]
        exact ⟨[name], .joined .nil⟩
      | none => exact ⟨[], .other hoption (Text.rest?_eq_none_iff.1 hrest) .nil⟩
  | token :: next :: rest => by
    by_cases hoption : token ∈ backendOptions
    · obtain ⟨names, hnames⟩ := exists_namesBackends rest
      exact ⟨next :: names, .apart hoption hnames⟩
    · obtain ⟨names, hnames⟩ := exists_namesBackends (next :: rest)
      cases hrest : Text.rest? token backendStem with
      | some name =>
        rw [Text.rest?_eq_some_iff.1 hrest]
        exact ⟨name :: names, .joined hnames⟩
      | none => exact ⟨names, .other hoption (Text.rest?_eq_none_iff.1 hrest) hnames⟩

/-- Behind an option stands a name, and then whatever the rest names. -/
theorem namesBackends_option_iff {option name : String} {rest names : List String}
    (hoption : option ∈ backendOptions) :
    NamesBackends (option :: name :: rest) names ↔
      ∃ inner, NamesBackends rest inner ∧ names = name :: inner := by
  constructor
  · generalize htokens : option :: name :: rest = tokens
    rintro (_ | _ | ⟨_, hrest⟩ | _ | ⟨hother, _, _⟩)
    · cases htokens
    · obtain ⟨rfl, -⟩ := List.cons.inj htokens
      exact absurd (stem_starts _) (not_stem_of_mem hoption)
    · obtain ⟨-, htokens⟩ := List.cons.inj htokens
      obtain ⟨rfl, rfl⟩ := List.cons.inj htokens
      exact ⟨_, hrest, rfl⟩
    · obtain ⟨-, htokens⟩ := List.cons.inj htokens
      cases htokens
    · obtain ⟨rfl, -⟩ := List.cons.inj htokens
      exact absurd hoption hother
  · rintro ⟨inner, hrest, rfl⟩
    exact .apart hoption hrest

/-! ## The search for the last name -/

theorem getLast?_cons_eq_or (name : String) (names : List String) :
    (name :: names).getLast? = names.getLast?.or (some name) := by
  rw [List.getLast?_cons]
  cases names.getLast? <;> rfl

theorem or_eq_true_iff_mem {token : String} :
    (token == "-b" || token == "--backend") = true ↔ token ∈ backendOptions := by
  simp [backendOptions]

/-- **The search finds the last name.** -/
theorem namedBackend?_eq_getLast? {tokens names : List String} (h : NamesBackends tokens names) :
    namedBackend? tokens = names.getLast? := by
  have hnone : ∀ {token : String}, ¬ backendStem.toList <+: token.toList →
      Text.rest? token "--backend=" = none := Text.rest?_eq_none_iff.2
  induction h with
  | nil => rfl
  | @joined name rest names _ ih =>
    have hname : Text.rest? (backendStem ++ name) "--backend=" = some name :=
      Text.rest?_eq_some_iff.2 rfl
    unfold namedBackend?
    rw [hname, getLast?_cons_eq_or, ← ih]
  | apart hoption _ ih =>
    rw [namedBackend?, hnone (not_stem_of_mem hoption), getLast?_cons_eq_or, ← ih]
    exact if_pos (or_eq_true_iff_mem.2 hoption)
  | unnamed hoption =>
    rw [namedBackend?, hnone (not_stem_of_mem hoption)]
    exact if_pos (or_eq_true_iff_mem.2 hoption)
  | other hoption hstem _ ih =>
    unfold namedBackend?
    rw [hnone hstem, ← ih]
    exact if_neg fun h => hoption (or_eq_true_iff_mem.1 h)

/-! ## Invocations -/

/-- The names in the tokens of the tool: the one from the front, and then those inside
the command. -/
theorem namesBackends_tokensOf_iff {a : DispatchArgs} {names : List String} :
    NamesBackends (tokensOf a) names ↔
      ∃ inner, NamesBackends a.command inner ∧ names = a.backend.toList ++ inner := by
  rw [tokensOf]
  cases a.backend with
  | none => simp
  | some front => exact namesBackends_option_iff (by decide)

/-- The parts of an invocation. -/
structure AskedBy (a : DispatchArgs) (i : Invocation) : Prop where
  tokens : i.tokens = tokensOf a
  target : targetOf a.runner = .ok i.target
  backend : backendOf (a.backend.or (namedBackend? a.command)) = .ok i.backend

theorem askedBy_of_ofArgs {a : DispatchArgs} {i : Invocation} (h : ofArgs a = .ok i) :
    AskedBy a i := by
  unfold ofArgs at h
  split at h
  · cases h
  · generalize hrun : (do
        let target ← targetOf a.runner
        let backend ← backendOf (a.backend.or (namedBackend? a.command))
        .ok { tokens := tokensOf a, backend, target } : RunResult Invocation) = run at h
    cases run with
    | error e => cases h
    | ok i' =>
      cases h
      obtain ⟨target, htarget, hrun⟩ := bind_eq_ok hrun
      obtain ⟨backend, hbackend, hrun⟩ := bind_eq_ok hrun
      cases hrun
      exact ⟨rfl, htarget, hbackend⟩

theorem eq_none_iff_of_backendOf {name : Option String} {backend : Option Backend}
    (h : backendOf name = .ok backend) : backend = none ↔ name = none := by
  cases name with
  | none =>
    cases h
    exact iff_of_true rfl rfl
  | some name =>
    revert h
    cases hparse : Backend.parse name <;> simp [backendOf, hparse, Except.map]
    rintro rfl
    simp

/-- A name that stands for a backend is told from any name that does not stand for the same. -/
theorem backendOf_some_eq_iff {name other : String} {backend : Option Backend}
    (h : backendOf (some other) = .ok backend) :
    backendOf (some name) = .ok backend ↔ Backend.parse name = Backend.parse other := by
  revert h
  cases hother : Backend.parse other <;> cases hname : Backend.parse name <;>
    simp [backendOf, hother, hname, Except.map]
  rintro rfl
  simp

/-- **The dispatch goes by the backend that its tool goes by exactly if** the name from the front,
where there is one, stands for the same backend as the last name that the tool is given. No backend
is gone by only if none is named. -/
theorem backend_eq_last_iff {a : DispatchArgs} {i : Invocation} (h : ofArgs a = .ok i) :
    (∃ names, NamesBackends i.tokens names) ∧
      ∀ names, NamesBackends i.tokens names →
        (i.backend = none ↔ names = []) ∧
        backendOf (a.backend.or names.getLast?) = .ok i.backend ∧
        (backendOf names.getLast? = .ok i.backend ↔
          ∀ front, a.backend = some front → ∀ last, names.getLast? = some last →
            Backend.parse last = Backend.parse front) := by
  have hasked := askedBy_of_ofArgs h
  refine ⟨exists_namesBackends _, fun names hnames => ?_⟩
  rw [hasked.tokens] at hnames
  obtain ⟨inner, hinner, rfl⟩ := namesBackends_tokensOf_iff.1 hnames
  have hbackend := hasked.backend
  rw [namedBackend?_eq_getLast? hinner] at hbackend
  -- The dispatch looks at the name from the front first, the tool takes the last one.
  cases hfront : a.backend with
  | none =>
    rw [hfront, Option.none_or] at hbackend
    refine ⟨?_, hbackend, by simpa using hbackend⟩
    rw [eq_none_iff_of_backendOf hbackend, List.getLast?_eq_none_iff]
    rfl
  | some front =>
    rw [hfront, Option.some_or] at hbackend
    obtain ⟨last, hlast⟩ : ∃ last, (front :: inner).getLast? = some last :=
      ⟨_, List.getLast?_eq_some_getLast (List.cons_ne_nil front inner)⟩
    refine ⟨?_, hbackend, ?_⟩
    · rw [eq_none_iff_of_backendOf hbackend]
      simp
    · show backendOf (front :: inner).getLast? = _ ↔ _
      rw [hlast, backendOf_some_eq_iff hbackend]
      simp [hlast]

/-- A backend in front of a command, and others inside it: in two spellings, and the last of them
without a name. -/
def manyBackends : DispatchArgs where
  runner := none
  dryRun := true
  backend := some "GCE"
  settings := none
  logFormat := none
  command := ["run-test", "-b", "aws", "longevity", "--backend=gce", "--backend"]

/-- The last name stands for the backend from the front. -/
theorem backend_eq_last_manyBackends :
    ∃ i, ofArgs manyBackends = .ok i ∧ NamesBackends i.tokens ["GCE", "aws", "gce"] ∧
      i.backend = some .gce ∧ backendOf (some "gce") = .ok i.backend := by
  have hargs : ofArgs manyBackends = .ok ⟨tokensOf manyBackends, some .gce, .here⟩ := rfl
  have hnames : NamesBackends (tokensOf manyBackends) ["GCE", "aws", "gce"] :=
    .apart (by decide) <| .other (by decide) (by decide) <| .apart (by decide) <|
      .other (by decide) (by decide) <| @NamesBackends.joined "gce" _ _ <| .unnamed (by decide)
  have hagree := (backend_eq_last_iff hargs).2 _ hnames
  refine ⟨_, hargs, hnames, rfl, hagree.2.2.2 ?_⟩
  rintro _ ⟨rfl⟩ _ ⟨rfl⟩
  rfl

/-- A backend in front of a command that names another one: the tool goes by the one inside, the
dispatch by the one from the front. -/
theorem backend_ne_last :
    ∃ a i, DispatchArgs.parse ["-b", "gce", "run-test", "--backend", "aws"] = .ok a ∧
      ofArgs a = .ok i ∧
      NamesBackends i.tokens ["gce", "aws"] ∧ Backend.parse "aws" = .ok .aws ∧
      i.backend = some .gce := by
  refine ⟨_, _, rfl, rfl, ?_, rfl, rfl⟩
  exact .apart (by decide) <| .other (by decide) (by decide) <| .apart (by decide) .nil

end Stagehand.Invocation

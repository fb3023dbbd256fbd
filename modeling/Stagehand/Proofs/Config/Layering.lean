import Stagehand.Proofs.Config.Resolution
import Stagehand.Proofs.Config.Variables

/-!
# Layers of parameters

Layers of parameters make a monoid: it makes no difference in which order a pile of them is put
together, as long as the layers keep their places (`RunParams.layers_monoid`).

Most fields follow their own upper layer, and for them this is the associativity of taking the
first of two choices. The duration has two fields that move together: whatever an upper layer
says of it, as a number or as a text that is none, replaces the text of the lower one. So a text
that is no number is gone exactly if a layer above gives a number and no layer above that one
gives another such text.

**Variables in layers.** Variables that are read in two goes make the parameters of one
go, but for one thing: behind a text that is no number, the number of the lower layer is
still there. Resolution refuses such parameters before it looks at the number, so that
it answers alike (`RunParams.resolve_in_two_goes`).
-/

namespace Stagehand

namespace NameMap

variable {α : Type}

theorem insertAll_toList_assoc (a b c : NameMap α) :
    (a.insertAll b.toList).insertAll c.toList = a.insertAll (b.insertAll c.toList).toList := by
  refine eq_of_get?_eq fun k => ?_
  simp only [get?_insertAll_toList, Option.or_assoc]

/-- A later list counts first. -/
theorem get?_ofList_append (xs ys : List (String × α)) (k : String) :
    (ofList (xs ++ ys)).get? k = ((ofList ys).get? k).or ((ofList xs).get? k) := by
  rw [get?_ofList, get?_ofList, get?_ofList, List.reverse_append, List.lookup_append]

end NameMap

namespace RunParams

/-! ## The monoid of layers -/

/-- Something is given for the duration, be it a number or not. -/
def tellsDuration (p : RunParams) : Bool := p.durationMinutes.isSome || p.invalidDuration.isSome

theorem invalidDuration_overlaidWith (lower upper : RunParams) :
    (lower.overlaidWith upper).invalidDuration =
      if upper.tellsDuration then upper.invalidDuration else lower.invalidDuration := rfl

theorem tellsDuration_overlaidWith (lower upper : RunParams) :
    (lower.overlaidWith upper).tellsDuration = (upper.tellsDuration || lower.tellsDuration) := by
  cases hminutes : upper.durationMinutes <;> cases hinvalid : upper.invalidDuration <;>
    simp [tellsDuration, overlaidWith, hminutes, hinvalid]

theorem overlaidWith_assoc (a b c : RunParams) :
    (a.overlaidWith b).overlaidWith c = a.overlaidWith (b.overlaidWith c) := by
  -- The uppermost layer that tells anything of the duration decides on it.
  have hinvalid : ((a.overlaidWith b).overlaidWith c).invalidDuration =
      (a.overlaidWith (b.overlaidWith c)).invalidDuration := by
    simp only [invalidDuration_overlaidWith, tellsDuration_overlaidWith]
    cases c.tellsDuration <;> rfl
  simp only [overlaidWith, RunParams.mk.injEq, Option.or_assoc, NameMap.insertAll_toList_assoc,
    true_and, and_true]
  exact hinvalid

theorem none_overlaidWith (p : RunParams) : none.overlaidWith p = p := by
  have hextra : (NameMap.empty : NameMap String).insertAll p.extraEnv.toList = p.extraEnv :=
    NameMap.ofList_toList p.extraEnv
  have hinvalid : (none.overlaidWith p).invalidDuration = p.invalidDuration := by
    rw [invalidDuration_overlaidWith]
    split
    · rfl
    · next h =>
      have hopen : p.durationMinutes = Option.none ∧ p.invalidDuration = Option.none := by
        simpa [tellsDuration] using h
      exact hopen.2.symm
  simp only [overlaidWith] at hinvalid ⊢
  simp only [none, Option.or_none, hextra] at hinvalid ⊢
  rw [hinvalid]

theorem overlaidWith_none (p : RunParams) : p.overlaidWith none = p := rfl

instance : Std.Associative overlaidWith := ⟨overlaidWith_assoc⟩

/-- Layers that are put together two piles at a time, the upper one on the lower one. -/
inductive Pile where
  | layer (p : RunParams)
  | stacked (lower upper : Pile)

namespace Pile

def layers : Pile → List RunParams
  | layer p => [p]
  | stacked lower upper => lower.layers ++ upper.layers

/-- The parameters that a pile makes. -/
def laid : Pile → RunParams
  | layer p => p
  | stacked lower upper => lower.laid.overlaidWith upper.laid

/-- A pile makes what its layers make one after the other. -/
theorem laid_eq_foldl (pile : Pile) : pile.laid = pile.layers.foldl overlaidWith none := by
  induction pile with
  | layer p => exact (none_overlaidWith p).symm
  | stacked lower upper ihLower ihUpper =>
    rw [layers, List.foldl_append, ← ihLower, laid, ihUpper,
      ← @List.foldl_assoc _ overlaidWith, overlaidWith_none]

end Pile

/-! ## Durations in layers -/

/-- A whole number is given, and nothing that is none. -/
def GivesMinutes (p : RunParams) : Prop :=
  p.durationMinutes.isSome ∧ p.invalidDuration = Option.none

/-- Either the upper layer gives minutes, or nothing is wrong in either. -/
theorem invalidDuration_overlaidWith_eq_none_iff {lower upper : RunParams} :
    (lower.overlaidWith upper).invalidDuration = Option.none ↔
      upper.invalidDuration = Option.none ∧
        (upper.durationMinutes.isSome ∨ lower.invalidDuration = Option.none) := by
  rw [overlaidWith]
  cases upper.durationMinutes <;> cases upper.invalidDuration <;> simp

/-- A duration that is no number is cleared exactly by a layer above that gives minutes, unless
another one follows. -/
theorem invalidDuration_foldl_eq_none_iff {lower : RunParams}
    (h : lower.invalidDuration ≠ Option.none) (uppers : List RunParams) :
    (uppers.foldl overlaidWith lower).invalidDuration = Option.none ↔
      ∃ good above, good :: above <:+ uppers ∧ good.GivesMinutes ∧
        ∀ p ∈ above, p.invalidDuration = Option.none := by
  -- The uppermost layer is taken away: it clears the fault, keeps it, or brings its own.
  induction uppers using List.reverseRecOn with
  | nil => simp [h]
  | append_singleton uppers top ih =>
    rw [List.foldl_concat, invalidDuration_overlaidWith_eq_none_iff, ih]
    constructor
    · rintro ⟨htop, hminutes | ⟨good, above, hsuffix, hgood, habove⟩⟩
      · exact ⟨top, [], List.suffix_append _ _, ⟨hminutes, htop⟩, by simp⟩
      · refine ⟨good, above ++ [top], ?_, hgood, ?_⟩
        · obtain ⟨below, rfl⟩ := hsuffix
          exact ⟨below, by simp⟩
        · simpa [or_imp, forall_and] using ⟨habove, htop⟩
    · rintro ⟨good, above, hsuffix, hgood, habove⟩
      rcases List.eq_nil_or_concat above with rfl | ⟨above, last, rfl⟩
      · obtain ⟨below, hbelow⟩ := hsuffix
        obtain ⟨-, rfl⟩ : below = uppers ∧ good = top := by simpa using hbelow
        exact ⟨hgood.2, .inl hgood.1⟩
      · obtain ⟨below, hbelow⟩ := hsuffix
        rw [List.concat_eq_append] at hbelow habove
        obtain ⟨rfl, rfl⟩ : below ++ good :: above = uppers ∧ last = top := by
          rw [← List.cons_append, ← List.append_assoc] at hbelow
          exact List.append_inj' hbelow rfl |>.imp_right (by simp)
        exact ⟨habove _ (by simp), .inr ⟨good, above, ⟨below, rfl⟩, hgood,
          fun p hp => habove p (List.mem_append_left _ hp)⟩⟩

/-- **Layers of parameters make a monoid**, so that a pile of layers makes the same however it is
put together. A duration that is no number is cleared exactly by a layer above that gives minutes,
if no other such duration follows it. -/
theorem layers_monoid :
    (∀ a b c : RunParams, (a.overlaidWith b).overlaidWith c = a.overlaidWith (b.overlaidWith c)) ∧
      (∀ p : RunParams, none.overlaidWith p = p ∧ p.overlaidWith none = p) ∧
      (∀ pile : Pile, pile.laid = pile.layers.foldl overlaidWith none) ∧
      ∀ lower : RunParams, lower.invalidDuration ≠ Option.none → ∀ uppers : List RunParams,
        ((uppers.foldl overlaidWith lower).invalidDuration = Option.none ↔
          ∃ good above, good :: above <:+ uppers ∧ good.GivesMinutes ∧
            ∀ p ∈ above, p.invalidDuration = Option.none) :=
  ⟨overlaidWith_assoc, fun p => ⟨none_overlaidWith p, overlaidWith_none p⟩, Pile.laid_eq_foldl,
    fun _ => invalidDuration_foldl_eq_none_iff⟩

/-- Hours are cleared by minutes, with a region laid over them, but not if days follow. -/
theorem layers_monoid_hours :
    let hours : RunParams := { durationMinutes := some 180, invalidDuration := some "6h" }
    let minutes : RunParams := { durationMinutes := some 240 }
    let region : RunParams := { region := some "eu-west-1" }
    let days : RunParams := { invalidDuration := some "2d" }
    hours.invalidDuration ≠ Option.none ∧
      ([minutes, region].foldl overlaidWith hours).invalidDuration = Option.none ∧
      ([minutes, days].foldl overlaidWith hours).invalidDuration ≠ Option.none := by
  intro hours minutes region days
  have hhours : hours.invalidDuration ≠ Option.none := by rintro ⟨⟩
  have hcleared := layers_monoid.2.2.2 hours hhours
  refine ⟨hhours,
    (hcleared _).2 ⟨minutes, [region], List.suffix_refl _, ⟨rfl, rfl⟩, by simp [region]⟩,
    fun h => ?_⟩
  obtain ⟨good, above, hsuffix, hgood, habove⟩ := (hcleared _).1 h
  simp only [List.suffix_cons_iff, List.suffix_nil, List.cons.injEq, reduceCtorEq, or_false]
    at hsuffix
  rcases hsuffix with ⟨rfl, rfl⟩ | ⟨rfl, rfl⟩
  · cases habove days List.mem_cons_self
  · cases hgood.2

/-! ## Variables in layers -/

/-- The parameters with other minutes, or without any. -/
def withMinutes (p : RunParams) (minutes : Option Int) : RunParams :=
  { p with durationMinutes := minutes }

/-- Beside a duration that is no number, resolution does not look at the minutes. -/
theorem resolve_withMinutes {p : RunParams} (h : p.invalidDuration ≠ Option.none)
    (minutes : Option Int) (policy : SelectorPolicy) :
    (p.withMinutes minutes).resolve policy = p.resolve policy := by
  obtain ⟨text, htext⟩ := Option.ne_none_iff_exists'.1 h
  simp only [resolve, withMinutes, htext]
  rfl

/-- Laying minutes over others makes no difference to what is laid beside them. -/
theorem overlaidWith_withMinutes (lower : RunParams) {upper : RunParams}
    (h : upper.invalidDuration ≠ Option.none) (minutes : Option Int) :
    lower.overlaidWith (upper.withMinutes minutes) =
      (lower.overlaidWith upper).withMinutes (minutes.or lower.durationMinutes) := by
  simp only [overlaidWith, withMinutes, Option.isSome_iff_ne_none.2 h, Bool.or_true]

/-- Variables that are read in two goes carry what they carry in one, but for the minutes. -/
theorem ofVariables_overlaidWith (xs ys : List (String × String)) :
    (ofVariables xs).overlaidWith (ofVariables ys) =
      (ofVariables (xs ++ ys)).withMinutes
        ((ofVariables ys).durationMinutes.or (ofVariables xs).durationMinutes) := by
  have hextra : ((ofVariables xs).extraEnv.insertAll (ofVariables ys).extraEnv.toList) =
      (ofVariables (xs ++ ys)).extraEnv := by
    refine NameMap.eq_of_get?_eq fun name => ?_
    rw [NameMap.get?_insertAll_toList]
    simp only [ofVariables_eq, get?_extraEnv_ofMap, NameMap.get?_ofList_append]
    split <;> rfl
  have hinvalid : ((ofVariables xs).overlaidWith (ofVariables ys)).invalidDuration =
      (ofVariables (xs ++ ys)).invalidDuration := by
    rw [invalidDuration_overlaidWith, tellsDuration]
    simp only [ofVariables_eq, ofMap, NameMap.get?_ofList_append]
    cases (NameMap.ofList ys).get? Variable.testDuration with
    | none => rfl
    | some text => cases h : Decimal.parseInt64? (Text.trim text) <;> simp [h]
  simp only [overlaidWith] at hinvalid ⊢
  simp only [hinvalid, hextra, withMinutes]
  simp only [ofVariables_eq, ofMap, NameMap.get?_ofList_append]

/-- The minutes are carried over too, unless what comes last is no number. -/
theorem ofVariables_append {xs ys : List (String × String)}
    (h : (ofVariables (xs ++ ys)).invalidDuration = Option.none) :
    (ofVariables xs).overlaidWith (ofVariables ys) = ofVariables (xs ++ ys) := by
  have hminutes : (ofVariables ys).durationMinutes.or (ofVariables xs).durationMinutes =
      (ofVariables (xs ++ ys)).durationMinutes := by
    simp only [ofVariables_eq, ofMap, NameMap.get?_ofList_append] at h ⊢
    cases hys : (NameMap.ofList ys).get? Variable.testDuration with
    | none => rfl
    | some text =>
      rw [hys] at h
      cases hminutes : Decimal.parseInt64? (Text.trim text) with
      | none => simp [hminutes] at h
      | some minutes => simp [hminutes]
  rw [ofVariables_overlaidWith, hminutes]
  rfl

/-- **Variables resolve alike in one go and in two**, laid over any parameters and by either policy.
The parameters that they are resolved from need not be the same. -/
theorem resolve_in_two_goes :
    (∀ (p : RunParams) (xs ys : List (String × String)) (policy : SelectorPolicy),
      (p.overlaidWith (ofVariables (xs ++ ys))).resolve policy =
        ((p.overlaidWith (ofVariables xs)).overlaidWith (ofVariables ys)).resolve policy) ∧
      ∃ (p : RunParams) (xs ys : List (String × String)),
        p.overlaidWith (ofVariables (xs ++ ys)) ≠
          (p.overlaidWith (ofVariables xs)).overlaidWith (ofVariables ys) := by
  constructor
  · intro p xs ys policy
    rw [overlaidWith_assoc]
    by_cases h : (ofVariables (xs ++ ys)).invalidDuration = Option.none
    · rw [ofVariables_append h]
    · have hrefused : (p.overlaidWith (ofVariables (xs ++ ys))).invalidDuration ≠ Option.none := by
        have htells : (ofVariables (xs ++ ys)).tellsDuration = true := by
          rw [tellsDuration, Option.isSome_iff_ne_none.2 h, Bool.or_true]
        rwa [invalidDuration_overlaidWith, if_pos htells]
      rw [ofVariables_overlaidWith, overlaidWith_withMinutes p h, resolve_withMinutes hrefused]
  · -- Behind a text that is no number, a layer of its own keeps the number of the layer below.
    refine ⟨none, [(Variable.testDuration, "60")], [(Variable.testDuration, "6h")], fun h => ?_⟩
    have hminutes := congrArg durationMinutes h
    revert hminutes
    decide +kernel

end RunParams

end Stagehand

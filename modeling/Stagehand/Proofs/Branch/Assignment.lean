import Mathlib.Data.List.Nodup
import Stagehand.Branch.FanOut
import Stagehand.Proofs.NameMap

/-!
# Which plan runs for which axis value

The axis values of a run are told apart in a list; its plans are kept in a map, from which
each value takes one. The two agree: each value is there once, and it takes the first plan
that has it (`assignments_eq`). So no value goes without a plan, and what is run is the first
plan of every value (`assignments_eq_distinctPlans`).
-/

namespace Stagehand

/-! ## Names in a list -/

theorem mem_distinctNames {seen names : List String} {name : String} :
    name ∈ distinctNames seen names ↔ name ∈ names ∧ name ∉ seen := by
  induction names generalizing seen with
  | nil => simp [distinctNames]
  | cons first rest ih =>
    unfold distinctNames
    split
    · rename_i hseen
      have hmem : first ∈ seen := by simpa using hseen
      rw [ih, List.mem_cons]
      refine ⟨fun h => ⟨.inr h.1, h.2⟩, fun h => ⟨h.1.resolve_left ?_, h.2⟩⟩
      rintro rfl
      exact h.2 hmem
    · rename_i hseen
      have hnot : first ∉ seen := by simpa using hseen
      rw [List.mem_cons, ih, List.mem_cons, List.mem_cons]
      by_cases hname : name = first
      · subst hname
        simp [hnot]
      · simp [hname]

theorem nodup_distinctNames (seen names : List String) : (distinctNames seen names).Nodup := by
  induction names generalizing seen with
  | nil => exact .nil
  | cons first rest ih =>
    unfold distinctNames
    split
    · exact ih seen
    · refine List.nodup_cons.2 ⟨fun hmem => ?_, ih _⟩
      exact (mem_distinctNames.1 hmem).2 List.mem_cons_self

/-! ## Plans in a map -/

theorem get?_foldl_plans (plans : List BranchPlan) (m : NameMap BranchPlan) (axis : String) :
    (plans.foldl (fun m p => if m.contains p.axis then m else m.insert p.axis p) m).get? axis =
      (m.get? axis).or (plans.find? (·.axis == axis)) := by
  induction plans generalizing m with
  | nil => exact Option.or_none.symm
  | cons p rest ih =>
    rw [List.foldl_cons, ih, List.find?_cons]
    by_cases hp : p.axis = axis
    · subst hp
      rw [beq_self_eq_true]
      cases hm : m.get? p.axis with
      | some q =>
        rw [if_pos (by rw [NameMap.contains, hm]; rfl), hm, Option.some_or, Option.some_or]
      | none =>
        rw [if_neg (by rw [NameMap.contains, hm]; exact Bool.false_ne_true), NameMap.get?_insert,
          if_pos rfl, Option.some_or, Option.none_or]
    · rw [beq_eq_false_iff_ne.2 hp]
      split
      · rfl
      · rw [NameMap.get?_insert, if_neg (Ne.symm hp)]

theorem get?_plansByAxis (plans : List BranchPlan) (axis : String) :
    (plansByAxis plans).get? axis = plans.find? (·.axis == axis) := by
  rw [plansByAxis, get?_foldl_plans, NameMap.get?_empty, Option.none_or]

/-- Where no name comes twice, none misses what another one has taken. -/
theorem handOut_of_nodup {names : List String} (m : NameMap BranchPlan) (h : names.Nodup) :
    handOut m names = names.map fun axis => (axis, m.get? axis) := by
  induction names generalizing m with
  | nil => rfl
  | cons first rest ih =>
    obtain ⟨hfirst, hrest⟩ := List.nodup_cons.1 h
    rw [handOut, ih _ hrest, List.map_cons]
    refine congrArg _ (List.map_congr_left fun axis haxis => ?_)
    have hne : axis ≠ first := fun heq => hfirst (heq ▸ haxis)
    rw [NameMap.get?_erase, if_neg hne]

/-! ## What is run -/

/-- **Each axis value is there once, and takes the first plan that has it.** -/
theorem assignments_eq (plans : List BranchPlan) :
    assignments plans = (distinctNames [] (plans.map (·.axis))).map fun axis =>
      (axis, plans.find? (·.axis == axis)) := by
  rw [assignments, handOut_of_nodup _ (nodup_distinctNames _ _)]
  exact List.map_congr_left fun axis _ => by rw [get?_plansByAxis]

/-- The plans that are run. -/
def distinctPlans (plans : List BranchPlan) : List BranchPlan := (assignments plans).filterMap (·.2)

theorem mem_distinctPlans {plans : List BranchPlan} {p : BranchPlan} :
    p ∈ distinctPlans plans ↔ plans.find? (·.axis == p.axis) = some p := by
  rw [distinctPlans, assignments_eq, List.filterMap_map, List.mem_filterMap]
  constructor
  · rintro ⟨axis, -, hfind⟩
    have hfind : plans.find? (·.axis == axis) = some p := hfind
    have haxis : p.axis = axis := by simpa using List.find?_some hfind
    rwa [← haxis] at hfind
  · intro hfind
    refine ⟨p.axis, mem_distinctNames.2 ⟨?_, List.not_mem_nil⟩, hfind⟩
    exact List.mem_map_of_mem (List.mem_of_find?_eq_some hfind)

/-- Every axis value has its plan. -/
theorem exists_mem_distinctPlans {plans : List BranchPlan} {axis : String}
    (h : axis ∈ plans.map (·.axis)) : ∃ p ∈ distinctPlans plans, p.axis = axis := by
  obtain ⟨q, hq, rfl⟩ := List.mem_map.1 h
  have hsome : (plans.find? (·.axis == q.axis)).isSome := by
    rw [List.find?_isSome]
    exact ⟨q, hq, beq_self_eq_true _⟩
  obtain ⟨p, hp⟩ := Option.isSome_iff_exists.1 hsome
  have haxis : p.axis = q.axis := by simpa using List.find?_some hp
  exact ⟨p, mem_distinctPlans.2 (haxis ▸ hp), haxis⟩

/-- **No axis value goes without a plan.** -/
theorem assignments_eq_distinctPlans (plans : List BranchPlan) :
    assignments plans = (distinctPlans plans).map fun p => (p.axis, some p) := by
  have hplanned : ∀ b ∈ assignments plans, ∃ p : BranchPlan, b = (p.axis, some p) := by
    rw [assignments_eq]
    intro b hb
    obtain ⟨axis, haxis, rfl⟩ := List.mem_map.1 hb
    obtain ⟨p, hp, rfl⟩ := exists_mem_distinctPlans (mem_distinctNames.1 haxis).1
    exact ⟨p, by rw [mem_distinctPlans.1 hp]⟩
  rw [distinctPlans]
  generalize assignments plans = bs at hplanned ⊢
  induction bs with
  | nil => rfl
  | cons b rest ih =>
    obtain ⟨⟨p, rfl⟩, hrest⟩ := List.forall_mem_cons.1 hplanned
    exact congrArg _ (ih hrest)

theorem map_axis_distinctPlans (plans : List BranchPlan) :
    (distinctPlans plans).map (·.axis) = distinctNames [] (plans.map (·.axis)) := by
  have haxes : (assignments plans).map (·.1) = distinctNames [] (plans.map (·.axis)) := by
    rw [assignments_eq, List.map_map]
    exact List.map_id' _
  rw [← haxes, assignments_eq_distinctPlans, List.map_map]
  rfl

theorem nodup_axes_distinctPlans (plans : List BranchPlan) :
    ((distinctPlans plans).map (·.axis)).Nodup := by
  rw [map_axis_distinctPlans]
  exact nodup_distinctNames _ _

end Stagehand

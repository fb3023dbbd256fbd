import Stagehand.CommandLine.Pipeline
import Stagehand.Proofs.Branch.Assignment

/-!
# Whose workspace is whose

The plans of a run are told apart by their axis values, and their workspaces by the names made from
these. A name forgets: every character that is not safe becomes the same one, and the points at both
ends are lost. So the branches of a run have a workspace each **exactly if no two of their axis
values make the same name** (`nodup_workdirs_iff`). Values that are safe names already are kept as
they are, and never share (`nodup_workdirs_of_isSafeName`).
-/

namespace Stagehand

/-! ## Paths below a root -/

/-- Names that differ lead to different places below a root. -/
theorem Path.join_inj {root name name' : String} (h : isAbsolute name = false)
    (h' : isAbsolute name' = false) : join root name = join root name' ↔ name = name' := by
  unfold join
  rw [h, h', Bool.false_or]
  split
  · rfl
  · split <;> simp [String.append_right_inj]

/-! ## Names -/

theorem trimPoints_subset (cs : List Char) : ∀ c ∈ trimPoints cs, c ∈ cs := by
  intro c hc
  rw [trimPoints, List.mem_reverse] at hc
  have hmid := (List.dropWhile_sublist _).subset hc
  exact (List.dropWhile_sublist _).subset (List.mem_reverse.1 hmid)

theorem isNameChar_replaced (c : Char) : isNameChar (if isNameChar c then c else '_') = true := by
  split
  · assumption
  · decide

theorem isNameChar_of_mem_workspaceChars {axis : List Char} {c : Char}
    (h : c ∈ workspaceChars axis) : isNameChar c = true := by
  unfold workspaceChars at h
  split at h
  · have hdefault : "default".toList.all isNameChar = true := by decide
    exact List.all_eq_true.1 hdefault c h
  · obtain ⟨d, -, rfl⟩ := List.mem_map.1 (trimPoints_subset _ c h)
    exact isNameChar_replaced d

theorem isAbsolute_workspaceName (axis : String) :
    Path.isAbsolute (workspaceName axis) = false := by
  rw [Path.isAbsolute, workspaceName, String.toList_ofList, beq_eq_false_iff_ne]
  intro hhead
  have hslash := isNameChar_of_mem_workspaceChars (List.mem_of_mem_head? hhead)
  revert hslash
  decide

/-- A name that is safe as it stands: safe characters only, and no point at its ends. -/
structure IsSafeName (name : String) : Prop where
  chars : ∀ c ∈ name.toList, isNameChar c = true
  ne_empty : name.toList ≠ []
  head_ne : name.toList.head? ≠ some '.'
  last_ne : name.toList.getLast? ≠ some '.'

theorem dropWhile_point {cs : List Char} (h : cs.head? ≠ some '.') :
    cs.dropWhile (· == '.') = cs := by
  cases cs with
  | nil => rfl
  | cons c rest =>
    have hc : (c == '.') = false := beq_eq_false_iff_ne.2 fun heq => h (heq ▸ rfl)
    rw [List.dropWhile_cons, hc]
    rfl

/-- A safe name is kept as it is. -/
theorem workspaceName_of_isSafeName {axis : String} (h : IsSafeName axis) :
    workspaceName axis = axis := by
  have hreplaced : axis.toList.map (fun c => if isNameChar c then c else '_') = axis.toList := by
    rw [List.map_congr_left fun c hc => if_pos (h.chars c hc), List.map_id']
  have hlast : axis.toList.reverse.head? ≠ some '.' := by
    rw [List.head?_reverse]
    exact h.last_ne
  have htrimmed : trimPoints axis.toList = axis.toList := by
    rw [trimPoints, dropWhile_point h.head_ne, dropWhile_point hlast, List.reverse_reverse]
  rw [workspaceName, workspaceChars, hreplaced, htrimmed]
  split
  · exact absurd ‹_› h.ne_empty
  · rw [String.ofList_toList]

/-! ## Workspaces -/

/-- The axis values that the arguments ask for. -/
def PipelineArgs.axisValues (a : PipelineArgs) : List String :=
  if a.axes.isEmpty then [singleAxis] else a.axes.map Text.trim

namespace PipelineArgs

variable (a : PipelineArgs) (params : RunParams) (root : String) (ids : List String)

theorem workdir_planOf (params : RunParams) (root : String) (variableName : Option String)
    (axis testId : String) :
    (planOf params root variableName axis testId).workdir =
        Path.join root (workspaceName axis) := by
  rw [planOf, BranchPlan.inRoot]

theorem axis_planOf (params : RunParams) (root : String) (variableName : Option String)
    (axis testId : String) : (planOf params root variableName axis testId).axis = axis := by
  rw [planOf, BranchPlan.inRoot]

theorem map_axis_plansOf (params : RunParams) (root variableName : String)
    (axes ids : List String) :
    (plansOf params root variableName axes ids).map (·.axis) = axes.map Text.trim := by
  induction axes generalizing ids with
  | nil => rfl
  | cons axis rest ih => exact congrArg (Text.trim axis :: ·) (ih ids.tail)

theorem map_axis_plans : (a.plans params root ids).map (·.axis) = a.axisValues := by
  unfold plans axisValues
  split
  · rfl
  · exact map_axis_plansOf _ _ _ _ _

theorem workdir_of_mem_plansOf {params : RunParams} {root variableName : String}
    {axes ids : List String} {p : BranchPlan} (h : p ∈ plansOf params root variableName axes ids) :
    p.workdir = Path.join root (workspaceName p.axis) := by
  induction axes generalizing ids with
  | nil => cases h
  | cons axis rest ih =>
    rcases List.mem_cons.1 h with rfl | h
    · rw [workdir_planOf, axis_planOf]
    · exact ih h

/-- The workspace of a plan lies below the root, under the name of its axis value. -/
theorem workdir_of_mem_plans {p : BranchPlan} (h : p ∈ a.plans params root ids) :
    p.workdir = Path.join root (workspaceName p.axis) := by
  unfold plans at h
  split at h
  · rw [List.mem_singleton.1 h, workdir_planOf, axis_planOf]
  · exact workdir_of_mem_plansOf h

/-- Two plans share their workspace exactly if their axis values make the same name. -/
theorem workdir_eq_iff {p q : BranchPlan} (hp : p ∈ a.plans params root ids)
    (hq : q ∈ a.plans params root ids) :
    p.workdir = q.workdir ↔ workspaceName p.axis = workspaceName q.axis := by
  rw [a.workdir_of_mem_plans params root ids hp, a.workdir_of_mem_plans params root ids hq]
  exact Path.join_inj (isAbsolute_workspaceName _) (isAbsolute_workspaceName _)

theorem mem_plans_of_mem_distinctPlans {p : BranchPlan}
    (h : p ∈ distinctPlans (a.plans params root ids)) : p ∈ a.plans params root ids :=
  List.mem_of_find?_eq_some (mem_distinctPlans.1 h)

theorem axis_mem_axisValues {p : BranchPlan} (h : p ∈ distinctPlans (a.plans params root ids)) :
    p.axis ∈ a.axisValues := by
  rw [← a.map_axis_plans params root ids]
  exact List.mem_map_of_mem (a.mem_plans_of_mem_distinctPlans params root ids h)

/-- No workspace is shared where names tell the axis values apart. -/
theorem nodup_workdirs_of_injOn
    (h : ∀ x ∈ a.axisValues, ∀ y ∈ a.axisValues, workspaceName x = workspaceName y → x = y) :
    ((distinctPlans (a.plans params root ids)).map (·.workdir)).Nodup := by
  have haxes := nodup_axes_distinctPlans (a.plans params root ids)
  refine List.Nodup.map_on (fun p hp q hq hdir => ?_) (List.Nodup.of_map _ haxes)
  have hname := (a.workdir_eq_iff params root ids
    (a.mem_plans_of_mem_distinctPlans params root ids hp)
    (a.mem_plans_of_mem_distinctPlans params root ids hq)).1 hdir
  exact List.inj_on_of_nodup_map haxes hp hq
    (h _ (a.axis_mem_axisValues params root ids hp) _
      (a.axis_mem_axisValues params root ids hq) hname)

/-- Axis values that are safe names never share a workspace. -/
theorem nodup_workdirs_of_isSafeName (h : ∀ x ∈ a.axisValues, IsSafeName x) :
    ((distinctPlans (a.plans params root ids)).map (·.workdir)).Nodup := by
  refine a.nodup_workdirs_of_injOn params root ids fun x hx y hy hname => ?_
  rwa [workspaceName_of_isSafeName (h x hx), workspaceName_of_isSafeName (h y hy)] at hname

/-- **The branches of a run have a workspace each exactly if no two of their axis values make the
same name.** One branch is run per axis value, whatever its name. -/
theorem nodup_workdirs_iff :
    ((distinctPlans (a.plans params root ids)).map (·.axis)).Nodup ∧
      (((distinctPlans (a.plans params root ids)).map (·.workdir)).Nodup ↔
        ∀ x ∈ a.axisValues, ∀ y ∈ a.axisValues, workspaceName x = workspaceName y → x = y) := by
  refine ⟨nodup_axes_distinctPlans _, fun hdirs x hx y hy hname => ?_,
    a.nodup_workdirs_of_injOn params root ids⟩
  rw [← a.map_axis_plans params root ids] at hx hy
  obtain ⟨p, hp, rfl⟩ := exists_mem_distinctPlans hx
  obtain ⟨q, hq, rfl⟩ := exists_mem_distinctPlans hy
  have hdir := (a.workdir_eq_iff params root ids
    (a.mem_plans_of_mem_distinctPlans params root ids hp)
    (a.mem_plans_of_mem_distinctPlans params root ids hq)).2 hname
  rw [List.inj_on_of_nodup_map hdirs hp hq hdir]

/-- A run over two values that differ only in a character that is not safe. -/
def slashed : PipelineArgs where
  params := none
  axes := ["a/b", "a_b"]
  axisVariable := Variable.defaultAxis
  workdir := "runs"
  repository := none
  reference := none
  dryRun := false
  summary := none
  strict := false
  settings := none
  logFormat := none

/-- Two branches run side by side in one workspace. -/
theorem workdirs_slashed_not_nodup :
    (distinctPlans (slashed.plans RunParams.none "/runs" ["1", "2"])).map
        (fun p => (p.axis, p.workdir)) = [("a/b", "/runs/a_b"), ("a_b", "/runs/a_b")] ∧
      ¬ ((distinctPlans (slashed.plans RunParams.none "/runs" ["1", "2"])).map
        (·.workdir)).Nodup := by
  decide

end PipelineArgs

end Stagehand

import Stagehand.Proofs.Branch.Workspaces
import Stagehand.Proofs.Files.Path

/-!
# A workspace lies in its root

Axis values are given by hand, and may look like anything: like a path from the root, like one that
leads upwards, or like nothing at all. The name that is made of one is a safe name all the same
(`isSafeName_workspaceName`): what is replaced leaves no slash, what is trimmed leaves no point at
an end, and where nothing is left there is a name to fall back on. Safe names are all that names of
workspaces can be (`workspaceName_eq_self_iff`).

So a workspace is an entry of its root, and of no other directory (`BranchPlan.workspace_in_root`).
-/

namespace Stagehand

/-! ## Names -/

theorem head?_trimPoints_ne (cs : List Char) : (trimPoints cs).head? ≠ some '.' := by
  intro hhead
  have hfirst := List.head?_dropWhile_not (· == '.') (trimPoints cs)
  have hkept : (trimPoints cs).dropWhile (· == '.') = trimPoints cs :=
    Text.dropWhile_rdropWhile_dropWhile (· == '.') cs
  rw [hkept, hhead] at hfirst
  exact absurd hfirst (by decide)

theorem getLast?_trimPoints_ne (cs : List Char) : (trimPoints cs).getLast? ≠ some '.' := by
  intro hlast
  have hfirst := List.head?_dropWhile_not (· == '.') (cs.dropWhile (· == '.')).reverse
  rw [trimPoints, List.getLast?_reverse] at hlast
  rw [hlast] at hfirst
  exact absurd hfirst (by decide)

/-- What is left after trimming is the name, if anything is left. -/
theorem workspaceChars_cases (axis : List Char) :
    workspaceChars axis = "default".toList ∨
      ∃ cs, trimPoints cs ≠ [] ∧ workspaceChars axis = trimPoints cs := by
  unfold workspaceChars
  split
  · exact .inl rfl
  · next hne => exact .inr ⟨_, hne, rfl⟩

/-- **Every name of a workspace is safe.** -/
theorem isSafeName_workspaceName (axis : String) : IsSafeName (workspaceName axis) := by
  have htoList : (workspaceName axis).toList = workspaceChars axis.toList := String.toList_ofList
  have hchars : ∀ c ∈ (workspaceName axis).toList, isNameChar c = true := by
    intro c hc
    rw [htoList] at hc
    exact isNameChar_of_mem_workspaceChars hc
  rcases workspaceChars_cases axis.toList with hname | ⟨cs, hne, hname⟩
  · rw [hname] at htoList
    refine ⟨hchars, ?_, ?_, ?_⟩ <;> rw [htoList] <;> decide
  · rw [hname] at htoList
    refine ⟨hchars, ?_, ?_, ?_⟩ <;> rw [htoList]
    · exact hne
    · exact head?_trimPoints_ne cs
    · exact getLast?_trimPoints_ne cs

theorem workspaceName_eq_self_iff {name : String} :
    workspaceName name = name ↔ IsSafeName name := by
  refine ⟨fun h => ?_, workspaceName_of_isSafeName⟩
  rw [← h]
  exact isSafeName_workspaceName name

theorem isNameChar_iff {c : Char} :
    isNameChar c = true ↔ c.isAlphanum = true ∨ c = '.' ∨ c = '-' ∨ c = '_' := by
  simp [isNameChar, or_assoc]

theorem IsSafeName.isEntryName {name : String} (h : IsSafeName name) : Path.IsEntryName name where
  no_slash hslash := absurd (h.chars '/' hslash) (by decide)
  ne_empty hempty := h.ne_empty (hempty ▸ rfl)
  ne_point hpoint := h.head_ne (hpoint ▸ rfl)
  ne_points hpoints := h.head_ne (hpoints ▸ rfl)

/-! ## Workspaces -/

namespace BranchPlan

theorem workdir_inRoot (axis : String) (params : RunParams) (root testId : String) :
    (inRoot axis params root testId).workdir = Path.join root (workspaceName axis) := by
  rw [inRoot]

/-- **A workspace lies in its root**, whatever the axis value. Its name is safe, and is kept if it
is made a name again; its path is that of the root with the name as one more part; and in every tree
of files it leads to the entry of that name in the directory that the root leads to, or nowhere. -/
theorem workspace_in_root (axis : String) (params : RunParams) (root testId : String) :
    workspaceName axis ≠ "" ∧
      (∀ c ∈ (workspaceName axis).toList, c.isAlphanum = true ∨ c = '.' ∨ c = '-' ∨ c = '_') ∧
      (workspaceName axis).toList.head? ≠ some '.' ∧
      (workspaceName axis).toList.getLast? ≠ some '.' ∧
      workspaceName (workspaceName axis) = workspaceName axis ∧
      Path.IsChild root (inRoot axis params root testId).workdir (workspaceName axis) ∧
      ∀ (t : FileTree) (cwd place : List String),
        t.walk (FileTree.origin cwd (inRoot axis params root testId).workdir)
            (Path.parts (inRoot axis params root testId).workdir) = .ok place ↔
          ∃ dir, t.walk (FileTree.origin cwd root) (Path.parts root) = .ok dir ∧
            t.requireDir dir = .ok () ∧ (workspaceName axis).utf8ByteSize ≤ FileTree.nameLimit ∧
            place = dir ++ [workspaceName axis] := by
  have hsafe := isSafeName_workspaceName axis
  have hchild := Path.isChild_join hsafe.isEntryName root
  rw [← workdir_inRoot axis params root testId] at hchild
  refine ⟨hsafe.isEntryName.ne_empty, fun c hc => isNameChar_iff.1 (hsafe.chars c hc),
    hsafe.head_ne, hsafe.last_ne, workspaceName_eq_self_iff.2 hsafe, hchild, fun t cwd place => ?_⟩
  exact FileTree.walk_child_iff hchild

/-- An axis value that leads upwards, and ends so. -/
theorem workspace_in_root_upwards :
    workspaceName "../../etc/.." = "_.._etc_" ∧ '/' ∉ (workspaceName "../../etc/..").toList ∧
      Path.IsChild "/runs/" (inRoot "../../etc/.." RunParams.none "/runs/" "1").workdir
        "_.._etc_" := by
  have hname : workspaceName "../../etc/.." = "_.._etc_" := by decide
  obtain ⟨-, hchars, -, -, -, hchild, -⟩ :=
    workspace_in_root "../../etc/.." RunParams.none "/runs/" "1"
  rw [hname] at hchild
  exact ⟨hname, fun hslash => absurd (hchars '/' hslash) (by decide), hchild⟩

end BranchPlan

end Stagehand

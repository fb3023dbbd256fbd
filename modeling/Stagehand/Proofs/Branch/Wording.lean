import Stagehand.Branch.FanOut

/-!
# The wording of branches

What a branch says on its own account is told apart from what its collaborators fail with: no
failure has the wording of a branch that broke down, of an axis value without a plan, or of a stage
that was cut with its branch. Every failure begins or ends with words of its own.

Main result: `RunError.message_ne`.
-/

namespace Stagehand

theorem append_ne_of_not_prefix {first rest text : String} (h : ¬ first.toList <+: text.toList) :
    first ++ rest ≠ text := by
  rintro rfl
  rw [String.toList_append] at h
  exact h (List.prefix_append _ _)

theorem append_ne_of_not_suffix {first rest text : String} (h : ¬ rest.toList <:+ text.toList) :
    first ++ rest ≠ text := by
  rintro rfl
  rw [String.toList_append] at h
  exact h (List.suffix_append _ _)

/-- What branches say on their own account. -/
def ownTexts : List String := [brokenText, unplannedText, cutText]

/-- **No failure has the wording of what a branch says on its own account.** -/
theorem RunError.message_ne (e : RunError) {text : String} (htext : text ∈ ownTexts) :
    e.message ≠ text := by
  cases e with
  | configuration | file | document =>
    refine append_ne_of_not_prefix ?_
    revert text
    decide +kernel
  | command | timeout | notAnAddress =>
    refine append_ne_of_not_suffix ?_
    revert text
    decide +kernel

end Stagehand

import Mathlib.Algebra.Ring.Nat
import Stagehand.Budget

/-!
# Budgets far below 64 bits

A budget **fits** if all that it allots, with the slack on top, is a number of seconds that 64 bits
can hold. Then nothing is held down, and its branch limit is the sum of its limits and the slack.

Main results: which durations are accepted, and what they are allotted
(`TimeBudget.compute_eq_ok_iff`); the budgets of accepted durations fit, unless there are more
regions than any text can name (`TimeBudget.fits_of_compute`); in a budget that fits the limits
together stay below the branch limit (`TimeBudget.Fits.sum_limit_lt`).
-/

namespace Stagehand

open Decimal (satAdd satMul ceilDiv maxNat64)

theorem Decimal.satAdd_of_le {a b : Nat} (h : a + b ≤ maxNat64) : satAdd a b = a + b :=
  Nat.min_eq_left h

theorem Decimal.satMul_of_le {a b : Nat} (h : a * b ≤ maxNat64) : satMul a b = a * b :=
  Nat.min_eq_left h

/-- A sum that 64 bits can hold is not held down on the way. -/
theorem Decimal.foldl_satAdd_of_le {ns : List Nat} {acc : Nat} (h : acc + ns.sum ≤ maxNat64) :
    ns.foldl satAdd acc = acc + ns.sum := by
  induction ns generalizing acc with
  | nil => rfl
  | cons n rest ih =>
    rw [List.sum_cons] at h ⊢
    rw [List.foldl_cons, satAdd_of_le (by omega), ih (by omega)]
    omega

namespace TimeBudget

/-- Every minute that is allotted. -/
def total (b : TimeBudget) : Nat :=
  b.testRun + b.runnerProvision + b.logCollect + b.resourceCleanup + b.sendEmail

/-- The allotments and the slack are a number of seconds of 64 bits. -/
def Fits (b : TimeBudget) : Prop := (b.total + branchSlack) * 60 ≤ maxNat64

/-- What a duration has to be, and what its budget allots. -/
structure Grants (requested : Int) (backend : Backend) (region : String) (b : TimeBudget) :
    Prop where
  positive : 0 < requested
  notLong : requested ≤ 129600
  testRun : b.testRun = requested.toNat + max (ceilDiv (requested.toNat * 15) 100) 60
  runnerProvision : b.runnerProvision = if backend.isKubernetes then 30 else 20
  logCollect : b.logCollect = 70 + ((Text.words region).length - 1) * 20
  resourceCleanup : b.resourceCleanup = if backend.isKubernetes then 60 else 30
  sendEmail : b.sendEmail = 10

theorem compute_eq_ok_iff {requested : Int} {backend : Backend} {region : String} {b : TimeBudget} :
    compute requested backend region = .ok b ↔ Grants requested backend region b := by
  have hmax : maxDuration = 129600 := rfl
  unfold compute
  split
  · next hshort =>
    refine ⟨fun h => (nomatch h), fun h => ?_⟩
    have hpositive := h.positive
    omega
  · split
    · next hlong =>
      refine ⟨fun h => (nomatch h), fun h => ?_⟩
      have hnotLong := h.notLong
      omega
    · next hshort hlong =>
      constructor
      · intro h
        obtain rfl := Except.ok.inj h
        exact
          { positive := by omega
            notLong := by omega
            testRun := rfl
            runnerProvision := rfl
            logCollect := rfl
            resourceCleanup := rfl
            sendEmail := rfl }
      · rintro ⟨-, -, htest, hrunner, hlogs, hcleanup, hmail⟩
        obtain ⟨testRun, runnerProvision, logCollect, resourceCleanup, sendEmail⟩ := b
        simp only at htest hrunner hlogs hcleanup hmail
        subst htest hrunner hlogs hcleanup hmail
        rfl

theorem total_of_compute {requested : Int} {backend : Backend} {region : String} {b : TimeBudget}
    (h : compute requested backend region = .ok b) :
    b.total ≤ 300000 + (Text.words region).length * 20 := by
  obtain ⟨-, hnotLong, htest, hrunner, hlogs, hcleanup, hmail⟩ := compute_eq_ok_iff.1 h
  have hmargin : ceilDiv (requested.toNat * 15) 100 ≤ 20000 := by
    simp only [ceilDiv]
    omega
  have hrunnerLe : (if backend.isKubernetes then 30 else 20) ≤ 30 := by split <;> omega
  have hcleanupLe : (if backend.isKubernetes then 60 else 30) ≤ 60 := by split <;> omega
  rw [total]
  omega

/-- **Accepted durations have budgets that fit.** -/
theorem fits_of_compute {requested : Int} {backend : Backend} {region : String} {b : TimeBudget}
    (h : compute requested backend region = .ok b) (hregion : (Text.words region).length < 2 ^ 48) :
    b.Fits := by
  have htotal := total_of_compute h
  have hslack : branchSlack = 10 := rfl
  have hmax : maxNat64 = 18446744073709551615 := rfl
  unfold Fits
  omega

namespace Fits

variable {b : TimeBudget} (h : b.Fits)
include h

theorem limit_eq (a : Allocation) : b.limit a = b.minutes a * 60 := by
  have hle : b.minutes a ≤ b.total := by
    cases a <;> simp only [minutes, total] <;> omega
  refine Decimal.satMul_of_le (Nat.le_trans (Nat.mul_le_mul_right 60 ?_) h)
  omega

theorem branchLimit_eq : b.branchLimit = (b.total + branchSlack) * 60 := by
  have hfits : (b.total + branchSlack) * 60 ≤ maxNat64 := h
  have hsum : (Allocation.all.map b.minutes ++ [branchSlack]).sum = b.total + branchSlack := by
    simp only [Allocation.all, List.map_cons, List.map_nil, List.cons_append, List.nil_append,
      List.sum_cons, List.sum_nil, minutes, total]
    omega
  rw [branchLimit, Decimal.foldl_satAdd_of_le (by omega), hsum, Nat.zero_add]
  exact Decimal.satMul_of_le h

/-- **The limits together stay below the branch limit.** -/
theorem sum_limit_lt : (Allocation.all.map b.limit).sum < b.branchLimit := by
  have hslack : branchSlack = 10 := rfl
  simp only [Allocation.all, List.map_cons, List.map_nil, List.sum_cons, List.sum_nil, h.limit_eq,
    h.branchLimit_eq, minutes, total]
  omega

end Fits

end TimeBudget

end Stagehand

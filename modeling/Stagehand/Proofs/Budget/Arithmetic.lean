import Stagehand.Proofs.Budget

/-!
# The arithmetic of budgets

**Theorem (`budget_arithmetic`).** A duration is refused exactly if it is not positive or longer
than 90 days. The test of an accepted one gets at least an hour and 15 percent more than it asks
for, and a longer test gets more, wherever it runs; what the other stages get does not depend on the
duration. All of it can be computed in numbers of 64 bits. Of any budget, limits and branch limit
are the exact seconds, held at the largest number of 64 bits; they grow with every allotment, and no
limit is above the branch limit.

To say that nothing overflows, the budget is computed a second time (`computeInWords?`), now without
an answer if a product or a sum on the way is more than 64 bits can hold.
-/

namespace Stagehand

open Decimal (satAdd satMul ceilDiv maxNat64)

/-! ## Numbers of 64 bits -/

namespace Decimal

/-- The number, if 64 bits can hold it. -/
def word? (n : Nat) : Option Nat := if n ≤ maxNat64 then some n else none

theorem word?_of_le {n : Nat} (h : n ≤ maxNat64) : word? n = some n := if_pos h

theorem foldl_satAdd {acc : Nat} (h : acc ≤ maxNat64) (ns : List Nat) :
    ns.foldl satAdd acc = min (acc + ns.sum) maxNat64 := by
  induction ns generalizing acc with
  | nil => exact (Nat.min_eq_left h).symm
  | cons n rest ih =>
    have hstep : satAdd acc n ≤ maxNat64 := Nat.min_le_right _ _
    rw [List.foldl_cons, ih hstep, List.sum_cons, satAdd]
    omega

end Decimal

open Decimal (word? word?_of_le)

namespace TimeBudget

/-! ## Limits of any budget -/

variable (b : TimeBudget)

theorem limit_eq_min (a : Allocation) : b.limit a = min (60 * b.minutes a) (2 ^ 64 - 1) := by
  rw [limit, satMul, Nat.mul_comm]
  rfl

theorem branchLimit_eq_min : b.branchLimit = min (60 * (b.total + 10)) (2 ^ 64 - 1) := by
  have hmax : maxNat64 = 2 ^ 64 - 1 := rfl
  have hsum : (Allocation.all.map b.minutes ++ [branchSlack]).sum = b.total + 10 := by
    simp only [Allocation.all, List.map_cons, List.map_nil, List.cons_append, List.nil_append,
      List.sum_cons, List.sum_nil, minutes, total, branchSlack]
    omega
  rw [branchLimit, Decimal.foldl_satAdd (Nat.zero_le _), hsum, satMul, hmax]
  omega

theorem minutes_le_total (a : Allocation) : b.minutes a ≤ b.total := by
  cases a <;> simp only [minutes, total] <;> omega

theorem limit_le_branchLimit (a : Allocation) : b.limit a ≤ b.branchLimit := by
  have hle := b.minutes_le_total a
  rw [limit_eq_min, branchLimit_eq_min]
  omega

variable {b} {b' : TimeBudget}

theorem limit_mono (h : ∀ a, b.minutes a ≤ b'.minutes a) (a : Allocation) :
    b.limit a ≤ b'.limit a := by
  have hle := h a
  rw [limit_eq_min, limit_eq_min]
  omega

theorem total_mono (h : ∀ a, b.minutes a ≤ b'.minutes a) : b.total ≤ b'.total := by
  have htest := h .testRun
  have hrunner := h .runnerProvision
  have hlogs := h .logCollect
  have hcleanup := h .resourceCleanup
  have hmail := h .sendEmail
  simp only [minutes] at htest hrunner hlogs hcleanup hmail
  simp only [total]
  omega

theorem branchLimit_mono (h : ∀ a, b.minutes a ≤ b'.minutes a) :
    b.branchLimit ≤ b'.branchLimit := by
  have hle := total_mono h
  rw [branchLimit_eq_min, branchLimit_eq_min]
  omega

/-! ## The budget of a duration -/

/-- The budget of a duration that is accepted, computed in numbers of 64 bits. -/
def computeInWords? (requested : Int) (backend : Backend) (region : String) :
    Option TimeBudget := do
  let duration ← word? requested.toNat
  let product ← word? (duration * marginPercent)
  let share ← word? (ceilDiv product 100)
  let testRun ← word? (duration + max share leastMargin)
  let extraRegions ← word? ((Text.words region).length - 1)
  let extraMinutes ← word? (extraRegions * 20)
  let logCollect ← word? (70 + extraMinutes)
  some
    { testRun
      runnerProvision := if backend.isKubernetes then 30 else 20
      logCollect
      resourceCleanup := if backend.isKubernetes then 60 else 30
      sendEmail := 10 }

/-- What holds of the budget of an accepted duration. -/
structure Allots (requested : Int) (backend : Backend) (region : String) (b : TimeBudget) :
    Prop where
  /-- Nothing on the way to it is more than 64 bits can hold. -/
  inWords : computeInWords? requested backend region = some b
  leastMargin : 60 ≤ b.testRun - requested
  share : 15 * requested ≤ 100 * (b.testRun - requested)
  logCollect : b.logCollect = 70 + 20 * (max (Text.words region).length 1 - 1)
  positive : ∀ a, a ≠ .testRun → 0 < b.minutes a
  branchLimit : b.branchLimit = 60 * (b.total + 10)

namespace Grants

variable {requested requested' : Int} {backend backend' : Backend} {region region' : String}
  {b b' : TimeBudget}

/-- Nothing overflows, unless there are more regions than any text can name. -/
theorem inWords (h : Grants requested backend region b)
    (hregion : (Text.words region).length < 2 ^ 48) :
    computeInWords? requested backend region = some b := by
  have hmax : maxNat64 = 18446744073709551615 := rfl
  have hmargin : TimeBudget.leastMargin = 60 := rfl
  have hnotLong := h.notLong
  have hproduct : requested.toNat * marginPercent ≤ 1944000 := by
    simp only [marginPercent]
    omega
  have hshare : ceilDiv (requested.toNat * marginPercent) 100 ≤ 20000 := by
    simp only [ceilDiv]
    omega
  have hregions : ((Text.words region).length - 1) * 20 ≤ maxNat64 := by omega
  obtain ⟨testRun, runnerProvision, logCollect, resourceCleanup, sendEmail⟩ := b
  obtain ⟨-, -, htest, hrunner, hlogs, hcleanup, hmail⟩ := h
  simp only at htest hrunner hlogs hcleanup hmail
  subst htest hrunner hlogs hcleanup hmail
  simp only [computeInWords?, Option.bind_eq_bind]
  rw [word?_of_le (by omega), Option.bind_some, word?_of_le (by omega), Option.bind_some,
    word?_of_le (by omega), Option.bind_some, word?_of_le (by omega), Option.bind_some,
    word?_of_le (by omega), Option.bind_some, word?_of_le hregions, Option.bind_some,
    word?_of_le (by omega), Option.bind_some]
  rfl

theorem margin_eq (h : Grants requested backend region b) :
    (b.testRun : Int) - requested = max (ceilDiv (requested.toNat * 15) 100) 60 := by
  have hpositive := h.positive
  have htest := h.testRun
  omega

theorem testRun_lt (h : Grants requested backend region b)
    (h' : Grants requested' backend' region' b') (hlt : requested < requested') :
    b.testRun < b'.testRun := by
  have hpositive := h.positive
  have hshare : ceilDiv (requested.toNat * 15) 100 ≤ ceilDiv (requested'.toNat * 15) 100 := by
    simp only [ceilDiv]
    omega
  rw [h.testRun, h'.testRun]
  omega

theorem allots (h : Grants requested backend region b)
    (hregion : (Text.words region).length < 2 ^ 48) :
    Allots requested backend region b where
  inWords := h.inWords hregion
  leastMargin := by
    rw [h.margin_eq]
    omega
  share := by
    have hpositive := h.positive
    have hceil : requested.toNat * 15 ≤ 100 * ceilDiv (requested.toNat * 15) 100 := by
      simp only [ceilDiv]
      omega
    rw [h.margin_eq]
    omega
  logCollect := by
    rw [h.logCollect]
    omega
  positive := by
    rintro (_ | _ | _ | _ | _) ha <;>
      simp only [minutes, h.runnerProvision, h.logCollect, h.resourceCleanup, h.sendEmail]
    · exact absurd rfl ha
    · split <;> omega
    · omega
    · split <;> omega
    · omega
  branchLimit := by
    have hfits := fits_of_compute (compute_eq_ok_iff.2 h) hregion
    rw [hfits.branchLimit_eq, Nat.mul_comm]
    rfl

theorem minutes_eq (h : Grants requested backend region b)
    (h' : Grants requested' backend region b') {a : Allocation} (ha : a ≠ .testRun) :
    b.minutes a = b'.minutes a := by
  cases a with
  | testRun => exact absurd rfl ha
  | runnerProvision => exact h.runnerProvision.trans h'.runnerProvision.symm
  | logCollect => exact h.logCollect.trans h'.logCollect.symm
  | resourceCleanup => exact h.resourceCleanup.trans h'.resourceCleanup.symm
  | sendEmail => exact h.sendEmail.trans h'.sendEmail.symm

end Grants

theorem exists_compute_eq_ok {requested : Int} (backend : Backend) (region : String)
    (hpositive : 0 < requested) (hnotLong : requested ≤ 129600) :
    ∃ b, compute requested backend region = .ok b := by
  have hmax : maxDuration = 129600 := rfl
  rw [compute, if_neg (by omega), if_neg (by omega)]
  exact ⟨_, rfl⟩

theorem exists_compute_eq_error_iff (requested : Int) (backend : Backend) (region : String) :
    (∃ cause, compute requested backend region = .error (.configuration cause)) ↔
      requested ≤ 0 ∨ 129600 < requested := by
  have hmax : maxDuration = 129600 := rfl
  constructor
  · rintro ⟨cause, hrefused⟩
    by_contra haccepted
    have hpositive : 0 < requested := by omega
    have hnotLong : requested ≤ 129600 := by omega
    obtain ⟨b, hb⟩ := exists_compute_eq_ok backend region hpositive hnotLong
    rw [hb] at hrefused
    cases hrefused
  · rintro (hshort | hlong)
    · exact ⟨_, by rw [compute, if_pos hshort]⟩
    · exact ⟨_, by rw [compute, if_neg (by omega), if_pos (by omega)]⟩

/-- **The arithmetic of budgets.** -/
theorem budget_arithmetic :
    (∀ requested backend region,
      ((∃ cause, compute requested backend region = .error (.configuration cause)) ↔
        requested ≤ 0 ∨ 129600 < requested) ∧
      (0 < requested → requested ≤ 129600 → (Text.words region).length < 2 ^ 48 →
        ∃ b, compute requested backend region = .ok b ∧ Allots requested backend region b)) ∧
    (∀ requested requested' backend backend' region region' b b',
      compute requested backend region = .ok b → compute requested' backend' region' = .ok b' →
        (requested < requested' → b.testRun < b'.testRun) ∧
        (requested = requested' → b.testRun = b'.testRun) ∧
        (backend = backend' → region = region' → ∀ a, a ≠ .testRun → b.minutes a = b'.minutes a)) ∧
    ∀ b : TimeBudget,
      (∀ a, b.limit a = min (60 * b.minutes a) (2 ^ 64 - 1)) ∧
      b.branchLimit = min (60 * (b.total + 10)) (2 ^ 64 - 1) ∧
      (∀ b' : TimeBudget, (∀ a, b.minutes a ≤ b'.minutes a) →
        (∀ a, b.limit a ≤ b'.limit a) ∧ b.branchLimit ≤ b'.branchLimit) ∧
      ∀ a, b.limit a ≤ b.branchLimit := by
  refine ⟨fun requested backend region =>
    ⟨exists_compute_eq_error_iff requested backend region, ?_⟩, ?_, fun b =>
      ⟨b.limit_eq_min, b.branchLimit_eq_min, fun b' h =>
        ⟨limit_mono h, branchLimit_mono h⟩, b.limit_le_branchLimit⟩⟩
  · intro hpositive hnotLong hregion
    obtain ⟨b, hb⟩ := exists_compute_eq_ok backend region hpositive hnotLong
    exact ⟨b, hb, (compute_eq_ok_iff.1 hb).allots hregion⟩
  · intro requested requested' backend backend' region region' b b' hb hb'
    have hgrants := compute_eq_ok_iff.1 hb
    have hgrants' := compute_eq_ok_iff.1 hb'
    refine ⟨hgrants.testRun_lt hgrants', ?_, ?_⟩
    · rintro rfl
      exact hgrants.testRun.trans hgrants'.testRun.symm
    · rintro rfl rfl a ha
      exact hgrants.minutes_eq hgrants' ha

/-- Two days and a minute in three regions: the share of the margin is rounded up, and no
limit is held. -/
theorem budget_arithmetic_threeRegions :
    (Text.words "eu-west-1 us-east-1  us-west-2").length < 2 ^ 48 ∧
      ∃ b b', compute 2881 .k8sEks "eu-west-1 us-east-1  us-west-2" = .ok b ∧
        compute 399 .aws "" = .ok b' ∧ b.testRun = 3314 ∧ b.logCollect = 110 ∧
        b'.testRun < b.testRun ∧ b.branchLimit = 60 * 3534 ∧ b.limit .testRun ≤ b.branchLimit := by
  have hregion : (Text.words "eu-west-1 us-east-1  us-west-2").length < 2 ^ 48 := by decide +kernel
  obtain ⟨hone, htwo, hany⟩ := budget_arithmetic
  obtain ⟨b, hb, hallots⟩ := (hone 2881 .k8sEks "eu-west-1 us-east-1  us-west-2").2 (by decide)
    (by decide) hregion
  obtain ⟨b', hb', -⟩ := (hone 399 .aws "").2 (by decide) (by decide) (by decide +kernel)
  have htest : b.testRun = 3314 := (compute_eq_ok_iff.1 hb).testRun
  have hlogs : b.logCollect = 110 := hallots.logCollect.trans (by decide +kernel)
  have hgrants := compute_eq_ok_iff.1 hb
  refine ⟨hregion, b, b', hb, hb', htest, hlogs, (htwo _ _ _ _ _ _ b' b hb' hb).1 (by decide),
    ?_, (hany b).2.2.2 .testRun⟩
  rw [hallots.branchLimit, total, htest, hlogs, hgrants.runnerProvision, hgrants.resourceCleanup,
    hgrants.sendEmail]
  rfl

end TimeBudget

end Stagehand

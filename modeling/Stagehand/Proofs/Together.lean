import Stagehand.Proofs.Crowd
import Stagehand.Proofs.Timed

/-!
# Activities side by side

Activities that run side by side make one activity again, whose turns are theirs. If each
comes to its answer whatever others do with their views, then all of them do, whatever
the rest of the world does (`comes_beside`, `starts_together`); so does the whole when it
is run alone (`ending_together`).
-/

namespace Stagehand

open Timed

variable {σ α β ι π υ : Type}

namespace Timed

/-! ## Resting -/

theorem runUnder_toRest (x : Timed σ α) (deadline : Option Nat) (now : Nat) (s : σ) :
    (x.toRest now s).1.runUnder deadline now (x.toRest now s).2 = x.runUnder deadline now s := by
  induction x generalizing s with
  | look next ih => exact ih now s s
  | put t next ih => exact ih t
  | _ => rfl

theorem toRest_mapAnswer (f : α → β) (x : Timed σ α) (now : Nat) (s : σ) :
    (x.mapAnswer f).toRest now s = ((x.toRest now s).1.mapAnswer f, (x.toRest now s).2) := by
  induction x generalizing s with
  | look next ih => exact ih now s s
  | put t next ih => exact ih t
  | _ => rfl

theorem toRest_attempt (x : Timed σ α) (now : Nat) (s : σ) :
    x.attempt.toRest now s = ((x.toRest now s).1.attempt, (x.toRest now s).2) := by
  induction x generalizing s with
  | look next ih => exact ih now s s
  | put t next ih => exact ih t
  | _ => rfl

theorem toRest_besideWaiting (w : Waiting σ) (alone : Timed σ (Option α))
    (rest : Timed σ β → Timed σ (Option α × Option β)) (y : Timed σ β) (now : Nat) (s : σ) :
    (besideWaiting w alone rest y).toRest now s =
      (besideWaiting w alone rest (y.toRest now s).1, (y.toRest now s).2) := by
  induction y generalizing s with
  | look next ih => exact ih now s s
  | put t next ih => exact ih t
  | pause v next =>
    simp only [toRest, besideWaiting]
    split <;> rfl
  | _ => rfl

/-- Side by side, the first one goes on until it rests, and then the second one. -/
theorem toRest_beside (x : Timed σ α) (y : Timed σ β) (now : Nat) (s : σ) :
    (x.beside y).toRest now s =
      ((x.toRest now s).1.beside (y.toRest now (x.toRest now s).2).1,
        (y.toRest now (x.toRest now s).2).2) := by
  induction x generalizing s with
  | done a => simp only [beside, toRest_mapAnswer, toRest_attempt, toRest]
  | broken => simp only [beside, toRest_mapAnswer, toRest_attempt, toRest]
  | look next ih => exact ih now s s
  | put t next ih => exact ih t
  | pause w next => exact toRest_besideWaiting w next.attempt (beside next) y now s

/-! ## Coming to an answer -/

section Comes

variable {view : ι → σ → υ} {as bs : List ι} {Q : α → Prop} {R : β → Prop} {n m now : Nat} {s : σ}
  {x : Timed σ α} {y : Timed σ β}

theorem Comes.mapAnswer {f : α → β} (h : x.Comes view as Q n now s) (hf : ∀ r, Q r → R (f r)) :
    (x.mapAnswer f).Comes view as R n now s := by
  induction h with
  | done h => exact .done (hf _ h)
  | @pause n now time s w next wake idle spares _ ih =>
    have hnext : (next.mapAnswer f).Starts view as R n (max now time) s := fun t ht => by
      rw [toRest_mapAnswer]
      exact ⟨spares t ht, ih t ht⟩
    exact .of_starts wake idle hnext

theorem Comes.attempt (h : x.Comes view as Q n now s) :
    x.attempt.Comes view as (fun r => ∃ a, r = some a ∧ Q a) n now s := by
  induction h with
  | @done _ _ _ r h => exact .done ⟨r, rfl, h⟩
  | @pause n now time s w next wake idle spares _ ih =>
    have hnext : next.attempt.Starts view as (fun r => ∃ a, r = some a ∧ Q a) n (max now time) s :=
      fun t ht => by
        rw [toRest_attempt]
        exact ⟨spares t ht, ih t ht⟩
    exact .of_starts wake idle hnext

theorem Comes.mono (h : x.Comes view as Q n now s) (has : as ⊆ bs) (hn : n ≤ m) :
    x.Comes view bs Q m now s := by
  induction h generalizing m with
  | done h => exact .done h
  | pause wake idle spares _ ih =>
    obtain ⟨m, rfl⟩ := Nat.exists_eq_succ_of_ne_zero (by omega : m ≠ 0)
    have hkeeps : ∀ {s t : σ}, Keeps view bs s t → Keeps view as s t := fun ht a ha => ht a (has ha)
    refine .pause wake idle (fun t ht b hb => ?_) fun t ht => ih t (hkeeps ht) (by omega)
    exact spares t (hkeeps ht) b fun ha => hb (has ha)

/-- An activity that waits is alone as it is beside one that has ended. -/
theorem comes_beside_done {r : β} (hx : x.Comes view as Q n now s) (hr : R r) :
    (x.beside (Timed.done r)).Comes view as
        (fun r => ∃ a b, r = (some a, some b) ∧ Q a ∧ R b) n now s := by
  have hattempt : (x.attempt.mapAnswer (·, some r)).Comes view as
      (fun r => ∃ a b, r = (some a, some b) ∧ Q a ∧ R b) n now s := by
    refine hx.attempt.mapAnswer ?_
    rintro _ ⟨a, rfl, ha⟩
    exact ⟨a, r, rfl, ha, hr⟩
  cases hx <;> exact hattempt

theorem comes_done_beside {r : α} (hr : Q r) (hy : y.Comes view bs R m now s) :
    ((Timed.done r).beside y).Comes view bs
        (fun r => ∃ a b, r = (some a, some b) ∧ Q a ∧ R b) m now s := by
  refine hy.attempt.mapAnswer ?_
  rintro _ ⟨b, rfl, hb⟩
  exact ⟨r, b, rfl, hr, hb⟩

/-- Started side by side, each has to come to its answer where the other one has begun. -/
theorem starts_beside_of_comes {P : Option α × Option β → Prop} {k : Nat}
    (hdisjoint : as.Disjoint bs) (hx : x.Starts view as Q n now s) (hy : y.Starts view bs R m now s)
    (hcomes : ∀ {t : σ} {x : Timed σ α} {y : Timed σ β}, x.Comes view as Q n now t →
      y.Comes view bs R m now t → (x.beside y).Comes view (as ++ bs) P k now t) :
    (x.beside y).Starts view (as ++ bs) P k now s := by
  intro t ht
  obtain ⟨hspares, hxcomes⟩ := hx t fun a ha => ht a (List.mem_append_left bs ha)
  have hkeeps : Keeps view bs s (x.toRest now t).2 :=
    (hspares.keeps hdisjoint).trans fun b hb => ht b (List.mem_append_right as hb)
  obtain ⟨hspares', hycomes⟩ := hy _ hkeeps
  rw [toRest_beside]
  refine ⟨KeepsBut.trans (fun b hb => hspares' b ?_) fun b hb => hspares b ?_, hcomes ?_ hycomes⟩
  · exact fun hmem => hb (List.mem_append_right as hmem)
  · exact fun hmem => hb (List.mem_append_left bs hmem)
  · exact hxcomes.keeps (hspares'.keeps (List.disjoint_symm hdisjoint))

/-- **Two activities with different views come to their answers side by side.** -/
theorem comes_beside (hdisjoint : as.Disjoint bs) (hx : x.Comes view as Q n now s)
    (hy : y.Comes view bs R m now s) :
    (x.beside y).Comes view (as ++ bs) (fun r => ∃ a b, r = (some a, some b) ∧ Q a ∧ R b) (n + m)
      now s := by
  induction hk : n + m using Nat.strongRecOn generalizing n m now s x y with
  | _ k ih =>
  cases hx with
  | done hr =>
    exact (comes_done_beside hr hy).mono (List.subset_append_right as bs) (by omega)
  | @pause n _ time _ w next wake idle spares comes =>
  have hx : (Timed.pause w next).Comes view as Q (n + 1) now s := .pause wake idle spares comes
  cases hy with
  | done hr => exact (comes_beside_done hx hr).mono (List.subset_append_left as bs) (by omega)
  | @pause m _ time' _ v next' wake' idle' spares' comes' =>
  have hy : (Timed.pause v next').Comes view bs R (m + 1) now s := .pause wake' idle' spares' comes'
  obtain ⟨k, rfl⟩ := Nat.exists_eq_succ_of_ne_zero (by omega : k ≠ 0)
  -- Whoever is due first goes on, beside what is left of the other one.
  have hfirst : w.isFirst v = decide (time ≤ time') := by
    simp [Waiting.isFirst, Waiting.isOverBy, wake, wake']
  show (if w.isFirst v then Timed.pause (w.amid v) (next.beside (Timed.pause v next'))
    else Timed.pause (v.amid w) ((Timed.pause w next).beside next')).Comes view (as ++ bs) _ (k + 1)
      now s
  by_cases hle : time ≤ time'
  · rw [hfirst, decide_eq_true hle, if_pos rfl]
    have hnext : next.Starts view as Q n (max now time) s := fun t ht => ⟨spares t ht, comes t ht⟩
    have hlater := hy.later (Nat.le_max_left now time) fun u hu later hu' => by
      cases hu
      rw [wake'] at hu'
      cases hu'
      omega
    refine .of_starts wake (fun now s => (idle' now _).trans (idle now s)) ?_
    exact starts_beside_of_comes hdisjoint hnext hlater.starts fun hx hy =>
      ih k (by omega) hx hy (by omega)
  · rw [hfirst, decide_eq_false hle, if_neg Bool.false_ne_true]
    have hnext : next'.Starts view bs R m (max now time') s := fun t ht =>
      ⟨spares' t ht, comes' t ht⟩
    have hlater := hx.later (Nat.le_max_left now time') fun u hu later hu' => by
      cases hu
      rw [wake] at hu'
      cases hu'
      omega
    refine .of_starts wake' (fun now s => (idle now _).trans (idle' now s)) ?_
    exact starts_beside_of_comes hdisjoint hlater.starts hnext fun hx hy =>
      ih k (by omega) hx hy (by omega)

theorem Comes.ending (h : x.Comes view as Q n now s) :
    ∃ r, (x.runUnder none now s).ending = .done r ∧ Q r := by
  induction h with
  | @done _ _ _ r h => exact ⟨r, rfl, h⟩
  | @pause n now time s w next wake idle _ _ ih =>
    rw [runUnder_pause_of_isIdle wake idle, ← runUnder_toRest]
    exact ih s (.refl view as s)

end Comes

/-! ## Any number of activities -/

section Together

variable {view : ι → σ → υ} {key : π → ι} {Q : π → α → Prop} {now : Nat} {s : σ}
  {task : π → Timed σ α} {ps : List π}

/-- **Activities with a view each, no two with the same, come to their answers side by side.** -/
theorem starts_together (hps : (ps.map key).Nodup)
    (h : ∀ p ∈ ps, ∃ n, (task p).Starts view [key p] (Q p) n now s) :
    ∃ n, (together (ps.map task)).Starts view (ps.map key)
      (List.Forall₂ (fun p r => ∃ answer, r = some answer ∧ Q p answer) ps) n now s := by
  induction ps with
  | nil => exact ⟨0, fun t _ => ⟨.refl view [] t, .done .nil⟩⟩
  | cons p ps ih =>
    obtain ⟨hp, hrest⟩ := List.nodup_cons.1 hps
    obtain ⟨⟨m, hfirst⟩, hothers⟩ := List.forall_mem_cons.1 h
    obtain ⟨n, hothers⟩ := ih hrest hothers
    have hdisjoint : [key p].Disjoint (ps.map key) := List.singleton_disjoint.2 hp
    have hbeside := starts_beside_of_comes hdisjoint hfirst hothers fun hx hy =>
      comes_beside hdisjoint hx hy
    refine ⟨m + n, fun t ht => ?_⟩
    obtain ⟨hspares, hcomes⟩ := hbeside t ht
    have htogether : together ((p :: ps).map task) =
        ((task p).beside (together (ps.map task))).mapAnswer fun r => r.1 :: r.2.getD [] := rfl
    rw [htogether, toRest_mapAnswer]
    refine ⟨hspares, hcomes.mapAnswer ?_⟩
    rintro _ ⟨a, answers, rfl, ha, hanswers⟩
    exact .cons ⟨a, rfl, ha⟩ hanswers

/-- Run alone, they all come to their answers. -/
theorem ending_together (hps : (ps.map key).Nodup)
    (h : ∀ p ∈ ps, ∃ n, (task p).Starts view [key p] (Q p) n 0 s) :
    ∃ answers, ((together (ps.map task)).run s).ending = .done answers ∧
      List.Forall₂ (fun p r => ∃ answer, r = some answer ∧ Q p answer) ps answers := by
  obtain ⟨n, hstarts⟩ := starts_together hps h
  obtain ⟨-, hcomes⟩ := hstarts s (.refl view _ s)
  obtain ⟨answers, hending, hall⟩ := hcomes.ending
  rw [runUnder_toRest] at hending
  exact ⟨answers, hending, hall⟩

end Together

end Timed

end Stagehand

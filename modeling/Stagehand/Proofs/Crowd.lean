import Mathlib.Data.List.Forall2
import Stagehand.Timed

/-!
# Crowds of tasks

The tasks of a crowd go on side by side, on one state. Which of them goes on next is not known: each
that need not wait any longer may have its turn (`Step.turn`), and then goes on until it waits again
or has ended. Until then it has the state for itself. Time passes when no task may go on, up to
where the first may (`Step.pass`); what others do with the state meanwhile is done in any order.

`c.Ends P` says that the crowd comes to an end, in whatever order its tasks go on: no order gets
stuck before every task has ended, none goes on forever, and the answers are as `P` says.

**Views.** Tasks do not disturb each other if each has a view of the state of its own, which
no other one changes. `x.Comes view as Q n now s` says what becomes of a task then, if the
views of `as` are its own: whatever others do with theirs, it answers as `Q` says after `n`
turns, and changes none but its own. It is a task in a crowd seen from inside, and tells
nothing about the other ones.

Main result: `Crowd.ends_of_allCome`, by the turns that are left.
-/

namespace Stagehand

variable {σ α ι π υ : Type}

/-! ## Tasks -/

/-- Nobody does anything with the state meanwhile. -/
def Waiting.IsIdle (w : Waiting σ) : Prop := ∀ now s, w.meanwhile now s = s

namespace Timed

/-- Goes on until it waits or has ended: what is left of it, and the state that it leaves. -/
def toRest (now : Nat) : Timed σ α → σ → Timed σ α × σ
  | look next, s => (next now s).toRest now s
  | put s next, _ => next.toRest now s
  | x, s => (x, s)

/-- What it waits for. -/
def waiting? : Timed σ α → Option (Waiting σ)
  | pause w _ => some w
  | _ => none

theorem runUnder_pause_of_isIdle {w : Waiting σ} {time : Nat} (wake : w.wake = some time)
    (idle : w.IsIdle) (next : Timed σ α) (now : Nat) (s : σ) :
    (pause w next).runUnder none now s = next.runUnder none (max now time) s := by
  have hnone : meets time none = true := rfl
  simp only [runUnder, wake, hnone, if_true, idle now s]
  by_cases hle : time ≤ now
  · rw [if_pos hle, Nat.max_eq_left hle]
  · rw [if_neg hle, Nat.max_eq_right (Nat.le_of_not_le hle)]

/-- What is left of a task that has ended: its answer, or none if it broke down. -/
def ended : Option α → Timed σ α
  | some a => done a
  | none => broken

end Timed

/-! ## Crowds -/

/-- Tasks that go on side by side. -/
structure Crowd (σ α : Type) where
  time : Nat
  state : σ
  tasks : List (Timed σ α)

namespace Crowd

open Timed

/-- The tasks have been started, and each waits for its first turn. -/
def start (s : σ) (tasks : List (Timed σ α)) : Crowd σ α :=
  ⟨0, s, tasks.map (pause { wake := some 0 })⟩

/-- What the tasks wait for. -/
def waitings (c : Crowd σ α) : List (Waiting σ) := c.tasks.filterMap (·.waiting?)

/-- One task goes on, or time passes. -/
inductive Step : Crowd σ α → Crowd σ α → Prop where
  /-- A task that need not wait any longer has its turn. -/
  | turn {time : Nat} {s : σ} {before after : List (Timed σ α)} {w : Waiting σ} {next : Timed σ α}
      (due : w.isOverBy time) :
      Step ⟨time, s, before ++ pause w next :: after⟩
        ⟨time, (next.toRest time s).2, before ++ (next.toRest time s).1 :: after⟩
  /-- No task may go on before a later time. -/
  | pass {c : Crowd σ α} {later : Nat} {order : List (Waiting σ)} (lt : c.time < later)
      (reached : ∃ w ∈ c.waitings, w.wake = some later)
      (first : ∀ w ∈ c.waitings, ∀ time, w.wake = some time → later ≤ time)
      (perm : order.Perm c.waitings) :
      Step c ⟨later, order.foldl (fun s w => w.meanwhile c.time s) c.state, c.tasks⟩

/-- In whatever order its tasks go on, the crowd comes to an end, with answers as `P` says. -/
inductive Ends (P : List (Option α) → Prop) : Crowd σ α → Prop where
  | reached {time : Nat} {s : σ} {answers : List (Option α)} (h : P answers) :
      Ends P ⟨time, s, answers.map ended⟩
  | goesOn {c : Crowd σ α} (next : ∃ c', Step c c') (all : ∀ c', Step c c' → Ends P c') : Ends P c

theorem Ends.mono {P Q : List (Option α) → Prop} {c : Crowd σ α} (h : c.Ends P)
    (hPQ : ∀ answers, P answers → Q answers) : c.Ends Q := by
  induction h with
  | reached h => exact .reached (hPQ _ h)
  | goesOn hsome _ ih => exact .goesOn hsome ih

end Crowd

/-! ## Views -/

/-- These views are as they were. -/
def Keeps (view : ι → σ → υ) (as : List ι) (s s' : σ) : Prop := ∀ a ∈ as, view a s' = view a s

/-- All views but these are as they were. -/
def KeepsBut (view : ι → σ → υ) (as : List ι) (s s' : σ) : Prop :=
  ∀ b, b ∉ as → view b s' = view b s

section Views

variable {view : ι → σ → υ} {as bs : List ι} {s t u : σ}

theorem Keeps.refl (view : ι → σ → υ) (as : List ι) (s : σ) : Keeps view as s s := fun _ _ => rfl

theorem Keeps.trans (h' : Keeps view as t u) (h : Keeps view as s t) : Keeps view as s u :=
  fun a ha => (h' a ha).trans (h a ha)

theorem KeepsBut.refl (view : ι → σ → υ) (as : List ι) (s : σ) : KeepsBut view as s s :=
  fun _ _ => rfl

theorem KeepsBut.of_eq (h : t = s) : KeepsBut view as s t := h ▸ .refl view as s

theorem KeepsBut.trans (h' : KeepsBut view as t u) (h : KeepsBut view as s t) :
    KeepsBut view as s u :=
  fun b hb => (h' b hb).trans (h b hb)

theorem KeepsBut.keeps (h : KeepsBut view as s t) (hdisjoint : as.Disjoint bs) :
    Keeps view bs s t :=
  fun b hb => h b fun ha => hdisjoint ha hb

end Views

namespace Timed

/-- Whatever others do with other views, the task answers as `Q` says after `n` turns, and changes
none but its own. It is at rest, at a time and in a state. -/
inductive Comes (view : ι → σ → υ) (as : List ι) (Q : α → Prop) :
    Nat → Nat → σ → Timed σ α → Prop where
  | done {n now : Nat} {s : σ} {r : α} (h : Q r) : Comes view as Q n now s (done r)
  | pause {n now time : Nat} {s : σ} {w : Waiting σ} {next : Timed σ α} (wake : w.wake = some time)
      (idle : w.IsIdle)
      (spares : ∀ t, Keeps view as s t → KeepsBut view as t (next.toRest (max now time) t).2)
      (comes : ∀ t, Keeps view as s t →
        Comes view as Q n (max now time) (next.toRest (max now time) t).2
          (next.toRest (max now time) t).1) :
      Comes view as Q (n + 1) now s (pause w next)

section Comes

variable {view : ι → σ → υ} {as : List ι} {Q : α → Prop} {n now : Nat} {s t : σ} {x : Timed σ α}

/-- What others do does not matter. -/
theorem Comes.keeps (h : x.Comes view as Q n now s) (ht : Keeps view as s t) :
    x.Comes view as Q n now t := by
  cases h with
  | done h => exact .done h
  | pause wake idle spares comes =>
    exact .pause wake idle (fun u hu => spares u (hu.trans ht)) fun u hu => comes u (hu.trans ht)

/-- Nor does the time that passes while it has to wait anyway. -/
theorem Comes.later {later : Nat} (h : x.Comes view as Q n now s) (hnow : now ≤ later)
    (hlater : ∀ w, x.waiting? = some w → ∀ time, w.wake = some time → later ≤ max now time) :
    x.Comes view as Q n later s := by
  cases h with
  | done h => exact .done h
  | @pause n _ time _ w next wake idle spares comes =>
    have hle : later ≤ max now time := hlater w rfl time wake
    have hmax : max now time = max later time := by omega
    rw [hmax] at spares comes
    exact .pause wake idle spares comes

/-- A task that need not wait any longer goes on now. -/
theorem Comes.turn {w : Waiting σ} {next : Timed σ α}
    (h : (Timed.pause w next).Comes view as Q n now s) (hover : w.isOverBy now) :
    KeepsBut view as s (next.toRest now s).2 ∧
      ∃ m < n, (next.toRest now s).1.Comes view as Q m now (next.toRest now s).2 := by
  cases h with
  | @pause n _ time _ _ _ wake idle spares comes =>
    have hle : time ≤ now := by simpa [Waiting.isOverBy, wake] using hover
    rw [Nat.max_eq_left hle] at spares comes
    exact ⟨spares s (.refl view as s), n, Nat.lt_succ_self n, comes s (.refl view as s)⟩

/-- Started at a time, and not before others have done something, the activity comes to
its answer. -/
def Starts (view : ι → σ → υ) (as : List ι) (Q : α → Prop) (n now : Nat) (s : σ) (x : Timed σ α) :
    Prop :=
  ∀ t, Keeps view as s t → KeepsBut view as t (x.toRest now t).2 ∧
    (x.toRest now t).1.Comes view as Q n now (x.toRest now t).2

theorem Comes.of_starts {w : Waiting σ} {next : Timed σ α} {time : Nat} (wake : w.wake = some time)
    (idle : w.IsIdle) (h : next.Starts view as Q n (max now time) s) :
    (Timed.pause w next).Comes view as Q (n + 1) now s :=
  .pause wake idle (fun t ht => (h t ht).1) fun t ht => (h t ht).2

theorem Comes.starts (h : x.Comes view as Q n now s) : x.Starts view as Q n now s := by
  intro t ht
  have hrest : x.toRest now t = (x, t) := by cases h <;> rfl
  rw [hrest]
  exact ⟨.refl view as t, h.keeps ht⟩

end Comes

/-- Each task comes to its answer, with so many turns left in all. A task is known by what it is
for, and that has a view. -/
inductive AllCome (view : ι → σ → υ) (key : π → ι) (Q : π → α → Prop) (now : Nat) (s : σ) :
    Nat → List π → List (Timed σ α) → Prop where
  | nil : AllCome view key Q now s 0 [] []
  | cons {p : π} {x : Timed σ α} {m n : Nat} {ps : List π} {xs : List (Timed σ α)}
      (head : x.Comes view [key p] (Q p) m now s) (tail : AllCome view key Q now s n ps xs) :
      AllCome view key Q now s (m + n) (p :: ps) (x :: xs)

section AllCome

variable {view : ι → σ → υ} {key : π → ι} {Q : π → α → Prop} {n now : Nat} {s t : σ} {ps : List π}
  {xs : List (Timed σ α)}

theorem AllCome.keeps (h : AllCome view key Q now s n ps xs) (ht : Keeps view (ps.map key) s t) :
    AllCome view key Q now t n ps xs := by
  induction h with
  | nil => exact .nil
  | cons head _ ih =>
    obtain ⟨hp, hps⟩ := List.forall_mem_cons.1 ht
    exact .cons (head.keeps (List.forall_mem_singleton.2 hp)) (ih hps)

theorem AllCome.later {later : Nat} (h : AllCome view key Q now s n ps xs) (hnow : now ≤ later)
    (hlater : ∀ w ∈ xs.filterMap (·.waiting?), ∀ time, w.wake = some time → later ≤ max now time) :
    AllCome view key Q later s n ps xs := by
  induction h with
  | nil => exact .nil
  | @cons _ x _ _ _ xs head _ ih =>
    have hmem : ∀ w, w ∈ (x :: xs).filterMap (·.waiting?) ↔
        x.waiting? = some w ∨ w ∈ xs.filterMap (·.waiting?) := by
      simp [List.mem_filterMap]
    refine .cons (head.later hnow fun w hw => hlater w ((hmem w).2 (.inl hw))) (ih fun w hw => ?_)
    exact hlater w ((hmem w).2 (.inr hw))

theorem AllCome.of_starts {task : π → Timed σ α}
    (h : ∀ p ∈ ps, ∃ n, (task p).Starts view [key p] (Q p) n 0 s) :
    ∃ n, AllCome view key Q 0 s n ps ((ps.map task).map (pause { wake := some 0 })) := by
  induction ps with
  | nil => exact ⟨0, .nil⟩
  | cons p ps ih =>
    obtain ⟨⟨m, hp⟩, hps⟩ := List.forall_mem_cons.1 h
    obtain ⟨n, hall⟩ := ih hps
    exact ⟨_, .cons (.of_starts rfl (fun _ _ => rfl) hp) hall⟩

theorem AllCome.isIdle (h : AllCome view key Q now s n ps xs) :
    ∀ w ∈ xs.filterMap (·.waiting?), w.IsIdle := by
  induction h with
  | nil => intro w hw; cases hw
  | cons head _ ih =>
    cases head with
    | done => exact ih
    | pause _ idle => exact List.forall_mem_cons.2 ⟨idle, ih⟩

/-- Every wait comes to an end. -/
theorem AllCome.wake (h : AllCome view key Q now s n ps xs) :
    ∀ w ∈ xs.filterMap (·.waiting?), ∃ time, w.wake = some time := by
  induction h with
  | nil => intro w hw; cases hw
  | cons head _ ih =>
    cases head with
    | done => exact ih
    | pause wake => exact List.forall_mem_cons.2 ⟨⟨_, wake⟩, ih⟩

/-- The turn of one task leaves the others to come to theirs. -/
theorem AllCome.turn {before after : List (Timed σ α)} {w : Waiting σ} {next : Timed σ α}
    (h : AllCome view key Q now s n ps (before ++ pause w next :: after)) (hps : (ps.map key).Nodup)
    (hover : w.isOverBy now) :
    KeepsBut view (ps.map key) s (next.toRest now s).2 ∧
      ∃ m < n, AllCome view key Q now (next.toRest now s).2 m ps
        (before ++ (next.toRest now s).1 :: after) := by
  -- The task that goes on is looked for from the front; those that are passed keep their views.
  induction before generalizing n ps with
  | nil =>
    cases h with
    | @cons p _ _ n' ps _ head tail =>
      obtain ⟨hp, -⟩ := List.nodup_cons.1 hps
      obtain ⟨hspares, m, hm, hcomes⟩ := head.turn hover
      have hkeeps : Keeps view (ps.map key) s (next.toRest now s).2 :=
        hspares.keeps (List.singleton_disjoint.2 hp)
      refine ⟨fun b hb => hspares b ?_, m + n', by omega, .cons hcomes (tail.keeps hkeeps)⟩
      rw [List.mem_singleton]
      rintro rfl
      exact hb List.mem_cons_self
  | cons x before ih =>
    cases h with
    | @cons p _ m' _ _ _ head tail =>
      obtain ⟨hp, hps⟩ := List.nodup_cons.1 hps
      obtain ⟨hspares, m, hm, hcomes⟩ := ih tail hps
      have hkeeps : Keeps view [key p] s (next.toRest now s).2 :=
        hspares.keeps (List.disjoint_singleton.2 hp)
      refine ⟨fun b hb => hspares b fun hmem => hb (List.mem_cons_of_mem _ hmem),
        m' + m, by omega, ?_⟩
      exact .cons (head.keeps hkeeps) hcomes

theorem AllCome.answers (h : AllCome view key Q now s n ps xs)
    (hover : xs.filterMap (·.waiting?) = []) :
    ∃ answers : List (Option α), xs = answers.map ended ∧
      List.Forall₂ (fun p r => ∃ answer, r = some answer ∧ Q p answer) ps answers := by
  induction h with
  | nil => exact ⟨[], rfl, .nil⟩
  | cons head _ ih =>
    cases head with
    | @done _ _ _ r hr =>
      obtain ⟨answers, rfl, hall⟩ := ih hover
      exact ⟨some r :: answers, rfl, .cons ⟨r, rfl, hr⟩ hall⟩
    | pause => cases hover

end AllCome

end Timed

/-! ## The end of a crowd -/

namespace Crowd

open Timed

/-- Of several waits that come to an end, one does so first. -/
theorem exists_first_wake {ws : List (Waiting σ)} (hne : ws ≠ [])
    (hwake : ∀ w ∈ ws, ∃ time, w.wake = some time) :
    ∃ w ∈ ws, ∃ first, w.wake = some first ∧
      ∀ v ∈ ws, ∀ time, v.wake = some time → first ≤ time := by
  induction ws with
  | nil => exact absurd rfl hne
  | cons w ws ih =>
    obtain ⟨⟨time, htime⟩, hws⟩ := List.forall_mem_cons.1 hwake
    have hself : ∀ later, w.wake = some later → time ≤ later := by
      intro later hlater
      rw [htime] at hlater
      cases hlater
      exact Nat.le_refl _
    by_cases hnil : ws = []
    · subst hnil
      exact ⟨w, List.mem_cons_self, time, htime, List.forall_mem_cons.2 ⟨hself, nofun⟩⟩
    · obtain ⟨v, hv, first, hfirst, hleast⟩ := ih hnil hws
      rcases Nat.le_total first time with hle | hle
      · refine ⟨v, List.mem_cons_of_mem _ hv, first, hfirst, List.forall_mem_cons.2 ⟨?_, hleast⟩⟩
        exact fun later hlater => Nat.le_trans hle (hself later hlater)
      · refine ⟨w, List.mem_cons_self, time, htime, List.forall_mem_cons.2 ⟨hself, ?_⟩⟩
        exact fun u hu later hlater => Nat.le_trans hle (hleast u hu later hlater)

theorem foldl_meanwhile {ws : List (Waiting σ)} (h : ∀ w ∈ ws, w.IsIdle) (now : Nat) (s : σ) :
    ws.foldl (fun s w => w.meanwhile now s) s = s := by
  induction ws with
  | nil => rfl
  | cons w ws ih =>
    obtain ⟨hw, hws⟩ := List.forall_mem_cons.1 h
    rw [List.foldl_cons, hw, ih hws]

section Ends

variable {view : ι → σ → υ} {key : π → ι} {Q : π → α → Prop} {ps : List π}

/-- A task that may go on does, and then so many turns are left. -/
theorem exists_turn {c : Crowd σ α} {w : Waiting σ} (hw : w ∈ c.waitings)
    (hover : w.isOverBy c.time) : ∃ c', Step c c' := by
  obtain ⟨x, hx, hwaits⟩ := List.mem_filterMap.1 hw
  obtain ⟨time, s, tasks⟩ := c
  obtain ⟨before, after, rfl⟩ := List.append_of_mem hx
  cases x with
  | pause v next =>
    cases hwaits
    exact ⟨_, .turn hover⟩
  | _ => cases hwaits

/-- Where a task may go on, one does before time passes. -/
theorem ends_of_turns {c : Crowd σ α} {n : Nat} {P : List (Option α) → Prop}
    (hps : (ps.map key).Nodup) (h : AllCome view key Q c.time c.state n ps c.tasks) {w : Waiting σ}
    (hw : w ∈ c.waitings)
    (hover : w.isOverBy c.time)
    (ih : ∀ m < n, ∀ c' : Crowd σ α, AllCome view key Q c'.time c'.state m ps c'.tasks →
      c'.Ends P) :
    c.Ends P := by
  refine .goesOn (exists_turn hw hover) fun c' hstep => ?_
  cases hstep with
  | turn hturn =>
    obtain ⟨-, m, hm, hcomes⟩ := h.turn hps hturn
    exact ih m hm _ hcomes
  | @pass _ later _ lt _ first _ =>
    obtain ⟨time, htime⟩ := h.wake w hw
    have hle : time ≤ c.time := by simpa [Waiting.isOverBy, htime] using hover
    have hlater : later ≤ time := first w hw time htime
    omega

/-- **Tasks that do not disturb each other come to their answers, in whatever order they go on.** -/
theorem ends_of_allCome {c : Crowd σ α} {n : Nat} (hps : (ps.map key).Nodup)
    (h : AllCome view key Q c.time c.state n ps c.tasks) :
    c.Ends fun answers =>
      List.Forall₂ (fun p r => ∃ answer, r = some answer ∧ Q p answer) ps answers := by
  induction n using Nat.strongRecOn generalizing c with
  | _ n ih =>
    by_cases hrest : ∃ w ∈ c.waitings, w.isOverBy c.time
    · obtain ⟨w, hw, hover⟩ := hrest
      exact ends_of_turns hps h hw hover fun m hm c' => ih m hm
    by_cases hended : c.waitings = []
    · obtain ⟨answers, htasks, hall⟩ := h.answers hended
      obtain ⟨time, s, tasks⟩ := c
      obtain rfl : tasks = answers.map ended := htasks
      exact .reached hall
    -- Nobody may go on: time passes, and then somebody may.
    have hpast : ∀ w ∈ c.waitings, ∀ time, w.wake = some time → c.time < time := by
      intro w hw time htime
      refine Nat.lt_of_not_le fun hle => hrest ⟨w, hw, ?_⟩
      simpa [Waiting.isOverBy, htime] using hle
    obtain ⟨w, hw, later, hlater, hfirst⟩ := exists_first_wake hended h.wake
    refine .goesOn ⟨_, .pass (hpast w hw later hlater) ⟨w, hw, hlater⟩ hfirst (.refl _)⟩ ?_
    intro c' hstep
    cases hstep with
    | @turn time s before after w next hover =>
      refine absurd ⟨w, ?_, hover⟩ hrest
      exact List.mem_filterMap.2 ⟨_, List.mem_append_right _ List.mem_cons_self, rfl⟩
    | @pass _ later order lt reached first perm =>
      obtain ⟨v, hv, hreached⟩ := reached
      rw [foldl_meanwhile fun w hw => h.isIdle w (perm.mem_iff.1 hw)]
      have hcomes := h.later (Nat.le_of_lt lt) fun w hw time htime =>
        Nat.le_trans (first w hw time htime) (Nat.le_max_right _ _)
      refine ends_of_turns hps hcomes (w := v) hv ?_ fun m hm c' => ih m hm
      simp [Waiting.isOverBy, hreached]

/-- Tasks with a view each, no two with the same, come to their answers from the start. -/
theorem ends_start {task : π → Timed σ α} {s : σ} (hps : (ps.map key).Nodup)
    (h : ∀ p ∈ ps, ∃ n, (task p).Starts view [key p] (Q p) n 0 s) :
    (start s (ps.map task)).Ends fun answers =>
      List.Forall₂ (fun p r => ∃ answer, r = some answer ∧ Q p answer) ps answers := by
  obtain ⟨n, hall⟩ := AllCome.of_starts h
  exact ends_of_allCome hps hall

end Ends

end Crowd

end Stagehand

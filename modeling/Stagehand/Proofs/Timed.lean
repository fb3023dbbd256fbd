import Stagehand.Timed

/-!
# What an activity comes to

`x.Reaches d now s Q C` says that `x`, run from a time and a state up to a deadline, does not
break down: it ends by itself as `Q` says, or is cut as `C` says. There is one rule for each way
to build an activity, so that what a composed activity comes to is calculated from its parts.

Main results: the rules `reaches_bind`, `reaches_within` and `reaches_onPart`; time only goes on,
and no further than the deadline (`Reaches.timed`).
-/

namespace Stagehand

variable {σ τ α β : Type}

/-- The end is as `Q` says if it came by itself, as `C` says if it was a cut, and no breakdown. -/
def Ended.Meets (e : Ended σ α) (Q : α → Nat → σ → Prop) (C : Nat → σ → Prop) : Prop :=
  match e with
  | ⟨.done a, time, s⟩ => Q a time s
  | ⟨.cut, time, s⟩ => C time s
  | ⟨.broken, _, _⟩ => False

theorem Ended.Meets.mono {e : Ended σ α} {Q Q' : α → Nat → σ → Prop} {C C' : Nat → σ → Prop}
    (h : e.Meets Q C) (hQ : ∀ a time s, Q a time s → Q' a time s)
    (hC : ∀ time s, C time s → C' time s) : e.Meets Q' C' := by
  obtain ⟨ending, time, s⟩ := e
  cases ending with
  | done a => exact hQ a time s h
  | cut => exact hC time s h
  | broken => exact h

theorem Ended.meets_true {e : Ended σ α} :
    e.Meets (fun _ _ _ => True) (fun _ _ => True) ↔ e.ending ≠ .broken := by
  rcases e with ⟨a | _ | _, time, s⟩ <;> simp [Meets]

/-- What is never cut ended by itself. -/
theorem Ended.meets_false {e : Ended σ α} {Q : α → Nat → σ → Prop} :
    e.Meets Q (fun _ _ => False) ↔ ∃ a, e.ending = .done a ∧ Q a e.time e.state := by
  rcases e with ⟨a | _ | _, time, s⟩ <;> simp [Meets]

/-- It was still waiting. -/
def Ending.isCut : Ending α → Bool
  | .cut => true
  | .done _ | .broken => false

def Ended.mapState (f : σ → τ) (e : Ended σ α) : Ended τ α := ⟨e.ending, e.time, f e.state⟩

namespace Timed

/-- A sequence runs its second part from where the first one ended by itself. -/
theorem runUnder_bind (x : Timed σ β) (f : β → Timed σ α) (deadline : Option Nat)
    (now : Nat) (s : σ) :
    (x >>= f).runUnder deadline now s =
      match x.runUnder deadline now s with
      | ⟨.done b, now, s⟩ => (f b).runUnder deadline now s
      | ⟨.cut, now, s⟩ => ⟨.cut, now, s⟩
      | ⟨.broken, now, s⟩ => ⟨.broken, now, s⟩ :=
  runUnder_andThen x f deadline now s

/-- Run from a time and a state up to a deadline, the activity ends as `Q` says, or is cut as `C`
says. -/
def Reaches (x : Timed σ α) (deadline : Option Nat) (now : Nat) (s : σ) (Q : α → Nat → σ → Prop)
    (C : Nat → σ → Prop) : Prop :=
  (x.runUnder deadline now s).Meets Q C

/-- The activity never breaks down. -/
def Unbroken (x : Timed σ α) : Prop :=
  ∀ deadline now s, (x.runUnder deadline now s).ending ≠ .broken

/-- Without a deadline, the activity always ends by itself. -/
def Finishes (x : Timed σ α) : Prop :=
  ∀ now s, ∃ a, (x.runUnder none now s).ending = .done a

section Rules

variable {deadline : Option Nat} {now : Nat} {s : σ} {Q Q' : α → Nat → σ → Prop}
  {C C' : Nat → σ → Prop}

/-! ## Rules -/

@[simp] theorem reaches_pure (a : α) :
    (pure a : Timed σ α).Reaches deadline now s Q C ↔ Q a now s :=
  Iff.rfl

@[simp] theorem reaches_bind (x : Timed σ β) (f : β → Timed σ α) :
    (x >>= f).Reaches deadline now s Q C ↔
      x.Reaches deadline now s (fun b time s => (f b).Reaches deadline time s Q C) C := by
  rw [Reaches, runUnder_bind, Reaches]
  rcases x.runUnder deadline now s with ⟨a | _ | _, time, s⟩ <;> exact Iff.rfl

theorem reaches_look (next : Nat → σ → Timed σ α) :
    (look next).Reaches deadline now s Q C ↔ (next now s).Reaches deadline now s Q C :=
  Iff.rfl

theorem reaches_put (t : σ) (next : Timed σ α) :
    (put t next).Reaches deadline now s Q C ↔ next.Reaches deadline now t Q C :=
  Iff.rfl

@[simp] theorem reaches_now {Q : Nat → Nat → σ → Prop} :
    (Timed.now : Timed σ Nat).Reaches deadline now s Q C ↔ Q now now s := Iff.rfl

@[simp] theorem reaches_get {Q : σ → Nat → σ → Prop} :
    (Timed.get : Timed σ σ).Reaches deadline now s Q C ↔ Q s now s := Iff.rfl

@[simp] theorem reaches_modify {Q : Unit → Nat → σ → Prop} (f : σ → σ) :
    (Timed.modify f).Reaches deadline now s Q C ↔ Q () now (f s) := Iff.rfl

@[simp] theorem reaches_modifyGet (f : σ → α × σ) :
    (Timed.modifyGet f).Reaches deadline now s Q C ↔ Q (f s).1 now (f s).2 := Iff.rfl

@[simp] theorem reaches_hang :
    (hang : Timed σ α).Reaches deadline now s Q C ↔ C (deadline.getD now) s := by
  show C (deadline.getD now) (if now < deadline.getD now then s else s) ↔ _
  rw [ite_self]

/-- Waiting goes on if it is over by the deadline, and is cut otherwise. -/
theorem reaches_pause_some (time : Nat) (meanwhile : Nat → σ → σ) (abandoned : σ → σ)
    (next : Timed σ α) :
    (pause ⟨some time, meanwhile, abandoned⟩ next).Reaches deadline now s Q C ↔
      if time ≤ now then next.Reaches deadline now s Q C
      else if meets time deadline then next.Reaches deadline time (meanwhile now s) Q C
      else C (deadline.getD now)
        (abandoned (if now < deadline.getD now then meanwhile now s else s)) := by
  simp only [Reaches, runUnder]
  split
  · rfl
  · split <;> rfl

/-- Waiting that may be cut at any time comes to what comes after it. -/
theorem reaches_pause_of_next {w : Waiting σ} {next : Timed σ α}
    (hover : next.Reaches deadline now s Q C)
    (hlater : ∀ time, next.Reaches deadline time (w.meanwhile now s) Q C)
    (hcut : ∀ time s, C time s) : (pause w next).Reaches deadline now s Q C := by
  obtain ⟨wake, meanwhile, abandoned⟩ := w
  cases wake with
  | none => exact hcut _ _
  | some time =>
    rw [reaches_pause_some]
    split
    · exact hover
    · split
      · exact hlater time
      · exact hcut _ _

theorem reaches_waitWhile {Q : Unit → Nat → σ → Prop} (meanwhile : Nat → σ → σ) (millis : Nat) :
    (waitWhile meanwhile millis).Reaches deadline now s Q C ↔
      if millis = 0 then Q () now s
      else if meets (now + millis) deadline then Q () (now + millis) (meanwhile now s)
      else C (deadline.getD now) (if now < deadline.getD now then meanwhile now s else s) := by
  show (pause ⟨some (now + millis), meanwhile, fun s => s⟩ (done ())).Reaches
    deadline now s Q C ↔ _
  have hover : now + millis ≤ now ↔ millis = 0 := by omega
  simp only [reaches_pause_some, hover]
  exact Iff.rfl

/-- Waiting keeps what others keep meanwhile. -/
theorem reaches_waitWhile_of_keeps {Q : Unit → Nat → σ → Prop} {I : σ → Prop}
    {meanwhile : Nat → σ → σ} {millis : Nat} (hs : I s)
    (hkeeps : ∀ now s, I s → I (meanwhile now s)) (hQ : ∀ time s, I s → Q () time s)
    (hC : ∀ time s, I s → C time s) : (waitWhile meanwhile millis).Reaches deadline now s Q C := by
  rw [reaches_waitWhile]
  split
  · exact hQ _ _ hs
  · split
    · exact hQ _ _ (hkeeps _ _ hs)
    · split
      · exact hC _ _ (hkeeps _ _ hs)
      · exact hC _ _ hs

theorem reaches_wait {Q : Unit → Nat → σ → Prop} (millis : Nat) :
    (wait millis).Reaches deadline now s Q C ↔
      if millis = 0 then Q () now s
      else if meets (now + millis) deadline then Q () (now + millis) s
      else C (deadline.getD now) s := by
  rw [wait, reaches_waitWhile, ite_self]

theorem Reaches.mono {x : Timed σ α} (h : x.Reaches deadline now s Q C)
    (hQ : ∀ a time s, Q a time s → Q' a time s) (hC : ∀ time s, C time s → C' time s) :
    x.Reaches deadline now s Q' C' :=
  Ended.Meets.mono h hQ hC

theorem Unbroken.reaches {x : Timed σ α} (h : x.Unbroken) :
    x.Reaches deadline now s (fun _ _ _ => True) (fun _ _ => True) :=
  Ended.meets_true.2 (h deadline now s)

theorem Unbroken.reaches_run {x : Timed σ α} (h : x.Unbroken) :
    x.Reaches deadline now s (fun a time t => x.runUnder deadline now s = ⟨.done a, time, t⟩)
      (fun time t => x.runUnder deadline now s = ⟨.cut, time, t⟩) := by
  have hunbroken := h deadline now s
  unfold Reaches
  generalize x.runUnder deadline now s = e at hunbroken ⊢
  rcases e with ⟨a | _ | _, time, t⟩
  · rfl
  · rfl
  · exact absurd rfl hunbroken

theorem unbroken_of_reaches {x : Timed σ α}
    (h : ∀ deadline now s, x.Reaches deadline now s (fun _ _ _ => True) fun _ _ => True) :
    x.Unbroken := by
  intro deadline now s
  exact Ended.meets_true.1 (h deadline now s)

theorem finishes_of_reaches {x : Timed σ α}
    (h : ∀ now s, x.Reaches none now s (fun _ _ _ => True) fun _ _ => False) : x.Finishes := by
  intro now s
  obtain ⟨a, ha, -⟩ := Ended.meets_false.1 (h now s)
  exact ⟨a, ha⟩

theorem Finishes.reaches_run {x : Timed σ α} (h : x.Finishes) :
    x.Reaches none now s (fun a time t => x.runUnder none now s = ⟨.done a, time, t⟩)
      (fun _ _ => False) := by
  obtain ⟨a, ha⟩ := h now s
  refine Ended.meets_false.2 ⟨a, ha, ?_⟩
  rw [← ha]

/-- What holds of every end holds of the state that is left. -/
theorem Reaches.state {x : Timed σ α} {P : σ → Prop}
    (h : x.Reaches deadline now s (fun _ _ s => P s) fun _ s => P s) :
    P (x.runUnder deadline now s).state := by
  revert h
  unfold Reaches
  rcases x.runUnder deadline now s with ⟨a | _ | _, time, s⟩
  · exact id
  · exact id
  · exact False.elim

/-- What is never cut comes to its end. -/
theorem Reaches.returns {x : Timed σ α} (h : x.Reaches deadline now s Q fun _ _ => False) :
    ∃ a time t, x.runUnder deadline now s = ⟨.done a, time, t⟩ ∧ Q a time t := by
  revert h
  unfold Reaches
  rcases x.runUnder deadline now s with ⟨a | _ | _, time, t⟩
  · exact fun h => ⟨a, time, t, rfl, h⟩
  · exact False.elim
  · exact False.elim

theorem Reaches.of_ending {x : Timed σ α} {a : α} (h : x.Reaches deadline now s Q C)
    (ha : (x.runUnder deadline now s).ending = .done a) :
    Q a (x.runUnder deadline now s).time (x.runUnder deadline now s).state := by
  revert h ha
  unfold Reaches
  rcases x.runUnder deadline now s with ⟨b | _ | _, time, t⟩
  · rintro h ⟨⟩
    exact h
  · rintro - ⟨⟩
  · rintro - ⟨⟩

theorem Reaches.ends {x : Timed σ α} (h : x.Reaches none 0 s Q C) :
    (∃ a, (x.run s).ending = .done a ∧ Q a (x.run s).time (x.run s).state) ∨
      (x.run s).ending = .cut ∧ C (x.run s).time (x.run s).state := by
  revert h
  unfold Reaches Timed.run
  rcases x.runUnder none 0 s with ⟨a | _ | _, time, s⟩
  · exact fun h => .inl ⟨a, rfl, h⟩
  · exact fun h => .inr ⟨rfl, h⟩
  · exact False.elim

/-- What comes to an end under a deadline, be it a breakdown, comes to the same end without one. -/
theorem runUnder_none_of_ne_cut {x : Timed σ α} (h : (x.runUnder deadline now s).ending ≠ .cut) :
    x.runUnder none now s = x.runUnder deadline now s := by
  induction x generalizing now s with
  | done => rfl
  | broken => rfl
  | look next ih => exact ih now s h
  | put t next ih => exact ih h
  | pause w next ih =>
    have hnone : ∀ time, meets time none = true := fun _ => rfl
    revert h
    simp only [runUnder, hnone, if_true]
    split
    · split
      · exact fun h => ih h
      · split
        · exact fun h => ih h
        · exact fun h => absurd rfl h
    · exact fun h => absurd rfl h

theorem runUnder_none_of_done {x : Timed σ α} {a : α}
    (h : (x.runUnder deadline now s).ending = .done a) :
    x.runUnder none now s = x.runUnder deadline now s :=
  runUnder_none_of_ne_cut (by rw [h]; rintro ⟨⟩)

theorem Finishes.unbroken {x : Timed σ α} (h : x.Finishes) : x.Unbroken := by
  intro deadline now s hbroken
  obtain ⟨a, ha⟩ := h now s
  have hcut : (x.runUnder deadline now s).ending ≠ .cut := by
    rw [hbroken]
    rintro ⟨⟩
  rw [runUnder_none_of_ne_cut hcut, hbroken] at ha
  cases ha

/-! ## Time -/

/-- A time is not before `now`, and not past the deadline. -/
def Within (deadline : Option Nat) (now time : Nat) : Prop := now ≤ time ∧ meets time deadline

/-- A cut comes at the deadline. -/
def CutAt (deadline : Option Nat) (now time : Nat) : Prop :=
  ∀ stop, deadline = some stop → time = stop ∧ now ≤ stop

theorem Within.refl (h : meets now deadline) : Within deadline now now := ⟨Nat.le_refl now, h⟩

theorem Within.trans {time later : Nat} (h' : Within deadline time later) (h : now ≤ time) :
    Within deadline now later := ⟨Nat.le_trans h h'.1, h'.2⟩

theorem CutAt.trans {time later : Nat} (h' : CutAt deadline time later) (h : now ≤ time) :
    CutAt deadline now later := fun stop hstop =>
  ⟨(h' stop hstop).1, Nat.le_trans h (h' stop hstop).2⟩

/-- **Time only goes on, and no further than the deadline.** -/
theorem Reaches.timed {x : Timed σ α} (h : x.Reaches deadline now s Q C) (hd : meets now deadline) :
    x.Reaches deadline now s (fun a time s => Within deadline now time ∧ Q a time s)
      (fun time s => CutAt deadline now time ∧ C time s) := by
  induction x generalizing now s with
  | done a => exact ⟨Within.refl hd, h⟩
  | broken => exact h
  | look next ih => exact ih now s h hd
  | put t next ih => exact ih h hd
  | pause w next ih =>
    -- A cut comes at the deadline, whatever is waited for.
    have hcut : CutAt deadline now (deadline.getD now) := by
      rintro stop rfl
      exact ⟨rfl, by simpa [meets] using hd⟩
    obtain ⟨wake, meanwhile, abandoned⟩ := w
    cases wake with
    | none => exact ⟨hcut, h⟩
    | some time =>
      rw [reaches_pause_some] at h ⊢
      by_cases hle : time ≤ now
      · rw [if_pos hle] at h ⊢
        exact ih h hd
      · rw [if_neg hle] at h ⊢
        by_cases hmeets : meets time deadline
        · rw [if_pos hmeets] at h ⊢
          have hnow : now ≤ time := by omega
          exact (ih h hmeets).mono (fun _ _ _ hq => ⟨hq.1.trans hnow, hq.2⟩)
            fun _ _ hc => ⟨hc.1.trans hnow, hc.2⟩
        · rw [if_neg hmeets] at h ⊢
          exact ⟨hcut, h⟩

/-! ## Limits -/

theorem reaches_within {Q : Option α → Nat → σ → Prop} (millis : Nat) (x : Timed σ α)
    (hd : meets now deadline) :
    (within millis x).Reaches deadline now s Q C ↔
      x.Reaches (some (nearer (now + millis) deadline)) now s (fun a => Q (some a)) fun time s =>
        if meets (now + millis) deadline then Q none time s else C time s := by
  unfold Reaches
  rw [runUnder_within millis x deadline now s hd]
  obtain ⟨ending, time, s⟩ := x.runUnder (some (nearer (now + millis) deadline)) now s
  cases ending with
  | done a => exact Iff.rfl
  | broken => exact Iff.rfl
  | cut =>
    simp only [limited]
    split <;> exact Iff.rfl

theorem meets_nearer {time limit : Nat} :
    meets time (some (nearer limit deadline)) ↔ time ≤ limit ∧ meets time deadline := by
  cases deadline with
  | none => exact ⟨fun h => ⟨of_decide_eq_true h, rfl⟩, fun h => decide_eq_true h.1⟩
  | some stop => simp only [meets, nearer, decide_eq_true_eq, Nat.le_min]

theorem nearer_of_meets {limit : Nat} (h : meets limit deadline) :
    nearer limit deadline = limit := by
  cases deadline with
  | none => rfl
  | some stop => exact Nat.min_eq_left (of_decide_eq_true h)

theorem exists_nearer_lt {limit : Nat} (h : ¬ meets limit deadline) :
    ∃ stop, deadline = some stop ∧ nearer limit deadline = stop ∧ stop < limit := by
  cases deadline with
  | none => exact absurd rfl h
  | some stop =>
    have hlt : stop < limit := by simpa [meets] using h
    exact ⟨stop, rfl, Nat.min_eq_right (Nat.le_of_lt hlt), hlt⟩

/-! ## Abandoned activities -/

theorem runUnder_whenAbandoned (cleanup : σ → σ) (x : Timed σ α) :
    (x.whenAbandoned cleanup).runUnder deadline now s =
      match x.runUnder deadline now s with
      | ⟨.done a, time, s⟩ => ⟨.done a, time, s⟩
      | ⟨.cut, time, s⟩ => ⟨.cut, time, cleanup s⟩
      | ⟨.broken, time, s⟩ => ⟨.broken, time, cleanup s⟩ := by
  induction x generalizing now s with
  | done a => rfl
  | broken => rfl
  | look next ih => exact ih now s
  | put t next ih => exact ih
  | pause w next ih =>
    simp only [whenAbandoned, runUnder]
    split
    · split
      · exact ih
      · split
        · exact ih
        · rfl
    · rfl

@[simp] theorem reaches_whenAbandoned (cleanup : σ → σ) (x : Timed σ α) :
    (x.whenAbandoned cleanup).Reaches deadline now s Q C ↔
      x.Reaches deadline now s Q fun time s => C time (cleanup s) := by
  unfold Reaches
  rw [runUnder_whenAbandoned]
  rcases x.runUnder deadline now s with ⟨a | _ | _, time, s⟩ <;> exact Iff.rfl

/-! ## Parts of a state -/

/-- A part of a state that can be read and replaced. -/
structure IsPart (part : σ → τ) (setPart : τ → σ → σ) : Prop where
  part_setPart : ∀ t s, part (setPart t s) = t
  setPart_part : ∀ s, setPart (part s) s = s
  setPart_setPart : ∀ t u s, setPart t (setPart u s) = setPart t s

/-- On a part of the state, an activity runs as it does alone, and leaves the rest as it is. -/
theorem runUnder_onPart {part : σ → τ} {setPart : τ → σ → σ} (h : IsPart part setPart)
    (x : Timed τ α) :
    (x.onPart part setPart).runUnder deadline now s =
      (x.runUnder deadline now (part s)).mapState (setPart · s) := by
  induction x generalizing now s with
  | done a => simp [onPart, runUnder, Ended.mapState, h.setPart_part]
  | broken => simp [onPart, runUnder, Ended.mapState, h.setPart_part]
  | look next ih => exact ih now (part s)
  | put t next ih =>
    have hnext := @ih now (setPart t s)
    simp only [h.part_setPart, h.setPart_setPart] at hnext
    exact hnext
  | pause w next ih =>
    have hnext : ∀ time t, (next.onPart part setPart).runUnder deadline time (setPart t s) =
        (next.runUnder deadline time t).mapState (setPart · s) := by
      intro time t
      have hnext := @ih time (setPart t s)
      simp only [h.part_setPart, h.setPart_setPart] at hnext
      exact hnext
    obtain ⟨wake, meanwhile, abandoned⟩ := w
    -- Whoever changes the part while it waits, the rest is the one from before.
    have hself : ∀ t, part (setPart t s) = t := fun t => h.part_setPart t s
    have hagain : ∀ t u, setPart t (setPart u s) = setPart t s := fun t u => h.setPart_setPart t u s
    cases wake with
    | none =>
      simp only [onPart, Waiting.onPart, runUnder, Ended.mapState]
      split <;> simp [hself, hagain]
    | some time =>
      simp only [onPart, Waiting.onPart, runUnder]
      split
      · exact ih
      · split
        · exact hnext time _
        · simp only [Ended.mapState]
          split <;> simp [hself, hagain]

theorem reaches_onPart {part : σ → τ} {setPart : τ → σ → σ} (h : IsPart part setPart)
    (x : Timed τ α) :
    (x.onPart part setPart).Reaches deadline now s Q C ↔
      x.Reaches deadline now (part s) (fun a time t => Q a time (setPart t s))
        fun time t => C time (setPart t s) := by
  unfold Reaches
  rw [runUnder_onPart h]
  rcases x.runUnder deadline now (part s) with ⟨a | _ | _, time, t⟩ <;> exact Iff.rfl

end Rules

/-! ## Invariants -/

/-- What holds of the state before the activity holds of it after, whether that ends or is cut. -/
def Preserves (I : σ → Prop) (x : Timed σ α) : Prop :=
  ∀ deadline now s, I s → x.Reaches deadline now s (fun _ _ s => I s) fun _ s => I s

section Invariants

variable {I : σ → Prop} {x : Timed σ β} {f : β → Timed σ α}

theorem preserves_pure (a : α) : (pure a : Timed σ α).Preserves I :=
  fun _ _ _ hs => (reaches_pure a).2 hs

theorem preserves_bind (hx : x.Preserves I) (hf : ∀ b, (f b).Preserves I) :
    (x >>= f).Preserves I := by
  intro deadline now s hs
  rw [reaches_bind]
  exact (hx deadline now s hs).mono (fun b time s hs => hf b deadline time s hs) fun _ _ hs => hs

end Invariants

-- From here on the rules are used; running an activity symbolically is slow.
attribute [irreducible] Reaches

end Timed

end Stagehand

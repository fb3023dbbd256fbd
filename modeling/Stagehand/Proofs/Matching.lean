import Stagehand.Proofs.Timed

/-!
# Activities that run alike

`x.RunsAs E y` says that `x` and `y`, started in states that `E` relates, run alike: they end in the
same way and at the same time, in states that `E` relates again. Deadlines are what both are run
under, so what is shown of two activities holds wherever they are limited or cut.

With a relation that holds of a state and itself only, this is an invariant: what holds at the start
holds at every end, a cut or a breakdown included.
-/

namespace Stagehand

variable {σ τ α β : Type}

/-- The same end, in related states. -/
inductive Ended.Matches (E : σ → τ → Prop) : Ended σ α → Ended τ α → Prop where
  | intro (ending : Ending α) (time : Nat) {s : σ} {t : τ} (state : E s t) :
      Matches E ⟨ending, time, s⟩ ⟨ending, time, t⟩

namespace Ended.Matches

variable {E : σ → τ → Prop} {e : Ended σ α} {e' : Ended τ α}

theorem ending (h : e.Matches E e') : e.ending = e'.ending := by cases h; rfl

theorem time (h : e.Matches E e') : e.time = e'.time := by cases h; rfl

theorem state (h : e.Matches E e') : E e.state e'.state := by cases h; assumption

theorem of_eq (hending : e.ending = e'.ending) (htime : e.time = e'.time) (h : E e.state e'.state) :
    e.Matches E e' := by
  obtain ⟨ending, time, s⟩ := e
  obtain ⟨ending', time', t⟩ := e'
  obtain rfl : ending = ending' := hending
  obtain rfl : time = time' := htime
  exact .intro ending time h

theorem mono {E' : σ → τ → Prop} (h : e.Matches E e') (hE : ∀ s t, E s t → E' s t) :
    e.Matches E' e' := by
  cases h with
  | intro ending time hs => exact .intro ending time (hE _ _ hs)

theorem eq {e e' : Ended σ α} (h : e.Matches Eq e') : e = e' := by
  obtain ⟨_, _, rfl⟩ := h
  rfl

end Ended.Matches

theorem Ended.matches_view {view : σ → τ} {e : Ended σ α} {e' : Ended τ α} :
    e.Matches (fun s t => view s = t) e' ↔ e.mapState view = e' := by
  constructor
  · rintro ⟨ending, time, rfl⟩
    rfl
  · rintro rfl
    exact .intro _ _ rfl

namespace Timed

/-- Started in related states, the activities run alike. -/
def RunsAs (E : σ → τ → Prop) (x : Timed σ α) (y : Timed τ α) : Prop :=
  ∀ deadline now s t, meets now deadline → E s t →
    (x.runUnder deadline now s).Matches E (y.runUnder deadline now t)

section Rules

variable {E : σ → τ → Prop}

/-! ## Rules -/

theorem runsAs_pure (a : α) : RunsAs E (pure a) (pure a) := fun _ _ _ _ _ hs => .intro _ _ hs

/-- What comes to an end, be it a breakdown, does so by the deadline. -/
theorem meets_time_of_ne_cut {x : Timed σ α} {deadline : Option Nat} {now : Nat} {s : σ}
    (h : (x.runUnder deadline now s).ending ≠ .cut) (hd : meets now deadline) :
    meets (x.runUnder deadline now s).time deadline := by
  induction x generalizing now s with
  | done => exact hd
  | broken => exact hd
  | look next ih => exact ih now s h hd
  | put t next ih => exact ih h hd
  | pause w next ih =>
    revert h
    simp only [runUnder]
    split
    · split
      · exact fun h => ih h hd
      · split
        · exact fun h => ih h (by assumption)
        · exact fun h => absurd rfl h
    · exact fun h => absurd rfl h

theorem meets_time_of_done {x : Timed σ α} {deadline : Option Nat} {now : Nat} {s : σ} {a : α}
    (h : (x.runUnder deadline now s).ending = .done a) (hd : meets now deadline) :
    meets (x.runUnder deadline now s).time deadline :=
  meets_time_of_ne_cut (by rw [h]; rintro ⟨⟩) hd

theorem runsAs_bind {x : Timed σ β} {y : Timed τ β} {f : β → Timed σ α} {g : β → Timed τ α}
    (hx : RunsAs E x y) (hf : ∀ b, RunsAs E (f b) (g b)) : RunsAs E (x >>= f) (y >>= g) := by
  intro deadline now s t hd hs
  have hxy := hx deadline now s t hd hs
  have hmeets : ∀ b, (x.runUnder deadline now s).ending = .done b →
      meets (x.runUnder deadline now s).time deadline := fun b hb => meets_time_of_done hb hd
  rw [runUnder_bind, runUnder_bind]
  generalize x.runUnder deadline now s = e at hxy hmeets ⊢
  generalize y.runUnder deadline now t = e' at hxy ⊢
  obtain ⟨ending, time, hs⟩ := hxy
  cases ending with
  | done b => exact hf b deadline time _ _ (hmeets b rfl) hs
  | cut => exact .intro _ _ hs
  | broken => exact .intro _ _ hs

theorem runsAs_now : RunsAs E Timed.now Timed.now := fun _ _ _ _ _ hs => .intro _ _ hs

theorem runsAs_modify {f : σ → σ} {g : τ → τ} (h : ∀ s t, E s t → E (f s) (g t)) :
    RunsAs E (Timed.modify f) (Timed.modify g) := fun _ _ s t _ hs => .intro _ _ (h s t hs)

/-- What goes on with the state must depend only on what related states have in common. -/
theorem runsAs_get_bind {f : σ → Timed σ α} {g : τ → Timed τ α}
    (h : ∀ s t, E s t → RunsAs E (f s) (g t)) : RunsAs E (get >>= f) (get >>= g) :=
  fun deadline now s t hd hs => h s t hs deadline now s t hd hs

/-- Ends that match mean the same for whoever set a limit. -/
theorem matches_limited {limit : Nat} {deadline : Option Nat} {e : Ended σ α} {e' : Ended τ α}
    (h : e.Matches E e') : (limited limit deadline e).Matches E (limited limit deadline e') := by
  obtain ⟨ending, time, hs⟩ := h
  cases ending with
  | done a => exact .intro _ _ hs
  | broken => exact .intro _ _ hs
  | cut =>
    simp only [limited]
    split <;> exact .intro _ _ hs

theorem runsAs_within {x : Timed σ α} {y : Timed τ α} (millis : Nat) (h : RunsAs E x y) :
    RunsAs E (within millis x) (within millis y) := by
  intro deadline now s t hd hs
  have hnow : meets now (some (nearer (now + millis) deadline)) :=
    meets_nearer.2 ⟨Nat.le_add_right _ _, hd⟩
  rw [runUnder_within _ _ _ _ _ hd, runUnder_within _ _ _ _ _ hd]
  exact matches_limited (h _ now s t hnow hs)

/-- What is done when an activity is abandoned must keep the states related. -/
theorem runsAs_whenAbandoned {f : σ → σ} {g : τ → τ} (hf : ∀ s t, E s t → E (f s) (g t))
    {x : Timed σ α} {y : Timed τ α} (h : RunsAs E x y) :
    RunsAs E (x.whenAbandoned f) (y.whenAbandoned g) := by
  intro deadline now s t hd hs
  have hxy := h deadline now s t hd hs
  rw [runUnder_whenAbandoned, runUnder_whenAbandoned]
  generalize x.runUnder deadline now s = e at hxy ⊢
  generalize y.runUnder deadline now t = e' at hxy ⊢
  obtain ⟨ending, time, hs⟩ := hxy
  cases ending with
  | done a => exact .intro _ _ hs
  | cut => exact .intro _ _ (hf _ _ hs)
  | broken => exact .intro _ _ (hf _ _ hs)

/-- What runs alike on the parts runs alike on the whole. -/
theorem runsAs_onPart {σ' τ' : Type} {E' : σ' → τ' → Prop} {part : σ → σ'} {setPart : σ' → σ → σ}
    {part' : τ → τ'} {setPart' : τ' → τ → τ} (hp : IsPart part setPart)
    (hp' : IsPart part' setPart')
    (hpart : ∀ s t, E s t → E' (part s) (part' t))
    (hset : ∀ s t s' t', E s t → E' s' t' → E (setPart s' s) (setPart' t' t))
    {x : Timed σ' α} {y : Timed τ' α} (h : RunsAs E' x y) :
    RunsAs E (x.onPart part setPart) (y.onPart part' setPart') := by
  intro deadline now s t hd hs
  have hxy := h deadline now _ _ hd (hpart s t hs)
  rw [runUnder_onPart hp, runUnder_onPart hp']
  exact .of_eq hxy.ending hxy.time (hset s t _ _ hs hxy.state)

end Rules

end Timed

end Stagehand

import Stagehand.Proofs.Crowd
import Stagehand.Proofs.Matching

/-!
# Activities that keep to their view

Two runs of an activity are compared, one of which others disturb. `AlikeAt view a world E s s' x y`
says that `x` in `s` and `y` in `s'` do the same as long as nobody touches `a`'s view of the world:
they look, change and wait in step, `E` relates their states, and what `x` changes is no view but
`a`'s. While they wait, the states may be exchanged for any others that `E` relates.

An activity that is alike to itself in states with the same view is **isolated**: what it does
depends on that view only. So it may be carried along in a crowd: whatever becomes of the other
views, it ends as it does alone (`AlikeAt.comes`).
-/

namespace Stagehand

open Timed

variable {ω σ σ' τ τ' α β ι υ : Type}

namespace Timed

/-- The activities do the same in these states, and what the first one changes is `a`'s own. Nobody
does anything for them while they wait. -/
inductive AlikeAt (view : ι → ω → υ) (a : ι) (world : σ → ω) (E : σ → σ' → Prop) :
    σ → σ' → Timed σ α → Timed σ' α → Prop where
  | done {s : σ} {s' : σ'} (r : α) (rel : E s s') : AlikeAt view a world E s s' (done r) (done r)
  | broken {s : σ} {s' : σ'} (rel : E s s') : AlikeAt view a world E s s' broken broken
  | look {s : σ} {s' : σ'} {next : Nat → σ → Timed σ α} {next' : Nat → σ' → Timed σ' α}
      (goesOn : ∀ now, AlikeAt view a world E s s' (next now s) (next' now s')) :
      AlikeAt view a world E s s' (look next) (look next')
  | put {s t : σ} {s' t' : σ'} {next : Timed σ α} {next' : Timed σ' α}
      (spares : KeepsBut view [a] (world s) (world t)) (rel : E t t')
      (goesOn : AlikeAt view a world E t t' next next') :
      AlikeAt view a world E s s' (put t next) (put t' next')
  | pause {s : σ} {s' : σ'} {w : Waiting σ} {w' : Waiting σ'} {next : Timed σ α}
      {next' : Timed σ' α}
      (wake : w.wake = w'.wake) (idle : w.IsIdle) (idle' : w'.IsIdle)
      (abandoned : ∀ t t', E t t' →
        KeepsBut view [a] (world t) (world (w.abandoned t)) ∧ E (w.abandoned t) (w'.abandoned t'))
      (rel : E s s') (goesOn : ∀ t t', E t t' → AlikeAt view a world E t t' next next') :
      AlikeAt view a world E s s' (pause w next) (pause w' next')

section Rules

variable {view : ι → ω → υ} {a : ι} {world : σ → ω} {E : σ → σ' → Prop} {s : σ} {s' : σ'}

/-! ## Rules -/

theorem AlikeAt.andThen {x : Timed σ β} {y : Timed σ' β} {f : β → Timed σ α} {g : β → Timed σ' α}
    (h : AlikeAt view a world E s s' x y)
    (hf : ∀ b t t', E t t' → AlikeAt view a world E t t' (f b) (g b)) :
    AlikeAt view a world E s s' (x.andThen f) (y.andThen g) := by
  induction h with
  | done r rel => exact hf r _ _ rel
  | broken rel => exact .broken rel
  | look _ ih => exact .look ih
  | put spares rel _ ih => exact .put spares rel ih
  | pause wake idle idle' abandoned rel _ ih => exact .pause wake idle idle' abandoned rel ih

/-- What is cut is cut in both at once. -/
theorem AlikeAt.cutAt (limit : Nat) {x : Timed σ α} {y : Timed σ' α}
    (h : AlikeAt view a world E s s' x y) :
    AlikeAt view a world E s s' (x.cutAt limit) (y.cutAt limit) := by
  induction h with
  | done r rel => exact .done (some r) rel
  | broken rel => exact .broken rel
  | look _ ih => exact .look ih
  | put spares rel _ ih => exact .put spares rel ih
  | @pause _ _ w w' next next' wake idle idle' abandoned rel _ ih =>
    have hover : w.isOverBy limit = w'.isOverBy limit := by
      rw [Waiting.isOverBy, Waiting.isOverBy, wake]
    simp only [Timed.cutAt, hover]
    split
    · exact .pause wake idle idle' abandoned rel ih
    · refine .pause rfl idle idle' abandoned rel fun t t' ht => .look fun _ => ?_
      obtain ⟨hspares, hrel⟩ := abandoned t t' ht
      exact .put hspares hrel (.done none hrel)

/-- What is done when both are abandoned must keep to the view. -/
theorem AlikeAt.whenAbandoned {f : σ → σ} {g : σ' → σ'}
    (hf : ∀ t t', E t t' → KeepsBut view [a] (world t) (world (f t)) ∧ E (f t) (g t'))
    {x : Timed σ α}
    {y : Timed σ' α} (h : AlikeAt view a world E s s' x y) :
    AlikeAt view a world E s s' (x.whenAbandoned f) (y.whenAbandoned g) := by
  induction h with
  | done r rel => exact .done r rel
  | @broken s s' rel =>
    obtain ⟨hspares, hrel⟩ := hf s s' rel
    exact .look fun _ => .put hspares hrel (.broken hrel)
  | look _ ih => exact .look ih
  | put spares rel _ ih => exact .put spares rel ih
  | pause wake idle idle' abandoned rel _ ih =>
    refine .pause wake idle idle' (fun t t' ht => ?_) rel ih
    obtain ⟨hspares, hrel⟩ := abandoned t t' ht
    obtain ⟨hspares', hrel'⟩ := hf _ _ hrel
    exact ⟨hspares'.trans hspares, hrel'⟩

theorem alikeAt_hang (rel : E s s') :
    AlikeAt view a world E s s' (hang : Timed σ α) (hang : Timed σ' α) :=
  .pause rfl (fun _ _ => rfl) (fun _ _ => rfl) (fun t _ ht => ⟨.refl view [a] (world t), ht⟩) rel
    fun _ _ ht => .broken ht

/-- Activities that are alike on a part of the state are alike on the whole, which may be viewed in
another way. -/
theorem AlikeAt.onViewedPart {ω' υ' : Type} {view' : ι → ω' → υ'} {worldOf : τ → ω}
    {world' : σ → ω'} {E' : τ → τ' → Prop} {part : σ → τ} {setPart : τ → σ → σ} {part' : σ' → τ'}
    {setPart' : τ' → σ' → σ'} (hp : IsPart part setPart) (hp' : IsPart part' setPart')
    (hpart : ∀ s s', E s s' → E' (part s) (part' s'))
    (hset : ∀ s s' t t', E s s' → E' t t' → E (setPart t s) (setPart' t' s'))
    (hspares : ∀ s t, KeepsBut view [a] (worldOf (part s)) (worldOf t) →
      KeepsBut view' [a] (world' s) (world' (setPart t s)))
    {t : τ} {t' : τ'} {x : Timed τ α} {y : Timed τ' α} (h : AlikeAt view a worldOf E' t t' x y)
    (ht : part s = t) (ht' : part' s' = t') (hs : E s s') :
    AlikeAt view' a world' E s s' (x.onPart part setPart) (y.onPart part' setPart') := by
  induction h generalizing s s' with
  | done r => exact .done r hs
  | broken => exact .broken hs
  | look _ ih =>
    subst ht ht'
    exact .look fun now => ih now rfl rfl hs
  | @put _ u _ u' _ _ spares rel _ ih =>
    subst ht ht'
    have hrel : E (setPart u s) (setPart' u' s') := hset s s' u u' hs rel
    exact .look fun _ => .put (hspares s u spares) hrel
      (ih (hp.part_setPart u s) (hp'.part_setPart u' s') hrel)
  | @pause _ _ w w' _ _ wake idle idle' abandoned _ _ ih =>
    refine .pause wake (fun now s => ?_) (fun now s' => ?_) (fun s s' hs => ?_) hs
      fun s s' hs => ih _ _ (hpart s s' hs) rfl rfl hs
    · simp only [Waiting.onPart, idle now (part s), hp.setPart_part]
    · simp only [Waiting.onPart, idle' now (part' s'), hp'.setPart_part]
    · obtain ⟨hkeeps, hrel⟩ := abandoned _ _ (hpart s s' hs)
      exact ⟨hspares s _ hkeeps, hset s s' _ _ hs hrel⟩

/-- On a part of the state that holds the world, activities are alike as they are alone. -/
theorem AlikeAt.onPart {worldOf : τ → ω} {E' : τ → τ' → Prop} {part : σ → τ} {setPart : τ → σ → σ}
    {part' : σ' → τ'} {setPart' : τ' → σ' → σ'} (hp : IsPart part setPart)
    (hp' : IsPart part' setPart') (hpart : ∀ s s', E s s' → E' (part s) (part' s'))
    (hset : ∀ s s' t t', E s s' → E' t t' → E (setPart t s) (setPart' t' s'))
    {t : τ} {t' : τ'} {x : Timed τ α} {y : Timed τ' α} (h : AlikeAt view a worldOf E' t t' x y)
    (ht : part s = t) (ht' : part' s' = t') (hs : E s s') :
    AlikeAt view a (fun s => worldOf (part s)) E s s' (x.onPart part setPart)
      (y.onPart part' setPart') := by
  refine h.onViewedPart hp hp' hpart hset (fun s t hspares => ?_) ht ht' hs
  rwa [hp.part_setPart]

end Rules

/-! ## Being carried along -/

/-- How often an activity waits when it is run alone. -/
def turns : Timed σ α → Nat → σ → Nat
  | done _, _, _ | broken, _, _ => 0
  | look next, now, s => (next now s).turns now s
  | put s next, now, _ => next.turns now s
  | pause w next, now, s => next.turns (max now (w.wake.getD now)) s + 1

/-- In a run that comes to an end, every wait does. -/
theorem exists_wake_of_returns {w : Waiting σ} {next : Timed σ α} {now : Nat} {s : σ}
    (h : ((pause w next).runUnder none now s).ending ≠ .cut) : ∃ time, w.wake = some time := by
  obtain ⟨wake, meanwhile, abandoned⟩ := w
  cases wake with
  | none => exact absurd rfl h
  | some time => exact ⟨time, rfl⟩

/-- **Carried along by others, an activity comes to what it comes to alone**: from here on it takes
the turns, and the end, of the one that it is alike to. -/
theorem AlikeAt.comes {view : ι → ω → υ} {a : ι} {part : τ → ω} {setPart : ω → τ → τ}
    {E : τ → τ' → Prop} (hp : IsPart part setPart)
    (hE : ∀ t t' w, E t t' → view a w = view a (part t) → E (setPart w t) t') {s : τ} {s' : τ'}
    {x : Timed τ α} {y : Timed τ' α} (h : AlikeAt view a part E s s' x y) {now : Nat}
    (hreturns : (y.runUnder none now s').ending ≠ .cut) {own : τ}
    (hown : setPart (part s) own = s) :
    KeepsBut view [a] (part s) ((x.carrying part setPart own).toRest now (part s)).2 ∧
      Comes view [a] (fun e => e.Matches E (y.runUnder none now s')) (y.turns now s') now
        ((x.carrying part setPart own).toRest now (part s)).2
        ((x.carrying part setPart own).toRest now (part s)).1 := by
  induction h generalizing now own with
  | done r rel =>
    refine ⟨.refl view [a] _, .done ?_⟩
    rw [hown]
    exact .intro _ _ rel
  | broken rel =>
    refine ⟨.refl view [a] _, .done ?_⟩
    rw [hown]
    exact .intro _ _ rel
  | look _ ih =>
    simp only [carrying, toRest, hown]
    exact ih now hreturns (hp.setPart_part _)
  | put spares _ _ ih =>
    obtain ⟨hspares, hcomes⟩ := ih hreturns (hp.setPart_part _)
    exact ⟨hspares.trans spares, hcomes⟩
  | @pause s s' w w' next next' wake idle idle' _ rel _ ih =>
    refine ⟨.refl view [a] _, ?_⟩
    obtain ⟨time, htime⟩ := exists_wake_of_returns hreturns
    rw [runUnder_pause_of_isIdle htime idle'] at hreturns ⊢
    have hturns : (Timed.pause w' next').turns now s' = next'.turns (max now time) s' + 1 := by
      rw [turns, htime, Option.getD_some]
    rw [hturns]
    -- Others may have changed the world, but not the view of `a`.
    have hnext : ∀ u, Keeps view [a] (part s) u →
        KeepsBut view [a] u ((next.carrying part setPart own).toRest (max now time) u).2 ∧
          Comes view [a] (fun e => e.Matches E (next'.runUnder none (max now time) s'))
            (next'.turns (max now time) s') (max now time)
            ((next.carrying part setPart own).toRest (max now time) u).2
            ((next.carrying part setPart own).toRest (max now time) u).1 := by
      intro u hu
      have hrel : E (setPart u own) s' := by
        have hset := hE s s' u rel (hu a List.mem_cons_self)
        rwa [← hown, hp.setPart_setPart] at hset
      have hpart : part (setPart u own) = u := hp.part_setPart u own
      have hcomes := ih _ _ hrel hreturns (by rw [hpart] : setPart (part (setPart u own)) own = _)
      rwa [hpart] at hcomes
    refine .pause (wake.trans htime) (fun now u => ?_) (fun u hu => (hnext u hu).1)
      fun u hu => (hnext u hu).2
    show part (w.meanwhile now (setPart u own)) = u
    rw [idle, hp.part_setPart]

end Timed

end Stagehand

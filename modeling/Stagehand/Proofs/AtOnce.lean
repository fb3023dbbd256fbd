import Stagehand.Command.Executor
import Stagehand.Proofs.Timed

/-!
# Two activities that end at once

`AtOnce E x y Q` compares two activities that take no time. Started in states that `E` relates, both
end by themselves without a wait, and `Q` tells how their answers and the states that they leave are
related. The answers need not be the same: two activities may do the same with different things.

Of two activities that may refuse, `Agree Q E` asks that both do or neither does, for
the same reason.
-/

namespace Stagehand

variable {σ τ α α' β β' : Type}

namespace Timed

/-- Started in states that `E` relates, both end at once, as `Q` says. -/
def AtOnce (E : σ → τ → Prop) (x : Timed σ α) (y : Timed τ β) (Q : α → β → σ → τ → Prop) : Prop :=
  ∀ deadline now s t, meets now deadline → E s t → ∃ a b s' t',
    x.runUnder deadline now s = ⟨.done a, now, s'⟩ ∧
      y.runUnder deadline now t = ⟨.done b, now, t'⟩ ∧ Q a b s' t'

/-- Both succeed, as `Q` says, or both refuse for the same reason, in states that `E` relates. -/
inductive Agree (Q : α → β → σ → τ → Prop) (E : σ → τ → Prop) :
    RunResult α → RunResult β → σ → τ → Prop where
  | ok {a : α} {b : β} {s : σ} {t : τ} (h : Q a b s t) : Agree Q E (.ok a) (.ok b) s t
  | error (err : RunError) {s : σ} {t : τ} (h : E s t) : Agree Q E (.error err) (.error err) s t

variable {E E' : σ → τ → Prop} {x : Timed σ α} {y : Timed τ α'} {F : α → α' → σ → τ → Prop}
  {Q : β → β' → σ → τ → Prop}

theorem AtOnce.mono {F' : α → α' → σ → τ → Prop} (h : AtOnce E x y F)
    (hF : ∀ a b s t, F a b s t → F' a b s t) : AtOnce E x y F' := by
  intro deadline now s t hd hs
  obtain ⟨a, b, s', t', hx, hy, hab⟩ := h deadline now s t hd hs
  exact ⟨a, b, s', t', hx, hy, hF a b s' t' hab⟩

theorem AtOnce.of_imp (h : AtOnce E x y F) (hE : ∀ s t, E' s t → E s t) : AtOnce E' x y F :=
  fun deadline now s t hd hs => h deadline now s t hd (hE s t hs)

theorem atOnce_of_and {p : Prop} (h : p → AtOnce E x y F) : AtOnce (fun s t => p ∧ E s t) x y F :=
  fun deadline now s t hd hs => h hs.1 deadline now s t hd hs.2

theorem atOnce_pure {a : α} {b : α'} (h : ∀ s t, E s t → F a b s t) :
    AtOnce E (pure a) (pure b) F :=
  fun _ _ s t _ hs => ⟨a, b, s, t, rfl, rfl, h s t hs⟩

theorem atOnce_bind {f : α → Timed σ β} {g : α' → Timed τ β'} (hx : AtOnce E x y F)
    (hf : ∀ a b, AtOnce (F a b) (f a) (g b) Q) : AtOnce E (x >>= f) (y >>= g) Q := by
  intro deadline now s t hd hs
  obtain ⟨a, b, s', t', hrun, hrun', hab⟩ := hx deadline now s t hd hs
  rw [runUnder_bind, runUnder_bind, hrun, hrun']
  exact hf a b deadline now s' t' hd hab

theorem atOnce_whenAbandoned (cleanup : σ → σ) (cleanup' : τ → τ) (h : AtOnce E x y F) :
    AtOnce E (x.whenAbandoned cleanup) (y.whenAbandoned cleanup') F := by
  intro deadline now s t hd hs
  obtain ⟨a, b, s', t', hx, hy, hab⟩ := h deadline now s t hd hs
  refine ⟨a, b, s', t', ?_, ?_, hab⟩
  · rw [runUnder_whenAbandoned, hx]
  · rw [runUnder_whenAbandoned, hy]

theorem atOnce_look {τ τ' : Type} {E : Host τ → Host τ' → Prop}
    {F : α → α' → Host τ → Host τ' → Prop} {find : FileTree → List String → α}
    {find' : FileTree → List String → α'}
    (h : ∀ s t, E s t → F (find s.files s.cwd) (find' t.files t.cwd) s t) :
    AtOnce E (Host.look find) (Host.look find') F :=
  fun _ _ s t _ hs => ⟨find s.files s.cwd, find' t.files t.cwd, s, t, rfl, rfl, h s t hs⟩

/-! ## Steps that may refuse -/

theorem atOnce_onSuccess {x : Timed σ (RunResult α)} {y : Timed τ (RunResult α')}
    {f : α → Timed σ (RunResult β)} {g : α' → Timed τ (RunResult β')}
    (hx : AtOnce E x y (Agree F E')) (hf : ∀ a b, AtOnce (F a b) (f a) (g b) (Agree Q E')) :
    AtOnce E (x.onSuccess f) (y.onSuccess g) (Agree Q E') := by
  refine atOnce_bind hx fun result result' deadline now s t hd hs => ?_
  cases hs with
  | ok hab => exact hf _ _ deadline now s t hd hab
  | error err hs => exact ⟨_, _, s, t, rfl, rfl, .error err hs⟩

theorem atOnce_forget {F' : σ → τ → Prop} {x : Timed σ (RunResult α)} {y : Timed τ (RunResult α')}
    (h : AtOnce E x y (Agree F E')) (hF : ∀ a b s t, F a b s t → F' s t) :
    AtOnce E x.forget y.forget (Agree (fun _ _ => F') E') :=
  atOnce_onSuccess h fun a b => atOnce_pure fun s t hab => .ok (hF a b s t hab)

theorem Agree.mono {F' : α → α' → σ → τ → Prop} {result : RunResult α} {result' : RunResult α'}
    {s : σ} {t : τ} (h : Agree F E result result' s t)
    (hF : ∀ a b s t, F a b s t → F' a b s t) : Agree F' E result result' s t := by
  cases h with
  | ok hab => exact .ok (hF _ _ _ _ hab)
  | error err hs => exact .error err hs

theorem Agree.refl (result : RunResult Unit) {s : σ} {t : τ} (h : E s t) :
    Agree (fun _ _ => E) E result result s t := by
  cases result with
  | ok => exact .ok h
  | error err => exact .error err h

/-- Steps that agree on what they answer answer the same. -/
theorem AtOnce.same {x : Timed σ (RunResult α)} {y : Timed τ (RunResult α)}
    (h : AtOnce E x y (Agree (fun a b s t => a = b ∧ E' s t) E')) :
    AtOnce E x y fun result result' s t => result = result' ∧ E' s t := by
  refine h.mono fun result result' s t hs => ?_
  cases hs with
  | ok hab => exact ⟨congrArg Except.ok hab.1, hab.2⟩
  | error err hs => exact ⟨rfl, hs⟩

end Timed

end Stagehand

/-!
# Routines

A routine is one of several that take turns on a common state. It is held step by step, as what it
does next: it has ended, it looks at the time and the state, it changes the state, or it waits, for
a time or for the state to be as it needs it. It goes on without a break until it waits.
-/

namespace Stagehand.Shell

/-- A routine on a state. -/
inductive Routine (σ : Type) where
  | done
  | look (next : Nat → σ → Routine σ)
  | put (s : σ) (next : Routine σ)
  /-- Waits until a time, if there is one, or until the state is ready. -/
  | await (wake : Option Nat) (ready : σ → Bool) (next : Routine σ)

namespace Routine

variable {σ : Type}

/-- Goes on until it waits or ends. -/
def advance : Routine σ → Nat → σ → Routine σ × σ
  | look next, now, s => (next now s).advance now s
  | put s next, now, _ => next.advance now s
  | x, _, s => (x, s)

/-- It need not wait any longer. -/
def isReady (now : Nat) (s : σ) : Routine σ → Bool
  | await wake ready _ => wake.any (· ≤ now) || ready s
  | _ => true

/-- The time that it waits for. -/
def wake? : Routine σ → Option Nat
  | await wake _ _ => wake
  | _ => none

/-- A turn of a routine that need not wait. -/
def turn (now : Nat) (s : σ) : Routine σ → Routine σ × σ
  | await _ _ next => next.advance now s
  | x => x.advance now s

end Routine

/-! ## Parts of routines -/

/-- A part of a routine that comes to an answer: what follows the answer makes it a routine. -/
def Course (σ α : Type) : Type := (α → Routine σ) → Routine σ

namespace Course

variable {σ α : Type}

instance : Monad (Course σ) where
  pure a := fun next => next a
  bind x f := fun next => x fun a => f a next

instance : LawfulMonad (Course σ) :=
  LawfulMonad.mk' _ (fun _ => rfl) (fun _ _ => rfl) (fun _ _ _ => rfl)

/-- The routine of a part that nothing follows. -/
def routine (x : Course σ α) : Routine σ := x fun _ => .done

def get : Course σ σ := fun next => .look fun _ s => next s

def modify (f : σ → σ) : Course σ Unit := fun next => .look fun _ s => .put (f s) (next ())

def awaitState (ready : σ → Bool) : Course σ Unit :=
  fun next => .look fun _ s => if ready s then next () else .await none ready (next ())

def pause (span : Nat) : Course σ Unit :=
  fun next => .look fun now _ => .await (some (now + span)) (fun _ => false) (next ())

def hang : Course σ α := fun _ => .await none (fun _ => false) .done

end Course

end Stagehand.Shell

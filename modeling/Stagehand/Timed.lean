/-!
# Activities in time

An activity works on a state and takes time, counted in milliseconds from the start of a run. It
is held step by step, as what it does next: it has ended, it has broken down, it looks at the
time and the state, it changes the state, or it waits. So it can be cut while it waits, and
others can go on meanwhile.

**Deadlines.** `within limit body` cuts `body` if it is still waiting at its limit; what it did
before stays done. An activity that is due exactly at its limit ends by itself, and goes on until it
has to wait again. Of nested limits the nearer one cuts; if both are due at once the inner one does,
and the activity goes on without its body.

**Breaking.** An activity may break down; nothing after it is done, up to whoever awaits the whole.

**Side by side.** `beside x y` runs two activities on one state. Time passes when both wait; at one
time the first goes on before the second.

Main statements: `runUnder_andThen` and `runUnder_within` tell how a sequence and a limited body run
under a deadline.
-/

namespace Stagehand

/-! ## Waiting -/

/-- What is told about waiting. -/
structure Waiting (σ : Type) where
  /-- When it is over; without a time it never is. -/
  wake : Option Nat
  /-- What others do with the state before time passes. -/
  meanwhile : Nat → σ → σ := fun _ s => s
  /-- What becomes of the state if whoever waits is abandoned. -/
  abandoned : σ → σ := fun s => s

namespace Waiting

variable {σ τ : Type}

/-- It is over at this time, or before. -/
def isOverBy (w : Waiting σ) (time : Nat) : Bool := w.wake.any (· ≤ time)

/-- Waits until this time at the latest. -/
def atMost (w : Waiting σ) (time : Nat) : Waiting σ := { w with wake := some time }

/-- It is over before other waiting, or together with it. -/
def isFirst (w v : Waiting σ) : Bool := v.wake.all w.isOverBy

/-- Waits while others wait too. -/
def amid (w v : Waiting σ) : Waiting σ where
  wake := w.wake
  meanwhile := fun now s => v.meanwhile now (w.meanwhile now s)
  abandoned := fun s => v.abandoned (w.abandoned s)

/-- Waiting that is told about a part of the state. -/
def onPart (part : σ → τ) (setPart : τ → σ → σ) (w : Waiting τ) : Waiting σ where
  wake := w.wake
  meanwhile := fun now s => setPart (w.meanwhile now (part s)) s
  abandoned := fun s => setPart (w.abandoned (part s)) s

end Waiting

/-! ## Activities -/

/-- An activity on a state. -/
inductive Timed (σ α : Type) where
  | done (a : α)
  | broken
  | look (next : Nat → σ → Timed σ α)
  | put (s : σ) (next : Timed σ α)
  | pause (w : Waiting σ) (next : Timed σ α)

inductive Ending (α : Type) where
  /-- It ended by itself. -/
  | done (a : α)
  /-- It was still waiting at its deadline; without a deadline, it waits forever. -/
  | cut
  /-- It broke down. -/
  | broken
  deriving Repr

/-- An ended activity: how, when and in which state. -/
structure Ended (σ α : Type) where
  ending : Ending α
  time : Nat
  state : σ

namespace Timed

variable {σ τ α β : Type}

/-! ## Sequencing -/

/-- Goes on with `f` when `x` has ended by itself. -/
def andThen (x : Timed σ α) (f : α → Timed σ β) : Timed σ β :=
  match x with
  | done a => f a
  | broken => broken
  | look next => look fun now s => (next now s).andThen f
  | put s next => put s (next.andThen f)
  | pause w next => pause w (next.andThen f)

instance : Monad (Timed σ) where
  pure := done
  bind := andThen

/-- The answer of an activity, changed. -/
def mapAnswer (f : α → β) (x : Timed σ α) : Timed σ β := x.andThen fun a => done (f a)

/-! ## Time and state -/

def now : Timed σ Nat := look fun now _ => done now

def get : Timed σ σ := look fun _ s => done s

def modify (f : σ → σ) : Timed σ Unit := look fun _ s => put (f s) (done ())

/-- Takes an answer out of the state and changes it. -/
def modifyGet (f : σ → α × σ) : Timed σ α := look fun _ s =>
  let (a, s) := f s
  put s (done a)

/-- Breaks down. -/
def fail : Timed σ α := broken

/-! ## Waiting -/

/-- Waits some milliseconds. Before time passes, `meanwhile` tells what others do with the state. -/
def waitWhile (meanwhile : Nat → σ → σ) (millis : Nat) : Timed σ Unit :=
  look fun now _ => pause { wake := some (now + millis), meanwhile } (done ())

def wait (millis : Nat) : Timed σ Unit := waitWhile (fun _ s => s) millis

/-- Never ends by itself. -/
def hang : Timed σ α := pause { wake := none } broken

/-! ## Deadlines -/

/-- Cuts an activity at a time; no answer if it is cut. -/
def cutAt (limit : Nat) : Timed σ α → Timed σ (Option α)
  | done a => done (some a)
  | broken => broken
  | look next => look fun now s => (next now s).cutAt limit
  | put s next => put s (next.cutAt limit)
  | pause w next =>
    if w.isOverBy limit then pause w (next.cutAt limit)
    else pause (w.atMost limit) (look fun _ s => put (w.abandoned s) (done none))

/-- Gives `body` some milliseconds; no answer if it needs more. -/
def within (millis : Nat) (body : Timed σ α) : Timed σ (Option α) :=
  look fun now _ => body.cutAt (now + millis)

/-- Does something to the state when `body` does not end by itself. -/
def whenAbandoned (cleanup : σ → σ) : Timed σ α → Timed σ α
  | done a => done a
  | broken => look fun _ s => put (cleanup s) broken
  | look next => look fun now s => (next now s).whenAbandoned cleanup
  | put s next => put s (next.whenAbandoned cleanup)
  | pause w next =>
    pause { w with abandoned := fun s => cleanup (w.abandoned s) } (next.whenAbandoned cleanup)

/-! ## Parts of a state -/

/-- An activity on a part of the state. -/
def onPart (part : σ → τ) (setPart : τ → σ → σ) : Timed τ α → Timed σ α
  | done a => done a
  | broken => broken
  | look next => look fun now s => (next now (part s)).onPart part setPart
  | put t next => look fun _ s => put (setPart t s) (next.onPart part setPart)
  | pause w next => pause (w.onPart part setPart) (next.onPart part setPart)

/-- An activity on a shared part of its state, which carries the rest along itself. Answers how it
ended. -/
def carrying (part : τ → σ) (setPart : σ → τ → τ) : Timed τ α → τ → Timed σ (Ended τ α)
  | done a, own => look fun now s => done ⟨.done a, now, setPart s own⟩
  | broken, own => look fun now s => done ⟨.broken, now, setPart s own⟩
  | look next, own =>
    look fun now s => (next now (setPart s own)).carrying part setPart (setPart s own)
  | put own next, _ => put (part own) (next.carrying part setPart own)
  | pause w next, own =>
    pause (w.onPart (setPart · own) fun t _ => part t) (next.carrying part setPart own)

/-! ## Side by side -/

/-- An activity that answers nothing if it breaks down. -/
def attempt : Timed σ α → Timed σ (Option α)
  | done a => done (some a)
  | broken => done none
  | look next => look fun now s => (next now s).attempt
  | put s next => put s next.attempt
  | pause w next => pause w next.attempt

/-- Goes on with an activity while another one waits. `rest` is what the other one does afterwards,
alone or beside what is left of this one. -/
def besideWaiting (w : Waiting σ) (alone : Timed σ (Option α))
    (rest : Timed σ β → Timed σ (Option α × Option β)) :
    Timed σ β → Timed σ (Option α × Option β)
  | done b => pause w (alone.mapAnswer (·, some b))
  | broken => pause w (alone.mapAnswer (·, none))
  | look next => look fun now s => besideWaiting w alone rest (next now s)
  | put s next => put s (besideWaiting w alone rest next)
  | pause v next =>
    if w.isFirst v then pause (w.amid v) (rest (pause v next))
    else pause (v.amid w) (besideWaiting w alone rest next)

/-- Runs two activities side by side; one that breaks down has no answer. -/
def beside : Timed σ α → Timed σ β → Timed σ (Option α × Option β)
  | done a, y => y.attempt.mapAnswer (some a, ·)
  | broken, y => y.attempt.mapAnswer (none, ·)
  | look next, y => look fun now s => (next now s).beside y
  | put s next, y => put s (next.beside y)
  | pause w next, y => besideWaiting w next.attempt (beside next) y

/-- Runs activities side by side. -/
def together : List (Timed σ α) → Timed σ (List (Option α))
  | [] => done []
  | x :: rest => (x.beside (together rest)).mapAnswer fun r => r.1 :: r.2.getD []

/-! ## Running -/

/-- A time is not past a deadline. -/
def meets (time : Nat) : Option Nat → Bool
  | none => true
  | some deadline => time ≤ deadline

/-- Runs an activity from a time on, up to a deadline. -/
def runUnder : Timed σ α → Option Nat → Nat → σ → Ended σ α
  | done a, _, now, s => ⟨.done a, now, s⟩
  | broken, _, now, s => ⟨.broken, now, s⟩
  | look next, deadline, now, s => (next now s).runUnder deadline now s
  | put s next, deadline, now, _ => next.runUnder deadline now s
  | pause w next, deadline, now, s =>
    let stop := deadline.getD now
    let cut : Ended σ α := ⟨.cut, stop, w.abandoned (if now < stop then w.meanwhile now s else s)⟩
    match w.wake with
    | some time =>
      if time ≤ now then next.runUnder deadline now s
      else if meets time deadline then next.runUnder deadline time (w.meanwhile now s)
      else cut
    | none => cut

/-- Runs an activity from the start of time, without a deadline. -/
def run (x : Timed σ α) (s : σ) : Ended σ α := x.runUnder none 0 s

/-- A sequence runs its second part from where the first one ended by itself. -/
theorem runUnder_andThen (x : Timed σ α) (f : α → Timed σ β) (deadline : Option Nat)
    (now : Nat) (s : σ) :
    (x.andThen f).runUnder deadline now s =
      match x.runUnder deadline now s with
      | ⟨.done a, now, s⟩ => (f a).runUnder deadline now s
      | ⟨.cut, now, s⟩ => ⟨.cut, now, s⟩
      | ⟨.broken, now, s⟩ => ⟨.broken, now, s⟩ := by
  induction x generalizing now s with
  | done a => rfl
  | broken => rfl
  | look next ih => exact ih now s now s
  | put t next ih => exact ih now t
  | pause w next ih =>
    simp only [andThen, runUnder]
    split
    · split
      · exact ih now s
      · split
        · exact ih _ _
        · rfl
    · rfl

/-- The nearer of two deadlines. -/
def nearer (time : Nat) : Option Nat → Nat
  | none => time
  | some deadline => min time deadline

/-- What the end of a body under the nearer of two deadlines means for whoever set the limit. -/
def limited (limit : Nat) (deadline : Option Nat) : Ended σ α → Ended σ (Option α)
  | ⟨.done a, now, s⟩ => ⟨.done (some a), now, s⟩
  | ⟨.broken, now, s⟩ => ⟨.broken, now, s⟩
  | ⟨.cut, stop, s⟩ => if meets limit deadline then ⟨.done none, stop, s⟩ else ⟨.cut, stop, s⟩

/-- Cutting an activity is running it under the nearer of two deadlines. -/
theorem runUnder_cutAt (limit : Nat) (x : Timed σ α) (deadline : Option Nat) (now : Nat) (s : σ)
    (hl : now ≤ limit) (hd : meets now deadline) :
    (x.cutAt limit).runUnder deadline now s =
      limited limit deadline (x.runUnder (some (nearer limit deadline)) now s) := by
  induction x generalizing now s with
  | done a => rfl
  | broken => rfl
  | look next ih => exact ih now s now s hl hd
  | put t next ih => exact ih now t hl hd
  | pause w next ih =>
    obtain ⟨wake, meanwhile, abandoned⟩ := w
    -- Waiting beyond the limit is a cut, at whichever of the two deadlines is nearer.
    have late : (pause (⟨some limit, meanwhile, abandoned⟩ : Waiting σ)
          (look fun _ s => put (abandoned s) (done (none : Option α)))).runUnder deadline now s =
        limited limit deadline
          ⟨.cut, nearer limit deadline,
            abandoned (if now < nearer limit deadline then meanwhile now s else s)⟩ := by
      cases deadline <;> grind [runUnder, limited, nearer, meets]
    cases wake with
    | none =>
      simpa [cutAt, Waiting.isOverBy, Waiting.atMost, runUnder] using late
    | some t =>
      by_cases h : t ≤ limit
      · have hm : ∀ d, meets t (some (nearer limit d)) = meets t d := by
          intro d
          cases d <;> grind [meets, nearer]
        simp only [cutAt, Waiting.isOverBy, Option.any_some, h, decide_true, if_true, runUnder, hm]
        split
        · exact ih now s hl hd
        · split
          · exact ih t _ h (by assumption)
          · cases deadline <;> grind [limited, nearer, meets]
      · have hn : ¬ t ≤ now := by omega
        have hm : meets t (some (nearer limit deadline)) = false := by
          cases deadline <;> grind [meets, nearer]
        simp only [cutAt, Waiting.isOverBy, Option.any_some, h, decide_false,
          Bool.false_eq_true, if_false, Waiting.atMost]
        rw [late]
        simp [runUnder, hn, hm]

/-- A limited body runs under the nearer of its own deadline and the one that is there. -/
theorem runUnder_within (millis : Nat) (x : Timed σ α) (deadline : Option Nat) (now : Nat) (s : σ)
    (hd : meets now deadline) :
    (within millis x).runUnder deadline now s =
      limited (now + millis) deadline
        (x.runUnder (some (nearer (now + millis) deadline)) now s) :=
  runUnder_cutAt (now + millis) x deadline now s (Nat.le_add_right _ _) hd

end Timed

end Stagehand

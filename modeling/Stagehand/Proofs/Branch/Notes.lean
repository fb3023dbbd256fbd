import Stagehand.Branch.Sequence
import Stagehand.Proofs.Timed
import Stagehand.Rehearsal.Collaborators

/-!
# Watching collaborators

`c.noted` are the collaborators `c` with an observer beside them, who keeps a list of notes: which
step was called and with what, and how that ended. A step that is given a limit may end in three
ways: it returns, its own limit passes, or it is dropped before that because the whole branch is
cut. The observer tells the last two apart by giving the step the same limit on his own account;
he looks first, and then leaves it to whoever set the limit to go on without the step.

Main result: `reaches_bounded_noting`, what is noted of a call within a limit.
-/

namespace Stagehand

open Rehearsal (Call CallNote)

/-! ## Notes -/

/-- What is noted of a call. Times are in milliseconds. -/
inductive Note where
  | called (call : CallNote)
  /-- It came back; only the creation of a runner answers an address. -/
  | returned (call : Call) (answer : RunResult (Option Network.Address)) (time : Nat)
  /-- It was still waiting at its own limit. -/
  | expired (call : Call) (time : Nat)
  /-- It was still waiting when the branch was cut. -/
  | dropped (call : Call)

/-- A world with the notes of an observer. -/
structure Noted (ω : Type) where
  world : ω
  notes : List Note := []

namespace Noted

variable {ω α : Type}

/-- One more note. -/
def add (n : Note) (w : Noted ω) : Noted ω := { w with notes := w.notes ++ [n] }

/-- Takes a note. -/
def write (n : Note) : Timed (Noted ω) Unit := Timed.modify (add n)

/-- Does something that the observer does not see. -/
def unseen (x : Timed ω α) : Timed (Noted ω) α := x.onPart (·.world) fun world w => { w with world }

/-- Notes that the limit of a call passed without an answer; to go on is left to the caller. -/
def await (call : Call) : Option α → Timed (Noted ω) α
  | some a => pure a
  | none => do
    let time ← Timed.now
    write (.expired call time)
    Timed.hang

/-- Watches a step until it ends or its limit, in seconds, passes. -/
def watch (call : Call) (body : Timed ω α) : Option Nat → Timed (Noted ω) α
  | none => unseen body
  | some limit => do
    let answer ← (Timed.within (limit * 1000) (unseen body)).whenAbandoned (add (.dropped call))
    await call answer

/-- Notes a call, and how it ends. -/
def noting (call : Call) (ctx : BranchContext) (note : CallNote → CallNote)
    (address : α → Option Network.Address) (body : Timed ω (RunResult α)) :
    Timed (Noted ω) (RunResult α) := do
  let time ← Timed.now
  let n := note { call, time, context := ctx }
  write (.called n)
  let result ← watch call body n.limit
  let time ← Timed.now
  write (.returned call (result.map address) time)
  pure result

end Noted

namespace Collaborators

variable {ω : Type}

/-- The collaborators, observed. -/
def noted (c : Collaborators ω) : Collaborators (Noted ω) where
  checkout ctx := Noted.noting .checkout ctx id (fun _ => none) (c.checkout ctx)
  createRunner ctx limit :=
    Noted.noting .createRunner ctx (fun n => { n with limit := some limit }) some
      (c.createRunner ctx limit)
  runTest ctx target limit :=
    Noted.noting .runTest ctx (fun n => { n with limit := some limit, target := some target })
      (fun _ => none) (c.runTest ctx target limit)
  collectLogs ctx target limit :=
    Noted.noting .collectLogs ctx (fun n => { n with limit := some limit, target := some target })
      (fun _ => none) (c.collectLogs ctx target limit)
  cleanResources ctx target limit :=
    Noted.noting .cleanResources ctx
      (fun n => { n with limit := some limit, target := some target })
      (fun _ => none) (c.cleanResources ctx target limit)
  sendEmail ctx build limit :=
    Noted.noting .sendEmail ctx (fun n => { n with limit := some limit, build := some build })
      (fun _ => none) (c.sendEmail ctx build limit)
  copyArtifacts ctx target destination :=
    Noted.noting .copyArtifacts ctx
      (fun n => { n with target := some target, destination := some destination })
      (fun _ => none) (c.copyArtifacts ctx target destination)

/-- No step breaks down, and checkout, which has no limit, comes to an end. Any other step may take
any time, or never end. -/
structure Dependable (c : Collaborators ω) : Prop where
  checkout : ∀ ctx, (c.checkout ctx).Finishes
  createRunner : ∀ ctx limit, (c.createRunner ctx limit).Unbroken
  runTest : ∀ ctx target limit, (c.runTest ctx target limit).Unbroken
  collectLogs : ∀ ctx target limit, (c.collectLogs ctx target limit).Unbroken
  cleanResources : ∀ ctx target limit, (c.cleanResources ctx target limit).Unbroken
  sendEmail : ∀ ctx build limit, (c.sendEmail ctx build limit).Unbroken
  copyArtifacts : ∀ ctx target destination, (c.copyArtifacts ctx target destination).Unbroken

/-- No step breaks down. Any step may take any time, or never end; so may checkout. -/
structure Unbreaking (c : Collaborators ω) : Prop where
  checkout : ∀ ctx, (c.checkout ctx).Unbroken
  createRunner : ∀ ctx limit, (c.createRunner ctx limit).Unbroken
  runTest : ∀ ctx target limit, (c.runTest ctx target limit).Unbroken
  collectLogs : ∀ ctx target limit, (c.collectLogs ctx target limit).Unbroken
  cleanResources : ∀ ctx target limit, (c.cleanResources ctx target limit).Unbroken
  sendEmail : ∀ ctx build limit, (c.sendEmail ctx build limit).Unbroken
  copyArtifacts : ∀ ctx target destination, (c.copyArtifacts ctx target destination).Unbroken

theorem Dependable.unbreaking {c : Collaborators ω} (h : c.Dependable) : c.Unbreaking where
  checkout ctx := (h.checkout ctx).unbroken
  createRunner := h.createRunner
  runTest := h.runTest
  collectLogs := h.collectLogs
  cleanResources := h.cleanResources
  sendEmail := h.sendEmail
  copyArtifacts := h.copyArtifacts

end Collaborators

/-! ## Rehearsals -/

namespace Rehearsal

theorem reaches_answer {α : Type} {script : List CallRule} {deadline : Option Nat} {now : Nat}
    {notes : List CallNote} (h : ∀ rule ∈ script, rule.response.breaks = false) (call : Call)
    (ctx : BranchContext) (note : CallNote → CallNote) (value : Response → α) :
    (answer script call ctx note value).Reaches deadline now notes (fun _ _ _ => True)
      fun _ _ => deadline ≠ none := by
  have hbreaks : (responseTo script call ctx.axis).breaks = false := by
    unfold responseTo
    split
    · exact h _ (List.mem_of_find?_eq_some (by assumption))
    · rfl
  have hwait : ∀ wait, if wait = 0 then True
      else if Timed.meets (now + wait) deadline then True else deadline ≠ none := by
    intro wait
    split
    · trivial
    · split
      · trivial
      · rintro rfl
        exact absurd rfl (by assumption)
  cases herror : (responseTo script call ctx.axis).error <;>
    simpa only [answer, hbreaks, herror, Bool.false_eq_true, if_false, Timed.reaches_bind,
      Timed.reaches_now, Timed.reaches_modify, Timed.reaches_wait, Timed.reaches_pure] using hwait _

/-- Rehearsed collaborators are dependable if no rule makes them break down. -/
theorem dependable_collaborators {script : List CallRule}
    (h : ∀ rule ∈ script, rule.response.breaks = false) : (collaborators script).Dependable := by
  have hunbroken : ∀ {α : Type} (call : Call) (ctx : BranchContext) (note : CallNote → CallNote)
      (value : Response → α), (answer script call ctx note value).Unbroken :=
    fun call ctx note value => Timed.unbroken_of_reaches fun _ _ _ =>
      (reaches_answer h call ctx note value).mono (fun _ _ _ h => h) fun _ _ _ => trivial
  constructor
  case checkout =>
    refine fun ctx => Timed.finishes_of_reaches fun _ _ => ?_
    dsimp only [collaborators]
    exact (reaches_answer h _ ctx _ _).mono (fun _ _ _ h => h) fun _ _ h => h rfl
  all_goals
    intros
    dsimp only [collaborators]
    exact hunbroken _ _ _ _

end Rehearsal

/-! ## Endings of calls -/

/-- How a call within a limit ended, if it was not dropped. -/
inductive CallEnding where
  | returned (answer : RunResult (Option Network.Address))
  | expired

namespace CallEnding

/-- What is noted of the end. -/
def note (call : Call) (time : Nat) : CallEnding → Note
  | returned answer => .returned call answer time
  | expired => .expired call time

/-- What is noted of the end of a call that was given no limit: its return, if it came. -/
def returnNotes (call : Call) (time : Nat) : CallEnding → List Note
  | returned answer => [.returned call answer time]
  | expired => []

/-- What the end means for the step that called. -/
def result (step : String) (limit : Nat) : CallEnding → RunResult (Option Network.Address)
  | returned answer => answer
  | expired => .error (.timeout step limit)

end CallEnding

/-! ## What is noted -/

section Rules

open Timed

variable {ω α : Type} {deadline : Option Nat} {now : Nat}

theorem reaches_bounded {w : ω} {Q : RunResult α → Nat → ω → Prop} {C : Nat → ω → Prop}
    (step : String) (limit : Nat) (body : Timed ω (RunResult α)) (hd : meets now deadline) :
    (bounded step limit body).Reaches deadline now w Q C ↔
      body.Reaches (some (nearer (now + limit * 1000) deadline)) now w Q fun time w =>
        if meets (now + limit * 1000) deadline then Q (.error (.timeout step limit)) time w
        else C time w := by
  rw [bounded, reaches_bind, reaches_within _ _ hd]
  simp only [reaches_pure]

theorem Noted.isPart_world : IsPart (Noted.world (ω := ω)) fun world w => { w with world } :=
  ⟨fun _ _ => rfl, fun _ => rfl, fun _ _ _ => rfl⟩

variable {w : Noted ω} {Q : RunResult α → Nat → Noted ω → Prop} {C : Nat → Noted ω → Prop}

/-- A call without any limit is noted, and so is its return; or it is waited for without end. -/
theorem reaches_noting_of_unbroken {call : Call} {ctx : BranchContext} {note : CallNote → CallNote}
    {address : α → Option Network.Address} {body : Timed ω (RunResult α)} (hbody : body.Unbroken)
    (hlimit : (note { call, time := now, context := ctx }).limit = none)
    (hQ : ∀ r time world,
      Q r time ⟨world, w.notes ++ [.called (note { call, time := now, context := ctx }),
        .returned call (r.map address) time]⟩)
    (hC : ∀ time world, (body.runUnder none now w.world).ending = .cut →
      C time ⟨world, w.notes ++ [.called (note { call, time := now, context := ctx })]⟩) :
    (Noted.noting call ctx note address body).Reaches none now w Q C := by
  simp only [Noted.noting, Noted.write, Noted.watch, Noted.unseen, hlimit, reaches_bind,
    reaches_now, reaches_modify, reaches_onPart Noted.isPart_world, reaches_pure]
  refine hbody.reaches_run.mono (fun r time world _ => ?_) fun time world h => ?_
  · simpa [Noted.add] using hQ r time world
  · exact hC time world (congrArg Ended.ending h)

/-- A call that is given no limit, but is bounded by its caller: its return is noted, or nothing. -/
theorem reaches_bounded_noting_unlimited (call : Call) (note : CallNote → CallNote)
    (address : α → Option Network.Address) {ctx : BranchContext} {body : Timed ω (RunResult α)}
    {step : String} {limit : Nat} {n : CallNote} (hbody : body.Unbroken)
    (hnote : note { call, time := now, context := ctx } = n) (hlimit : n.limit = none)
    (hQ : ∀ (ending : CallEnding) r time world, now ≤ time → time ≤ now + limit * 1000 →
      (ending = .expired → time = now + limit * 1000) → r.map address = ending.result step limit →
      Q r time ⟨world, w.notes ++ .called n :: ending.returnNotes call time⟩) :
    (bounded step limit (Noted.noting call ctx note address body)).Reaches none now w Q C := by
  subst hnote
  have hnow : meets now (some (nearer (now + limit * 1000) none)) :=
    meets_nearer.2 ⟨Nat.le_add_right _ _, rfl⟩
  rw [reaches_bounded step limit _ rfl]
  simp only [Noted.noting, Noted.write, Noted.watch, Noted.unseen, hlimit, reaches_bind,
    reaches_now, reaches_modify, reaches_onPart Noted.isPart_world, reaches_pure]
  refine (hbody.reaches.timed hnow).mono (fun r time world h => ?_) fun time world h => ?_
  · have htime := (meets_nearer.1 h.1.2).1
    simpa [Noted.add, CallEnding.returnNotes] using
      hQ (.returned (r.map address)) r time world h.1.1 htime (by simp) rfl
  · obtain ⟨rfl, -⟩ := h.1 _ rfl
    have hmeets : meets (now + limit * 1000) none := rfl
    rw [if_pos hmeets]
    exact hQ .expired (.error (.timeout step limit)) _ world (Nat.le_add_right _ _) (Nat.le_refl _)
      (fun _ => rfl) rfl

/-- **A call within a limit.** It returns in time, or its limit passes, or a nearer deadline cuts
it; each is noted as what it is. -/
theorem reaches_bounded_noting {call : Call} {ctx : BranchContext} {note : CallNote → CallNote}
    {address : α → Option Network.Address} {body : Timed ω (RunResult α)} {step : String}
    {limit : Nat} (hbody : body.Unbroken) (hd : meets now deadline)
    (hlimit : (note { call, time := now, context := ctx }).limit = some limit)
    (hQ : ∀ (ending : CallEnding) r time world, Within deadline now time →
      time ≤ now + limit * 1000 → (ending = .expired → time = now + limit * 1000) →
      r.map address = ending.result step limit →
      Q r time ⟨world, w.notes ++ [.called (note { call, time := now, context := ctx }),
        ending.note call time]⟩)
    (hC : ∀ world stop, deadline = some stop → now ≤ stop → stop < now + limit * 1000 →
      C stop ⟨world, w.notes ++ [.called (note { call, time := now, context := ctx }),
        .dropped call]⟩) :
    (bounded step limit (Noted.noting call ctx note address body)).Reaches deadline now w Q C := by
  have hnow : meets now (some (nearer (now + limit * 1000) deadline)) :=
    meets_nearer.2 ⟨Nat.le_add_right _ _, hd⟩
  have hnow' : meets now (some (nearer (now + limit * 1000)
      (some (nearer (now + limit * 1000) deadline)))) :=
    meets_nearer.2 ⟨Nat.le_add_right _ _, hnow⟩
  rw [reaches_bounded step limit _ hd]
  simp only [Noted.noting, Noted.write, Noted.watch, Noted.await, Noted.unseen, hlimit,
    reaches_bind, reaches_now, reaches_modify, reaches_whenAbandoned, reaches_within _ _ hnow,
    reaches_onPart Noted.isPart_world, reaches_pure, reaches_hang]
  refine (hbody.reaches.timed hnow').mono (fun r time world h => ?_) fun time world h => ?_
  · have hmeets := meets_nearer.1 (meets_nearer.1 h.1.2).2
    simpa [Noted.add, CallEnding.note] using
      hQ (.returned (r.map address)) r time world ⟨h.1.1, hmeets.2⟩ hmeets.1 (by simp) rfl
  · obtain ⟨rfl, -⟩ := h.1 _ rfl
    by_cases hfirst : meets (now + limit * 1000) deadline
    · -- The observer sees the limit pass, and the caller right after him.
      have hself : meets (now + limit * 1000) (some (now + limit * 1000)) :=
        decide_eq_true (Nat.le_refl _)
      simp only [nearer_of_meets hfirst, nearer_of_meets hself, if_pos hself, if_pos hfirst,
        Option.getD_some]
      have hwithin : Within deadline now (now + limit * 1000) := ⟨Nat.le_add_right _ _, hfirst⟩
      simpa [Noted.add, CallEnding.note] using
        hQ .expired (.error (.timeout step limit)) _ world hwithin (Nat.le_refl _)
          (fun _ => rfl) rfl
    · obtain ⟨stop, rfl, hnear, hlt⟩ := exists_nearer_lt hfirst
      have hstop : ¬ meets (now + limit * 1000) (some stop) := hfirst
      have hmin : nearer (now + limit * 1000) (some stop) = stop := hnear
      simp only [hmin, if_neg hstop]
      simpa [Noted.add] using hC world stop rfl (of_decide_eq_true hd) hlt

end Rules

end Stagehand

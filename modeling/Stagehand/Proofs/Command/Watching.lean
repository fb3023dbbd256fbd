import Stagehand.Command.Executor
import Stagehand.Proofs.Matching

/-!
# Watching executors

`e.watched` is the executor `e` with an observer beside it, who keeps a list of what is seen of its
commands: that one is issued, and what it is answered. The observer changes nothing: whatever is
reached with it is reached without it (`Executor.reaches_watched`).
-/

namespace Stagehand

open Timed

/-! ## Sightings -/

/-- What is seen of a command. -/
inductive Sighting where
  | issued (c : CommandSpec)
  | answered (c : CommandSpec) (answer : RunResult CommandOutput)

/-- The command that is seen to be issued, if one is. -/
def Sighting.issued? : Sighting → Option CommandSpec
  | issued c => some c
  | answered _ _ => none

/-- What an executor keeps, with what was seen of its commands. -/
structure Watched (τ : Type) where
  tools : τ
  seen : List Sighting := []

variable {τ : Type}

namespace Host

/-- The host without the observer. -/
def unwatched (h : Host (Watched τ)) : Host τ := ⟨h.files, h.cwd, h.leftBehind, h.tools.tools⟩

/-- The host with the observer of another one. -/
def watchedBy (h : Host τ) (w : Host (Watched τ)) : Host (Watched τ) :=
  ⟨h.files, h.cwd, h.leftBehind, { w.tools with tools := h.tools }⟩

/-- One more sighting. -/
def see (sighting : Sighting) (h : Host (Watched τ)) : Host (Watched τ) :=
  { h with tools := { h.tools with seen := h.tools.seen ++ [sighting] } }

/-- The commands that were seen to be issued, in order. -/
def seenCommands (h : Host (Watched τ)) : List CommandSpec :=
  h.tools.seen.filterMap Sighting.issued?

theorem isPart_unwatched : IsPart (unwatched (τ := τ)) watchedBy :=
  ⟨fun _ _ => rfl, fun _ => rfl, fun _ _ _ => rfl⟩

@[simp] theorem unwatched_see (sighting : Sighting) (h : Host (Watched τ)) :
    (h.see sighting).unwatched = h.unwatched := rfl

@[simp] theorem seenCommands_see_issued (c : CommandSpec) (h : Host (Watched τ)) :
    (h.see (.issued c)).seenCommands = h.seenCommands ++ [c] := by
  simp [seenCommands, see, List.filterMap_append, Sighting.issued?]

@[simp] theorem seenCommands_see_answered (c : CommandSpec) (answer : RunResult CommandOutput)
    (h : Host (Watched τ)) : (h.see (.answered c answer)).seenCommands = h.seenCommands := by
  simp [seenCommands, see, List.filterMap_append, Sighting.issued?]

end Host

/-! ## Watched executors -/

namespace Executor

/-- The executor, watched. -/
def watched (e : Executor τ) : Executor (Watched τ) where
  simulated := e.simulated
  run c limit := do
    Timed.modify (Host.see (.issued c))
    let answer ← (e.run c limit).onPart Host.unwatched Host.watchedBy
    Timed.modify (Host.see (.answered c answer))
    pure answer

@[simp] theorem simulated_watched (e : Executor τ) : e.watched.simulated = e.simulated := rfl

theorem runUnder_watched_of_done {e : Executor τ} {c : CommandSpec} {limit deadline : Option Nat}
    {now time : Nat} {w : Host (Watched τ)} {answer : RunResult CommandOutput} {h : Host τ}
    (hrun : (e.run c limit).runUnder deadline now w.unwatched = ⟨.done answer, time, h⟩) :
    (e.watched.run c limit).runUnder deadline now w =
      ⟨.done answer, time, (h.watchedBy (w.see (.issued c))).see (.answered c answer)⟩ := by
  show (((e.run c limit).onPart Host.unwatched Host.watchedBy).andThen _).runUnder deadline now
    (w.see (.issued c)) = _
  rw [runUnder_andThen, runUnder_onPart Host.isPart_unwatched, Host.unwatched_see, hrun]
  rfl

theorem reaches_watched {e : Executor τ} {c : CommandSpec} {limit deadline : Option Nat} {now : Nat}
    {w : Host (Watched τ)} {Q : RunResult CommandOutput → Nat → Host (Watched τ) → Prop}
    {C : Nat → Host (Watched τ) → Prop} :
    (e.watched.run c limit).Reaches deadline now w Q C ↔
      (e.run c limit).Reaches deadline now w.unwatched
        (fun answer time h =>
          Q answer time ((h.watchedBy (w.see (.issued c))).see (.answered c answer)))
        fun time h => C time (h.watchedBy (w.see (.issued c))) := by
  simp only [watched, reaches_bind, reaches_modify, reaches_onPart Host.isPart_unwatched,
    reaches_pure]
  exact Iff.rfl

/-- Hosts on which nothing but such commands was seen to be issued. -/
def HasSeenOnly (P : CommandSpec → Prop) (h h' : Host (Watched τ)) : Prop :=
  h = h' ∧ ∀ c ∈ h.seenCommands, P c

/-- **A command adds itself to what is seen to be issued**, whatever becomes of it. -/
theorem seenCommands_run (e : Executor τ) (c : CommandSpec)
    (limit deadline : Option Nat) (now : Nat) (w : Host (Watched τ)) :
    ((e.watched.run c limit).runUnder deadline now w).state.seenCommands =
        w.seenCommands ++ [c] := by
  have hissued : ∀ h : Host τ, (h.watchedBy (w.see (.issued c))).seenCommands =
      w.seenCommands ++ [c] :=
    fun _ => Host.seenCommands_see_issued c w
  show (((((e.run c limit).onPart Host.unwatched Host.watchedBy).andThen _).runUnder deadline
    now (w.see (.issued c))).state).seenCommands = _
  rw [runUnder_andThen, runUnder_onPart Host.isPart_unwatched]
  rcases (e.run c limit).runUnder deadline now (w.see (.issued c)).unwatched with
    ⟨answer | _ | _, time, h⟩
  · have hanswered := hissued h
    rw [← Host.seenCommands_see_answered c answer] at hanswered
    exact hanswered
  · exact hissued h
  · exact hissued h

theorem runsAs_hasSeenOnly {P : CommandSpec → Prop} (e : Executor τ) {c : CommandSpec} (hc : P c)
    (limit : Option Nat) :
    RunsAs (HasSeenOnly P) (e.watched.run c limit) (e.watched.run c limit) := by
  rintro deadline now w _ - ⟨rfl, hw⟩
  refine .of_eq rfl rfl ⟨rfl, fun d hd => ?_⟩
  rw [seenCommands_run] at hd
  rcases List.mem_append.1 hd with hd | hd
  · exact hw d hd
  · rwa [List.mem_singleton.1 hd]

end Executor

end Stagehand

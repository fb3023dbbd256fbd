import Stagehand.Proofs.Branch.Breaking

/-!
# Foretelling what calls need

How long a step goes on if nothing cuts it is what it **needs**. Of a call that ran into its limit
the notes do not tell that; so collaborators are made to foretell it: before a step begins, they put
down what it needs from then on, in the world as it is, and do nothing else differently.

A call that returns needed the time that it took, and a call whose limit passes needs
more than its limit.

Main result: `BranchPlan.foretells`, for all calls of any branch.
-/

namespace Stagehand

open Rehearsal (Call CallNote)
open Timed

variable {σ ω α : Type}

/-! ## Needs -/

/-- How many milliseconds an activity goes on from a time and a state if nothing cuts it; none are
enough if it waits forever. -/
def Timed.need (x : Timed σ α) (now : Nat) (s : σ) : Option Nat :=
  match x.runUnder none now s with
  | ⟨.cut, _, _⟩ => none
  | ⟨_, time, _⟩ => some (time - now)

/-- More is needed than some milliseconds. -/
def Exceeds (need : Option Nat) (millis : Nat) : Prop := ∀ d ∈ need, millis < d

instance (need : Option Nat) (millis : Nat) : Decidable (Exceeds need millis) :=
  inferInstanceAs (Decidable (∀ d ∈ need, millis < d))

@[simp] theorem exceeds_none (millis : Nat) : Exceeds none millis := by
  rintro _ ⟨⟩

@[simp] theorem exceeds_some {d millis : Nat} : Exceeds (some d) millis ↔ millis < d := by
  simp [Exceeds]

namespace Timed

theorem need_of_done {x : Timed σ α} {deadline : Option Nat} {now time : Nat} {s t : σ} {a : α}
    (h : x.runUnder deadline now s = ⟨.done a, time, t⟩) : x.need now s = some (time - now) := by
  have hnone : x.runUnder none now s = ⟨.done a, time, t⟩ := by
    rw [← h]
    exact runUnder_none_of_done (congrArg Ended.ending h)
  rw [need, hnone]

theorem le_time_runUnder_none (x : Timed σ α) (now : Nat) (s : σ) :
    now ≤ (x.runUnder none now s).time := by
  induction x generalizing now s with
  | done => exact Nat.le_refl now
  | broken => exact Nat.le_refl now
  | look next ih => exact ih now s now s
  | put t next ih => exact ih now t
  | pause w next ih =>
    simp only [runUnder]
    split
    · split
      · exact ih now s
      · rename_i time _ hlater
        exact Nat.le_trans (Nat.le_of_not_le hlater) (ih time _)
    · exact Nat.le_refl now

theorem lt_time_of_cut {x : Timed σ α} {stop now : Nat} {s : σ}
    (hcut : (x.runUnder (some stop) now s).ending = .cut)
    (hends : (x.runUnder none now s).ending ≠ .cut) : stop < (x.runUnder none now s).time := by
  induction x generalizing now s with
  | done => cases hcut
  | broken => cases hcut
  | look next ih => exact ih now s hcut hends
  | put t next ih => exact ih hcut hends
  | pause w next ih =>
    have hnone : ∀ time, meets time none = true := fun _ => rfl
    revert hcut hends
    simp only [runUnder, hnone, if_true]
    split
    · rename_i time _
      split
      · exact ih
      · split
        · exact ih
        · rename_i hlate
          have hstop : stop < time := by simpa [meets] using hlate
          exact fun _ _ => Nat.lt_of_lt_of_le hstop (le_time_runUnder_none next time _)
    · exact fun _ hends => absurd rfl hends

/-- **What is cut needs more time than it had.** -/
theorem exceeds_of_cut {x : Timed σ α} {stop now : Nat} {s : σ} (hnow : now ≤ stop)
    (hcut : (x.runUnder (some stop) now s).ending = .cut) :
    Exceeds (x.need now s) (stop - now) := by
  have hlate := lt_time_of_cut hcut
  rw [need]
  generalize x.runUnder none now s = e at hlate ⊢
  obtain ⟨a | _ | _, time, t⟩ := e
  · have hstop : stop < time := hlate (by rintro ⟨⟩)
    exact exceeds_some.2 (by omega)
  · exact exceeds_none _
  · have hstop : stop < time := hlate (by rintro ⟨⟩)
    exact exceeds_some.2 (by omega)

end Timed

/-! ## Foretelling -/

/-- A world, and what was foretold of the calls so far. -/
structure Foretold (ω : Type) where
  world : ω
  needs : List (Option Nat) := []

theorem Foretold.isPart_world :
    IsPart (Foretold.world (ω := ω)) fun world w => { w with world } :=
  ⟨fun _ _ => rfl, fun _ => rfl, fun _ _ _ => rfl⟩

/-- Puts down what a step needs, and does it. -/
def foretelling (body : Timed ω α) : Timed (Foretold ω) α := do
  let now ← Timed.now
  Timed.modify fun w => { w with needs := w.needs ++ [body.need now w.world] }
  body.onPart (·.world) fun world w => { w with world }

theorem runUnder_foretelling (body : Timed ω α) (deadline : Option Nat) (now : Nat)
    (w : Foretold ω) :
    (foretelling body).runUnder deadline now w =
      (body.runUnder deadline now w.world).mapState (⟨·, w.needs ++ [body.need now w.world]⟩) := by
  simp only [foretelling, runUnder_bind]
  exact runUnder_onPart Foretold.isPart_world body

/-- The collaborators, foretelling what each call needs. -/
def Collaborators.foretelling (c : Collaborators ω) : Collaborators (Foretold ω) where
  checkout ctx := Stagehand.foretelling (c.checkout ctx)
  createRunner ctx limit := Stagehand.foretelling (c.createRunner ctx limit)
  runTest ctx target limit := Stagehand.foretelling (c.runTest ctx target limit)
  collectLogs ctx target limit := Stagehand.foretelling (c.collectLogs ctx target limit)
  cleanResources ctx target limit := Stagehand.foretelling (c.cleanResources ctx target limit)
  sendEmail ctx build limit := Stagehand.foretelling (c.sendEmail ctx build limit)
  copyArtifacts ctx target destination :=
    Stagehand.foretelling (c.copyArtifacts ctx target destination)

/-! ## What is noted, and what was foretold -/

/-- How a call fared, by what it needs and what is noted after it. -/
structure Fares (n : CallNote) (need : Option Nat) (after : List Note) : Prop where
  returned : ∀ answer time later, after = .returned n.call answer time :: later →
    need = some (time - n.time)
  expired : ∀ time later limit, after = .expired n.call time :: later → n.limit = some limit →
    Exceeds need (limit * 1000)

theorem Fares.append {n m : CallNote} {need : Option Nat} {after later : List Note}
    (h : Fares n need after) : Fares n need (after ++ .called m :: later) := by
  cases after with
  | nil =>
    constructor
    · rintro answer time rest ⟨⟩
    · rintro time rest limit ⟨⟩
  | cons note rest =>
    constructor
    · intro answer time _ heq
      obtain ⟨rfl, -⟩ := List.cons.inj heq
      exact h.returned answer time rest rfl
    · intro time _ limit heq
      obtain ⟨rfl, -⟩ := List.cons.inj heq
      exact h.expired time rest limit rfl

/-- Something was foretold of each call, and that is how it fared. -/
structure Foretells (notes : List Note) (needs : List (Option Nat)) : Prop where
  length_eq : (callsOf notes).length = needs.length
  fares : ∀ before n after, notes = before ++ .called n :: after →
    ∃ need, needs[(callsOf before).length]? = some need ∧ Fares n need after

theorem Foretells.nil : Foretells [] [] where
  length_eq := rfl
  fares before n after h := by simp at h

theorem callsOf_called (n : CallNote) (notes : List Note) :
    callsOf (.called n :: notes) = n.call :: callsOf notes := rfl

theorem not_called_of_callsOf {notes before after : List Note} {n : CallNote}
    (h : callsOf notes = []) :
    notes ≠ before ++ .called n :: after := by
  rintro rfl
  rw [callsOf_append, callsOf_called] at h
  simp at h

theorem Foretells.called {notes tail : List Note} {needs : List (Option Nat)} {n : CallNote}
    {need : Option Nat} (h : Foretells notes needs) (htail : callsOf tail = [])
    (hfares : Fares n need tail) : Foretells (notes ++ .called n :: tail) (needs ++ [need]) where
  length_eq := by
    rw [callsOf_append, callsOf_called, htail, List.length_append, List.length_append, h.length_eq]
    rfl
  fares before m after heq := by
    obtain ⟨later, hnotes, rfl⟩ | ⟨between, rfl, hcons⟩ := append_eq_append_cons heq
    · obtain ⟨need', hneed', hfares'⟩ := h.fares before m later hnotes
      have hlt : (callsOf before).length < needs.length := by
        rw [← h.length_eq, hnotes, callsOf_append, callsOf_called, List.length_append,
          List.length_cons]
        omega
      exact ⟨need', by rw [List.getElem?_append_left hlt, hneed'], hfares'.append⟩
    · obtain ⟨rfl, hrest⟩ | ⟨between, rfl, rfl⟩ := List.cons_eq_append_iff.1 hcons
      · cases hrest
        refine ⟨need, ?_, hfares⟩
        rw [List.append_nil, h.length_eq]
        simp
      · exact absurd rfl (not_called_of_callsOf htail)

/-- The worlds are one, so are the notes, and all of it was foretold. -/
structure Foreseen (w : Noted (Foretold ω)) (w' : Noted ω) : Prop where
  world : w.world.world = w'.world
  notes : w.notes = w'.notes
  foretells : Foretells w.notes w.world.needs

/-! ## Calls -/

section Calls

variable {n : CallNote} {need : Option Nat} {world : ω} {needs : List (Option Nat)}
  {notes tail : List Note}

theorem Fares.of_returned {answer : RunResult (Option Network.Address)} {time : Nat}
    (h : need = some (time - n.time)) : Fares n need [.returned n.call answer time] where
  returned := by
    rintro _ _ _ ⟨⟩
    exact h
  expired := by rintro _ _ _ ⟨⟩

theorem Fares.of_expired {time limit : Nat} (hlimit : n.limit = some limit)
    (h : Exceeds need (limit * 1000)) : Fares n need [.expired n.call time] where
  returned := by rintro _ _ _ ⟨⟩
  expired _ _ limit' _ hlimit' := by
    obtain rfl : limit = limit' := Option.some.inj (hlimit ▸ hlimit')
    exact h

theorem Fares.of_dropped : Fares n need [.dropped n.call] where
  returned := by rintro _ _ _ ⟨⟩
  expired := by rintro _ _ _ ⟨⟩

theorem Fares.of_nothing : Fares n need [] where
  returned := by rintro _ _ _ ⟨⟩
  expired := by rintro _ _ _ ⟨⟩

theorem Foreseen.called (h : Foretells notes needs) (htail : callsOf tail = [])
    (hfares : Fares n need tail) :
    Foreseen ⟨⟨world, needs ++ [need]⟩, notes ++ [.called n] ++ tail⟩
      ⟨world, notes ++ [.called n] ++ tail⟩ where
  world := rfl
  notes := rfl
  foretells := by
    rw [List.append_assoc]
    exact h.called htail hfares

theorem Foreseen.begun (h : Foretells notes needs) :
    Foreseen ⟨⟨world, needs ++ [need]⟩, notes ++ [.called n]⟩ ⟨world, notes ++ [.called n]⟩ where
  world := rfl
  notes := rfl
  foretells := h.called rfl .of_nothing

/-- **Foretelling changes nothing**, and what is foretold of a call is how it fares. -/
theorem runsAs_noting_foretelling (call : Call) (ctx : BranchContext) (note : CallNote → CallNote)
    (address : α → Option Network.Address) (body : Timed ω (RunResult α))
    (hcall : ∀ n, (note n).call = n.call) (htime : ∀ n, (note n).time = n.time) :
    RunsAs Foreseen (Noted.noting call ctx note address (foretelling body))
      (Noted.noting call ctx note address body) := by
  rintro deadline now ⟨⟨world, needs⟩, notes⟩ ⟨_, _⟩ hd ⟨rfl, rfl, hforetells⟩
  rw [runUnder_noting, runUnder_noting]
  obtain ⟨n, hn⟩ : ∃ n, n = note { call, time := now, context := ctx } := ⟨_, rfl⟩
  obtain rfl : n.call = call := by rw [hn, hcall]
  obtain rfl : n.time = now := by rw [hn, htime]
  rw [← hn]
  cases hlimit : n.limit with
  | none =>
    simp only [Noted.watch, Noted.unseen, Noted.add, runUnder_onPart Noted.isPart_world,
      runUnder_foretelling]
    rcases hrun : body.runUnder deadline n.time world with ⟨r | _ | _, time, world'⟩
    · exact .intro _ _ (Foreseen.called hforetells rfl (.of_returned (need_of_done hrun)))
    · exact .intro _ _ (Foreseen.begun hforetells)
    · exact .intro _ _ (Foreseen.begun hforetells)
  | some limit =>
    have hnow : meets n.time (some (nearer (n.time + limit * 1000) deadline)) :=
      meets_nearer.2 ⟨Nat.le_add_right _ _, hd⟩
    simp only [runUnder_watch _ _ _ hd, runUnder_foretelling, Noted.add]
    rcases hrun : body.runUnder (some (nearer (n.time + limit * 1000) deadline)) n.time world with
      ⟨r | _ | _, time, world'⟩
    · exact .intro _ _ (Foreseen.called hforetells rfl (.of_returned (need_of_done hrun)))
    · -- A cut at the limit of the call was foretold; a cut at a nearer deadline need not have been.
      have hexceeds := exceeds_of_cut (of_decide_eq_true hnow) (congrArg Ended.ending hrun)
      by_cases hmeets : meets (n.time + limit * 1000) deadline = true
      · rw [nearer_of_meets hmeets, Nat.add_sub_cancel_left] at hexceeds
        simp only [Ended.mapState, watchedEnd, if_pos hmeets]
        exact .intro _ _ (Foreseen.called hforetells rfl (.of_expired hlimit hexceeds))
      · simp only [Ended.mapState, watchedEnd, if_neg hmeets]
        exact .intro _ _ (Foreseen.called hforetells rfl .of_dropped)
    · exact .intro _ _ (Foreseen.called hforetells rfl .of_dropped)

theorem Collaborators.runAs_foretelling (c : Collaborators ω) (ctx : BranchContext) :
    Collaborators.RunAs Foreseen c.foretelling.noted c.noted ctx where
  checkout := runsAs_noting_foretelling .checkout ctx id (fun _ => none) _
    (fun _ => rfl) fun _ => rfl
  createRunner _ limit := runsAs_bounded _ _ <|
    runsAs_noting_foretelling .createRunner ctx (fun n => { n with limit := some limit }) some _
      (fun _ => rfl) fun _ => rfl
  runTest _ target limit := runsAs_bounded _ _ <|
    runsAs_noting_foretelling .runTest ctx
      (fun n => { n with limit := some limit, target := some target }) (fun _ => none) _
      (fun _ => rfl) fun _ => rfl
  collectLogs _ target limit := runsAs_bounded _ _ <|
    runsAs_noting_foretelling .collectLogs ctx
      (fun n => { n with limit := some limit, target := some target }) (fun _ => none) _
      (fun _ => rfl) fun _ => rfl
  cleanResources _ target limit := runsAs_bounded _ _ <|
    runsAs_noting_foretelling .cleanResources ctx
      (fun n => { n with limit := some limit, target := some target }) (fun _ => none) _
      (fun _ => rfl) fun _ => rfl
  sendEmail _ build limit := runsAs_bounded _ _ <|
    runsAs_noting_foretelling .sendEmail ctx
      (fun n => { n with limit := some limit, build := some build }) (fun _ => none) _
      (fun _ => rfl) fun _ => rfl
  copyArtifacts target :=
    runsAs_noting_foretelling .copyArtifacts ctx
      (fun n =>
        { n with target := some target, destination := some (Path.join ctx.workdir artifactsDir) })
      (fun _ => none) _ (fun _ => rfl) fun _ => rfl

end Calls

/-! ## Branches -/

namespace BranchPlan

variable (plan : BranchPlan) (c : Collaborators ω) (policy : SelectorPolicy) (limit : Option Nat)
  (world : ω)

/-- What each call of a run needs, in the order of the calls. -/
def needs : List (Option Nat) :=
  (plan.runWithin c.foretelling policy limit ⟨world, []⟩).state.progress.world.needs

/-- **Every call of a run fares as is foretold**, whatever the collaborators do. -/
theorem foretells :
    Foretells (plan.notes c policy limit world) (plan.needs c policy limit world) := by
  have hcalls : ∀ config, plan.params.resolve policy = .ok config →
      Collaborators.RunAs Foreseen c.foretelling.noted c.noted (plan.context config) :=
    fun config _ => c.runAs_foretelling _
  have hrun := runsAs_runBranch hcalls limit none 0 { progress := { world := ⟨⟨world, []⟩, []⟩ } }
    { progress := { world := ⟨world, []⟩ } } rfl
    ⟨⟨rfl, rfl, ⟨rfl, rfl, .nil⟩⟩, rfl, rfl, rfl, rfl⟩
  have hforeseen : Foreseen
      (plan.runWithin c.foretelling.noted policy limit ⟨⟨world, []⟩, []⟩).state.progress.world
      (plan.runWithin c.noted policy limit ⟨world, []⟩).state.progress.world :=
    hrun.state.progress.world
  have hneeds : (plan.runWithin c.foretelling.noted policy limit
      ⟨⟨world, []⟩, []⟩).state.progress.world.world.needs = plan.needs c policy limit world :=
    congrArg (fun e => e.state.progress.world.needs)
      (plan.runWithin_erase c.foretelling policy limit ⟨world, []⟩)
  rw [← hneeds, notes, ← hforeseen.notes]
  exact hforeseen.foretells

end BranchPlan

end Stagehand

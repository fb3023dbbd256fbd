import Stagehand.Proofs.Branch.Calls
import Stagehand.Proofs.Branch.Erasure

/-!
# Collaborators that break down

A call that breaks down ends its branch there and then. Nothing of that is a course; but had the
call hung instead, the branch would have followed one. So collaborators are **mended**: they hang
where they would break down, and do nothing else differently. What is known of courses then tells
what a branch did before it broke down.

**How.** A branch and the mended one are run side by side. Either they end alike, or the branch
breaks down in a call, and what was noted up to that call is the beginning of what the mended one
notes (`Mends`, which is a likeness).

Main result: `BranchPlan.ends`, the ways in which any branch can end.
-/

namespace Stagehand

open Rehearsal (Call CallNote)
open Timed

variable {σ σ' ω α β : Type} {deadline : Option Nat} {now : Nat}

/-! ## Mending -/

namespace Timed

/-- Hangs where it would break down. -/
def mended : Timed σ α → Timed σ α
  | done a => done a
  | broken => hang
  | look next => look fun now s => (next now s).mended
  | put s next => put s next.mended
  | pause w next => pause w next.mended

/-- A breakdown becomes a wait for the deadline; nothing else changes. -/
theorem runUnder_mended (x : Timed σ α) (s : σ) :
    x.mended.runUnder deadline now s =
      match x.runUnder deadline now s with
      | ⟨.done a, time, s⟩ => ⟨.done a, time, s⟩
      | ⟨.cut, time, s⟩ => ⟨.cut, time, s⟩
      | ⟨.broken, time, s⟩ => ⟨.cut, deadline.getD time, s⟩ := by
  induction x generalizing now s with
  | done a => rfl
  | broken =>
    show (⟨.cut, deadline.getD now, if now < deadline.getD now then s else s⟩ : Ended σ α) = _
    rw [ite_self]
    rfl
  | look next ih => exact ih now s s
  | put t next ih => exact ih t
  | pause w next ih =>
    simp only [mended, runUnder]
    split
    · split
      · exact ih s
      · split
        · exact ih _
        · rfl
    · rfl

theorem unbroken_mended (x : Timed σ α) : x.mended.Unbroken := by
  intro deadline now s
  rw [runUnder_mended]
  rcases x.runUnder deadline now s with ⟨a | _ | _, time, t⟩ <;> rintro ⟨⟩

end Timed

namespace Collaborators

/-- The collaborators, hanging where they would break down. -/
def mended (c : Collaborators ω) : Collaborators ω where
  checkout ctx := (c.checkout ctx).mended
  createRunner ctx limit := (c.createRunner ctx limit).mended
  runTest ctx target limit := (c.runTest ctx target limit).mended
  collectLogs ctx target limit := (c.collectLogs ctx target limit).mended
  cleanResources ctx target limit := (c.cleanResources ctx target limit).mended
  sendEmail ctx build limit := (c.sendEmail ctx build limit).mended
  copyArtifacts ctx target destination := (c.copyArtifacts ctx target destination).mended

theorem unbreaking_mended (c : Collaborators ω) : c.mended.Unbreaking where
  checkout _ := unbroken_mended _
  createRunner _ _ := unbroken_mended _
  runTest _ _ _ := unbroken_mended _
  collectLogs _ _ _ := unbroken_mended _
  cleanResources _ _ _ := unbroken_mended _
  sendEmail _ _ _ := unbroken_mended _
  copyArtifacts _ _ _ := unbroken_mended _

end Collaborators

/-! ## Stopping in a call -/

/-- The notes stop in a call that broke down. Had it hung, `whole` would have been noted. -/
inductive StopsIn (call : CallNote) : List Note → List Note → Prop
  | called {before whole : List Note} (h : before ++ [.called call] <+: whole) :
      StopsIn call (before ++ [.called call]) whole
  | dropped {before whole : List Note} (h : before ++ [.called call] <+: whole) :
      StopsIn call (before ++ [.called call, .dropped call.call]) whole

theorem StopsIn.grown {call : CallNote} {notes whole whole' : List Note}
    (h : StopsIn call notes whole) (hgrown : whole <+: whole') : StopsIn call notes whole' := by
  cases h with
  | called h => exact .called (h.trans hgrown)
  | dropped h => exact .dropped (h.trans hgrown)

/-- Every call of a branch that broke down is one of the mended branch, and in the same order. -/
theorem StopsIn.callsOf_prefix {call : CallNote} {notes whole : List Note}
    (h : StopsIn call notes whole) : callsOf notes <+: callsOf whole := by
  cases h with
  | called h => exact h.filterMap _
  | @dropped before _ h =>
    have hcalls : callsOf (before ++ [.called call, .dropped call.call]) =
        callsOf (before ++ [.called call]) := by
      rw [callsOf_append, callsOf_append]
      rfl
    rw [hcalls]
    exact h.filterMap _

theorem StopsIn.called_mem {call n : CallNote} {notes whole : List Note}
    (h : StopsIn call notes whole) (hn : .called n ∈ notes) : .called n ∈ whole := by
  cases h with
  | called h => exact h.subset hn
  | dropped h =>
    refine h.subset ?_
    simpa using hn

theorem StopsIn.callsOf_eq {call : CallNote} {notes whole : List Note}
    (h : StopsIn call notes whole) :
    ∃ calls, callsOf notes = calls ++ [call.call] := by
  cases h <;> exact ⟨_, callsOf_append _ _⟩

theorem StopsIn.of_single {call first : CallNote} {notes : List Note}
    (h : StopsIn call notes [.called first]) :
    notes = [.called first] ∨ notes = [.called first, .dropped first.call] := by
  have hfirst : ∀ {before}, before ++ [.called call] <+: [Note.called first] →
      before = [] ∧ call = first := by
    rintro (_ | ⟨n, before⟩) ⟨rest, hrest⟩
    · exact ⟨rfl, by simpa using congrArg List.head? hrest⟩
    · have hlength := congrArg List.length hrest
      simp only [List.length_append, List.length_cons, List.length_nil] at hlength
      omega
  cases h with
  | called h =>
    obtain ⟨rfl, rfl⟩ := hfirst h
    exact .inl rfl
  | dropped h =>
    obtain ⟨rfl, rfl⟩ := hfirst h
    exact .inr rfl

/-! ## A branch and the mended one -/

section Mending

variable {E : σ → σ' → Prop} {world : σ → Noted ω}

/-- The end of an activity, and the end of another one, which goes on where the first one breaks
down. -/
inductive Ended.MendedBy (world : σ → Noted ω) (E : σ → σ' → Prop) (e : Ended σ α)
    (e' : Ended σ' α) :
    Prop
  | alike (h : e.Matches E e')
  | stopped {u : σ} {call : CallNote} (broken : e'.ending = .broken) (state : E u e'.state)
      (stops : StopsIn call (world u).notes (world e.state).notes)

/-- The first activity mends the second one: it only adds to the notes, and it goes on where the
second one breaks down in a call. -/
def Mends (world : σ → Noted ω) (E : σ → σ' → Prop) (x : Timed σ α) (y : Timed σ' α) : Prop :=
  (∀ s, ∃ t, E s t) → ∀ deadline now s, meets now deadline →
    (world s).notes <+: (world (x.runUnder deadline now s).state).notes ∧
      ∀ t, E s t → (x.runUnder deadline now s).MendedBy world E (y.runUnder deadline now t)

theorem mends_pure (a : α) : Mends world E (pure a) (pure a) :=
  fun _ _ _ _ _ => ⟨List.prefix_rfl, fun _ hs => .alike (.intro _ _ hs)⟩

theorem mends_bind {x : Timed σ β} {y : Timed σ' β} {f : β → Timed σ α} {g : β → Timed σ' α}
    (hx : Mends world E x y) (hf : ∀ b, Mends world E (f b) (g b)) :
    Mends world E (x >>= f) (y >>= g) := by
  intro htotal deadline now s hd
  obtain ⟨hgrows, hmends⟩ := hx htotal deadline now s hd
  have hmeets : ∀ b, (x.runUnder deadline now s).ending = .done b →
      meets (x.runUnder deadline now s).time deadline := fun b hb => meets_time_of_done hb hd
  simp only [runUnder_bind]
  generalize x.runUnder deadline now s = e at hgrows hmends hmeets ⊢
  obtain ⟨ending, time, s'⟩ := e
  -- What comes after `x` only adds to the notes.
  have hlater : (world s').notes <+: (world (match (⟨ending, time, s'⟩ : Ended σ β) with
      | ⟨.done b, now, s⟩ => (f b).runUnder deadline now s
      | ⟨.cut, now, s⟩ => ⟨.cut, now, s⟩
      | ⟨.broken, now, s⟩ => ⟨.broken, now, s⟩).state).notes := by
    cases ending with
    | done b => exact (hf b htotal deadline time s' (hmeets b rfl)).1
    | cut => exact List.prefix_rfl
    | broken => exact List.prefix_rfl
  refine ⟨hgrows.trans hlater, fun t hs => ?_⟩
  have hmended := hmends t hs
  generalize y.runUnder deadline now t = e' at hmended ⊢
  cases hmended with
  | alike h =>
    cases h with
    | intro _ _ hs' =>
      cases ending with
      | done b => exact (hf b htotal deadline time s' (hmeets b rfl)).2 _ hs'
      | cut => exact .alike (.intro _ _ hs')
      | broken => exact .alike (.intro _ _ hs')
  | stopped hbroken hstate hstops =>
    obtain ⟨ending', time', t'⟩ := e'
    obtain rfl : ending' = .broken := hbroken
    exact .stopped rfl hstate (hstops.grown hlater)

theorem mends_within {x : Timed σ α} {y : Timed σ' α} (millis : Nat) (h : Mends world E x y) :
    Mends world E (within millis x) (within millis y) := by
  intro htotal deadline now s hd
  have hnow : meets now (some (nearer (now + millis) deadline)) :=
    meets_nearer.2 ⟨Nat.le_add_right _ _, hd⟩
  obtain ⟨hgrows, hmends⟩ := h htotal _ now s hnow
  have hstate : ∀ e : Ended σ α, (limited (now + millis) deadline e).state = e.state := by
    rintro ⟨a | _ | _, time, s⟩ <;> simp only [limited]
    split <;> rfl
  rw [runUnder_within _ _ _ _ _ hd, hstate]
  refine ⟨hgrows, fun t hs => ?_⟩
  rw [runUnder_within _ _ _ _ _ hd]
  cases hmends t hs with
  | alike hmatches => exact .alike (matches_limited hmatches)
  | stopped hbroken hrel hstops =>
    generalize y.runUnder (some (nearer (now + millis) deadline)) now t = e' at hbroken hrel ⊢
    obtain ⟨ending', time', t'⟩ := e'
    obtain rfl : ending' = .broken := hbroken
    exact .stopped rfl hrel ((hstate _).symm ▸ hstops)

theorem mends_onPart {τ τ' : Type} {worldOf : τ → Noted ω} {E' : τ → τ' → Prop} {part : σ → τ}
    {setPart : τ → σ → σ} {part' : σ' → τ'} {setPart' : τ' → σ' → σ'} {x : Timed τ α}
    {y : Timed τ' α}
    (hp : IsPart part setPart) (hp' : IsPart part' setPart')
    (hpart : ∀ s s', E s s' → E' (part s) (part' s'))
    (hset : ∀ s s' t t', E s s' → E' t t' → E (setPart t s) (setPart' t' s'))
    (h : Mends worldOf E' x y) :
    Mends (fun s => worldOf (part s)) E (x.onPart part setPart) (y.onPart part' setPart') := by
  intro htotal deadline now s hd
  have htotal' : ∀ p, ∃ p', E' p p' := by
    intro p
    obtain ⟨t, ht⟩ := htotal (setPart p s)
    have hrel := hpart _ _ ht
    rw [hp.part_setPart] at hrel
    exact ⟨_, hrel⟩
  obtain ⟨hgrows, hmends⟩ := h htotal' deadline now (part s) hd
  have hend : ∀ e : Ended τ α, part (e.mapState (setPart · s)).state = e.state :=
    fun e => hp.part_setPart _ _
  simp only [runUnder_onPart hp, runUnder_onPart hp', hend]
  refine ⟨hgrows, fun t hs => ?_⟩
  cases hmends _ (hpart s t hs) with
  | alike hmatches =>
    exact .alike (.of_eq hmatches.ending hmatches.time (hset s t _ _ hs hmatches.state))
  | @stopped u call hbroken hrel hstops =>
    have hnotes : StopsIn call (worldOf (part (setPart u s))).notes
        (worldOf
          (part ((x.runUnder deadline now (part s)).mapState (setPart · s)).state)).notes := by
      rw [hp.part_setPart, hend]
      exact hstops
    exact .stopped hbroken (hset s t u _ hs hrel) hnotes

/-- Mending is a likeness. -/
def Likeness.mending (ω : Type) : Likeness (Noted ω) where
  Like world E x y := Mends world E x y
  like_pure := mends_pure
  like_bind := mends_bind
  like_now _ _ _ _ _ := ⟨List.prefix_rfl, fun _ hs => .alike (.intro _ _ hs)⟩
  like_modify {_ _ world _ f _} h htotal deadline now s _ := by
    obtain ⟨t, ht⟩ := htotal s
    have hworld : world (f s) = world s := (h s t ht).2
    refine ⟨?_, fun t hs => .alike (.intro _ _ (h s t hs).1)⟩
    show (world s).notes <+: (world (f s)).notes
    exact hworld ▸ List.prefix_rfl
  like_get_bind h htotal deadline now s hd := by
    obtain ⟨t, ht⟩ := htotal s
    exact ⟨(h s t ht htotal deadline now s hd).1, fun t hs =>
      (h s t hs htotal deadline now s hd).2 t hs⟩
  like_within := mends_within
  like_onPart := mends_onPart

end Mending

/-! ## Calls -/

section Calls

variable {w : Noted ω}

/-- A watched step, and the mended one: they end alike, or the step breaks down and is dropped. -/
theorem watch_mended (call : Call) (body : Timed ω α) (limit : Option Nat)
    (hd : meets now deadline) :
    w.notes <+: ((Noted.watch call body.mended limit).runUnder deadline now w).state.notes ∧
      ((Noted.watch call body.mended limit).runUnder deadline now w =
          (Noted.watch call body limit).runUnder deadline now w ∨
        ((Noted.watch call body limit).runUnder deadline now w).ending = .broken ∧
          (((Noted.watch call body limit).runUnder deadline now w).state.notes = w.notes ∨
            ((Noted.watch call body limit).runUnder deadline now w).state.notes =
              w.notes ++ [.dropped call])) := by
  cases limit with
  | none =>
    simp only [Noted.watch, Noted.unseen, runUnder_onPart Noted.isPart_world, runUnder_mended]
    rcases body.runUnder deadline now w.world with ⟨a | _ | _, time, world⟩
    · exact ⟨List.prefix_rfl, .inl rfl⟩
    · exact ⟨List.prefix_rfl, .inl rfl⟩
    · exact ⟨List.prefix_rfl, .inr ⟨rfl, .inl rfl⟩⟩
  | some limit =>
    simp only [runUnder_watch _ _ _ hd, runUnder_mended]
    rcases body.runUnder (some (nearer (now + limit * 1000) deadline)) now w.world with
      ⟨a | _ | _, time, world⟩
    · exact ⟨List.prefix_rfl, .inl rfl⟩
    · by_cases hmeets : meets (now + limit * 1000) deadline = true <;>
        simp [watchedEnd, hmeets, Noted.add]
    · by_cases hmeets : meets (now + limit * 1000) deadline = true <;>
        simp [watchedEnd, hmeets, Noted.add]

/-- **A call that breaks down leaves the notes that it would have left had it hung**, up
to the call. -/
theorem like_noting_mended (call : Call) (ctx : BranchContext) (note : CallNote → CallNote)
    (address : α → Option Network.Address) (body : Timed ω (RunResult α))
    (hnote : ∀ n, (note n).call = n.call) :
    (Likeness.mending ω).LikeWorld Eq (Noted.noting call ctx note address body.mended)
      (Noted.noting call ctx note address body) := by
  intro _ deadline now w hd
  let n := note { call, time := now, context := ctx }
  have hgrown : ∀ e : Ended (Noted ω) (RunResult α),
      e.state.notes <+: (notedEnd call address e).state.notes := by
    rintro ⟨r | _ | _, time, w'⟩
    · exact List.prefix_append _ _
    · exact List.prefix_rfl
    · exact List.prefix_rfl
  obtain ⟨hgrows, hends⟩ := watch_mended (w := w.add (.called n)) call body n.limit hd
  simp only [runUnder_noting, id_eq]
  have hcalled := hgrows.trans (hgrown _)
  refine ⟨(List.prefix_append _ _).trans hcalled, ?_⟩
  rintro _ rfl
  -- Either the body did not break down, or nothing was noted behind its call.
  obtain heq | ⟨hbroken, hnotes⟩ := hends
  · rw [heq]
    exact .alike (.of_eq rfl rfl rfl)
  · generalize (Noted.watch call body n.limit).runUnder deadline now (w.add (.called n)) = e'
      at hbroken hnotes ⊢
    obtain ⟨ending, time, w'⟩ := e'
    obtain rfl : ending = .broken := hbroken
    refine .stopped rfl rfl (?_ : StopsIn n w'.notes _)
    obtain hnotes | hnotes := hnotes
    · rw [show w'.notes = w.notes ++ [.called n] from hnotes]
      exact .called hcalled
    · have hdropped : w'.notes = w.notes ++ [.called n, .dropped n.call] := by
        rw [show w'.notes = w.notes ++ [.called n] ++ [.dropped call] from hnotes,
          show n.call = call from hnote _, List.append_assoc]
        rfl
      rw [hdropped]
      exact .dropped hcalled

theorem Collaborators.calls_mended (c : Collaborators ω) (ctx : BranchContext) :
    (Likeness.mending ω).Calls Eq c.mended.noted c.noted ctx where
  checkout := Likeness.like_outside
    (like_noting_mended .checkout ctx id (fun _ => none) _ fun _ => rfl)
  createRunner limit := Likeness.like_bounded _ limit (Likeness.like_outside
    (like_noting_mended .createRunner ctx (fun n => { n with limit := some limit }) some _
      fun _ => rfl))
  runTest target limit := Likeness.like_bounded _ limit (Likeness.like_outside
    (like_noting_mended .runTest ctx
      (fun n => { n with limit := some limit, target := some target }) (fun _ => none) _
      fun _ => rfl))
  collectLogs target limit := Likeness.like_bounded _ limit (Likeness.like_outside
    (like_noting_mended .collectLogs ctx
      (fun n => { n with limit := some limit, target := some target }) (fun _ => none) _
      fun _ => rfl))
  terminal stage target limit build := by
    refine Likeness.like_outsideProgress (Likeness.like_bounded _ limit ?_)
    cases stage with
    | cleanResources =>
      exact like_noting_mended .cleanResources ctx
        (fun n => { n with limit := some limit, target := some target })
        (fun _ => none) _ fun _ => rfl
    | sendEmail =>
      exact like_noting_mended .sendEmail ctx
        (fun n => { n with limit := some limit, build := some build })
        (fun _ => none) _ fun _ => rfl
  copyArtifacts target limit :=
    Likeness.like_outsideProgress (Likeness.like_bounded _ limit
      (like_noting_mended .copyArtifacts ctx
        (fun n =>
          { n with
            target := some target
            destination := some (Path.join ctx.workdir artifactsDir) })
        (fun _ => none) _ fun _ => rfl))

end Calls

/-! ## Branches -/

theorem BranchState.eq_of_like {s t : BranchState ω} (h : s.Like Eq t) : s = t := by
  obtain ⟨⟨ledger, events, world⟩, records, inFlight, target, runner⟩ := s
  obtain ⟨⟨ledger', events', world'⟩, records', inFlight', target', runner'⟩ := t
  obtain ⟨⟨rfl, rfl, rfl⟩, rfl, rfl, rfl, rfl⟩ := h
  rfl

namespace BranchPlan

variable (plan : BranchPlan) (c : Collaborators ω) (policy : SelectorPolicy) (limit : Option Nat)
  (world : ω)

/-- A branch ends as the mended one does, or it breaks down in a call. -/
theorem mended_or_stops :
    plan.runWithin c.mended.noted policy limit ⟨world, []⟩ =
        plan.runWithin c.noted policy limit ⟨world, []⟩ ∨
      (plan.runWithin c policy limit world).ending = .broken ∧
        ∃ call, StopsIn call (plan.notes c policy limit world)
          (plan.notes c.mended policy limit world) := by
  let start : BranchState (Noted ω) := { progress := { world := ⟨world, []⟩ } }
  have hself : ∀ s : BranchState (Noted ω), s.Like Eq s :=
    fun s => ⟨⟨rfl, rfl, rfl⟩, rfl, rfl, rfl, rfl⟩
  have hlike : (Likeness.mending ω).LikeState Eq (runBranch c.mended.noted policy limit plan)
      (runBranch c.noted policy limit plan) :=
    Likeness.like_runBranch (fun config _ => c.calls_mended (plan.context config)) limit
  obtain ⟨-, hmended⟩ := hlike (fun s => ⟨s, hself s⟩) none 0 start rfl
  cases hmended start (hself start) with
  | alike h => exact .inl (h.mono fun _ _ => BranchState.eq_of_like).eq
  | stopped hbroken hstate hstops =>
    rw [← plan.runWithin_erase c policy limit world]
    rw [BranchState.eq_of_like hstate] at hstops
    exact .inr ⟨hbroken, _, hstops⟩

/-- How a branch can end. -/
inductive Ends : Prop
  /-- It follows a course. -/
  | follows {steps : List StageStep} {swept : RunResult Swept} {last : Nat}
      (h : plan.Follows c policy limit world steps swept last)
  /-- It breaks down in a call; had that hung, it would have followed a course. -/
  | stops {steps : List StageStep} {swept : RunResult Swept} {last : Nat} {call : CallNote}
      (course : Course plan policy limit steps swept last)
      (broken : (plan.runWithin c policy limit world).ending = .broken)
      (stops : StopsIn call (plan.notes c policy limit world) (notesOf steps swept))
  /-- Its checkout never ends, or breaks down. -/
  | lost {config : RunConfiguration} (resolve : plan.params.resolve policy = .ok config)
      (ending : ∀ o, (plan.runWithin c policy limit world).ending ≠ .done o)
      (notes : plan.notes c policy limit world ⊆
        [.called (checkoutCall (plan.context config)), .dropped .checkout])
      (calls : callsOf (plan.notes c policy limit world) = [.checkout])

/-- **Every branch follows its history**, whatever its collaborators do, up to the call in which it
breaks down, if it does. -/
theorem ends : plan.Ends c policy limit world := by
  have hmended := plan.mended_or_stops c policy limit world
  have hcourse := plan.exists_course_or_awaits c.unbreaking_mended policy limit world
  -- The branch ends as the mended one does, or stops in one of its calls.
  obtain heq | ⟨hbroken, call, hstops⟩ := hmended
  · have hrun : plan.runWithin c.mended policy limit world =
        plan.runWithin c policy limit world := by
      rw [← plan.runWithin_erase c.mended, ← plan.runWithin_erase c, heq]
    have hnotes : plan.notes c.mended policy limit world = plan.notes c policy limit world :=
      congrArg (·.state.progress.world.notes) heq
    obtain ⟨steps, swept, last, h⟩ | ⟨config, h⟩ := hcourse
    · exact .follows ⟨h.course, hrun ▸ h.ending, hrun ▸ h.time, hrun ▸ h.events, hnotes ▸ h.notes⟩
    · refine .lost h.resolve (fun o ho => ?_) ?_ ?_
      · rw [← hrun, h.ending] at ho
        cases ho
      · rw [← hnotes, h.notes]
        exact List.subset_append_left [_] [_]
      · rw [← hnotes, h.notes]
        rfl
  · obtain ⟨steps, swept, last, h⟩ | ⟨config, h⟩ := hcourse
    · exact .stops h.course hbroken (h.notes ▸ hstops)
    · rw [h.notes] at hstops
      refine .lost h.resolve (fun o ho => ?_) ?_ ?_
      · rw [hbroken] at ho
        cases ho
      · obtain hsingle | hsingle := hstops.of_single <;> rw [hsingle]
        · exact List.subset_append_left [_] [_]
        · exact List.Subset.refl _
      · obtain hsingle | hsingle := hstops.of_single <;> rw [hsingle] <;> rfl

end BranchPlan

end Stagehand

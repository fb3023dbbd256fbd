import Stagehand.Proofs.Branch.Apart
import Stagehand.Proofs.Branch.Erasure
import Stagehand.Proofs.Branch.Running

/-!
# Watching branches side by side

Branches that share a world are watched by one observer each, who notes the calls for his axis
value. The notes stand beside the world, a list for each value, so that observed collaborators are
separate if the collaborators are (`Collaborators.separate_observed`); and what is noted of a branch
that is run alone is what is noted of it in a world of its own (`BranchPlan.runWithin_observed`).
-/

namespace Stagehand

open Rehearsal (Call CallNote)
open Timed

variable {ω α υ : Type}

/-! ## Notes for each axis value -/

/-- A world with the notes of one observer for each axis value. -/
structure NotedApart (ω : Type) where
  world : ω
  notes : String → List Note := fun _ => []

namespace NotedApart

/-- What the observer of an axis value has before him. -/
def seen (axis : String) (w : NotedApart ω) : Noted ω := ⟨w.world, w.notes axis⟩

def setSeen (axis : String) (seen : Noted ω) (w : NotedApart ω) : NotedApart ω :=
  ⟨seen.world, Function.update w.notes axis seen.notes⟩

theorem isPart_seen (axis : String) : IsPart (seen (ω := ω) axis) (setSeen axis) where
  part_setPart t w := by
    show (⟨t.world, Function.update w.notes axis t.notes axis⟩ : Noted ω) = t
    rw [Function.update_self]
  setPart_part w := by
    show (⟨w.world, Function.update w.notes axis (w.notes axis)⟩ : NotedApart ω) = w
    rw [Function.update_eq_self]
  setPart_setPart t t' w := by
    show (⟨t.world, Function.update (Function.update w.notes axis t'.notes) axis t.notes⟩ :
      NotedApart ω) = _
    rw [Function.update_idem]
    rfl

/-- The view of an axis value: that of the world, and its notes. -/
def viewed (view : String → ω → υ) (axis : String) (w : NotedApart ω) : υ × List Note :=
  (view axis w.world, w.notes axis)

theorem viewed_setSeen (view : String → ω → υ) (axis : String) (t : Noted ω) (w : NotedApart ω) :
    viewed view axis (setSeen axis t w) = (view axis t.world, t.notes) := by
  show (view axis t.world, Function.update w.notes axis t.notes axis) = _
  rw [Function.update_self]

theorem viewed_setSeen_of_ne (view : String → ω → υ) {axis axis' : String} (h : axis' ≠ axis)
    (t : Noted ω) (w : NotedApart ω) :
    viewed view axis' (setSeen axis t w) = (view axis' t.world, w.notes axis') := by
  show (view axis' t.world, Function.update w.notes axis t.notes axis') = _
  rw [Function.update_of_ne h]

/-- A call that is noted for its axis value. -/
def onSeen (ctx : BranchContext) (x : Timed (Noted ω) α) : Timed (NotedApart ω) α :=
  x.onPart (seen ctx.axis) (setSeen ctx.axis)

end NotedApart

/-- The collaborators, observed for each axis value apart. -/
def Collaborators.observed (c : Collaborators ω) : Collaborators (NotedApart ω) where
  checkout ctx := NotedApart.onSeen ctx (c.noted.checkout ctx)
  createRunner ctx limit := NotedApart.onSeen ctx (c.noted.createRunner ctx limit)
  runTest ctx target limit := NotedApart.onSeen ctx (c.noted.runTest ctx target limit)
  collectLogs ctx target limit := NotedApart.onSeen ctx (c.noted.collectLogs ctx target limit)
  cleanResources ctx target limit := NotedApart.onSeen ctx (c.noted.cleanResources ctx target limit)
  sendEmail ctx build limit := NotedApart.onSeen ctx (c.noted.sendEmail ctx build limit)
  copyArtifacts ctx target destination :=
    NotedApart.onSeen ctx (c.noted.copyArtifacts ctx target destination)

/-! ## Separate observers -/

section Separate

variable {view : String → ω → υ} {axis : String}

def Noted.SameView (view : String → ω → υ) (axis : String) (w w' : Noted ω) : Prop :=
  view axis w.world = view axis w'.world ∧ w.notes = w'.notes

theorem like_write (n : Note) :
    (Likeness.apart view axis).Like Noted.world (Noted.SameView view axis) (Noted.write n)
      (Noted.write n) :=
  (Likeness.apart view axis).like_modify fun _ _ hw =>
    ⟨⟨hw.1, by rw [Noted.add, Noted.add, hw.2]⟩, rfl⟩

theorem like_unseen {body : Timed ω α} (h : Isolated view axis body) :
    (Likeness.apart view axis).Like Noted.world (Noted.SameView view axis) (Noted.unseen body)
      (Noted.unseen body) :=
  (Likeness.apart view axis).like_onPart Noted.isPart_world Noted.isPart_world (fun _ _ hw => hw.1)
    (fun _ _ _ _ hw ht => ⟨ht, hw.2⟩) h

theorem like_watch (call : Call) {body : Timed ω α} (h : Isolated view axis body)
    (limit : Option Nat) :
    (Likeness.apart view axis).Like Noted.world (Noted.SameView view axis)
      (Noted.watch call body limit)
      (Noted.watch call body limit) := by
  let K := Likeness.apart view axis
  cases limit with
  | none => exact like_unseen h
  | some limit =>
    refine K.like_bind (fun w w' hw => ?_) fun answer => ?_
    · refine AlikeAt.whenAbandoned ?_ (K.like_within (limit * 1000) (like_unseen h) w w' hw)
      exact fun t t' ht => ⟨.refl view [axis] _, ht.1, congrArg (· ++ [Note.dropped call]) ht.2⟩
    · cases answer with
      | some a => exact K.like_pure a
      | none =>
        refine K.like_bind K.like_now fun time => K.like_bind (like_write _) fun _ => ?_
        exact fun w w' hw => alikeAt_hang hw

/-- Notes of a call that keeps to a view keep to it. -/
theorem like_noting (call : Call) (ctx : BranchContext) (note : CallNote → CallNote)
    (address : α → Option Network.Address) {body : Timed ω (RunResult α)}
    (h : Isolated view axis body) :
    (Likeness.apart view axis).Like Noted.world (Noted.SameView view axis)
      (Noted.noting call ctx note address body) (Noted.noting call ctx note address body) := by
  let K := Likeness.apart view axis
  refine K.like_bind K.like_now fun time => K.like_bind (like_write _) fun _ => ?_
  refine K.like_bind (like_watch call h _) fun result => K.like_bind K.like_now fun time => ?_
  exact K.like_bind (like_write _) fun _ => K.like_pure result

/-- An observer changes no notes but his own. -/
theorem isolated_onSeen {ctx : BranchContext} {x : Timed (Noted ω) α}
    (h : (Likeness.apart view ctx.axis).Like Noted.world (Noted.SameView view ctx.axis) x x) :
    Isolated (NotedApart.viewed view) ctx.axis (NotedApart.onSeen ctx x) := by
  refine fun w w' hw => AlikeAt.onViewedPart (NotedApart.isPart_seen ctx.axis)
    (NotedApart.isPart_seen ctx.axis) (fun _ _ hw => Prod.mk.inj hw) (fun w w' t t' _ ht => ?_)
    (fun w t hspares b hb => ?_)
    (h (w.seen ctx.axis) (w'.seen ctx.axis) (Prod.mk.inj hw)) rfl rfl hw
  · exact (NotedApart.viewed_setSeen view ctx.axis t w).trans
      ((Prod.ext ht.1 ht.2).trans (NotedApart.viewed_setSeen view ctx.axis t' w').symm)
  · have hne : b ≠ ctx.axis := fun heq => hb (List.mem_singleton.2 heq)
    exact (NotedApart.viewed_setSeen_of_ne view hne t w).trans (Prod.ext (hspares b hb) rfl)

/-- **Observed collaborators are separate**, if the collaborators are. -/
theorem Collaborators.separate_observed {c : Collaborators ω} (h : c.Separate view) :
    c.observed.Separate (NotedApart.viewed view) where
  checkout ctx :=
    isolated_onSeen (like_noting .checkout ctx id (fun _ => none) (h.checkout ctx))
  createRunner ctx limit :=
    isolated_onSeen (like_noting .createRunner ctx (fun n => { n with limit := some limit }) some
      (h.createRunner ctx limit))
  runTest ctx target limit :=
    isolated_onSeen (like_noting .runTest ctx
      (fun n => { n with limit := some limit, target := some target }) (fun _ => none)
      (h.runTest ctx target limit))
  collectLogs ctx target limit :=
    isolated_onSeen (like_noting .collectLogs ctx
      (fun n => { n with limit := some limit, target := some target }) (fun _ => none)
      (h.collectLogs ctx target limit))
  cleanResources ctx target limit :=
    isolated_onSeen (like_noting .cleanResources ctx
      (fun n => { n with limit := some limit, target := some target }) (fun _ => none)
      (h.cleanResources ctx target limit))
  sendEmail ctx build limit :=
    isolated_onSeen (like_noting .sendEmail ctx
      (fun n => { n with limit := some limit, build := some build }) (fun _ => none)
      (h.sendEmail ctx build limit))
  copyArtifacts ctx target destination :=
    isolated_onSeen (like_noting .copyArtifacts ctx
      (fun n => { n with target := some target, destination := some destination }) (fun _ => none)
      (h.copyArtifacts ctx target destination))

end Separate

/-! ## A branch alone -/

/-- What an observer sees of a call is the call, noted. -/
theorem runsAs_onSeen (ctx : BranchContext) (x : Timed (Noted ω) α) :
    RunsAs (fun w t => w.seen ctx.axis = t) (NotedApart.onSeen ctx x) x := by
  rintro deadline now w _ - rfl
  rw [NotedApart.onSeen, runUnder_onPart (NotedApart.isPart_seen ctx.axis)]
  exact .of_eq rfl rfl ((NotedApart.isPart_seen ctx.axis).part_setPart _ w)

theorem Collaborators.runAs_observed (c : Collaborators ω) (ctx : BranchContext) :
    Collaborators.RunAs (fun w t => w.seen ctx.axis = t) c.observed c.noted ctx where
  checkout := runsAs_onSeen ctx _
  createRunner _ _ := runsAs_bounded _ _ (runsAs_onSeen ctx _)
  runTest _ _ _ := runsAs_bounded _ _ (runsAs_onSeen ctx _)
  collectLogs _ _ _ := runsAs_bounded _ _ (runsAs_onSeen ctx _)
  cleanResources _ _ _ := runsAs_bounded _ _ (runsAs_onSeen ctx _)
  sendEmail _ _ _ := runsAs_bounded _ _ (runsAs_onSeen ctx _)
  copyArtifacts _ := runsAs_onSeen ctx _

/-- **Alone, an observed branch ends as the branch itself does**, and what is noted of it is what is
noted in a world of its own. -/
theorem BranchPlan.runWithin_observed (plan : BranchPlan) (c : Collaborators ω)
    (policy : SelectorPolicy) (limit : Option Nat) (world : ω) :
    (plan.runWithin c.observed policy limit { world }).ending =
        (plan.runWithin c policy limit world).ending ∧
      (plan.runWithin c.observed policy limit { world }).state.progress.world.notes plan.axis =
        plan.notes c policy limit world := by
  have hcalls : ∀ config, plan.params.resolve policy = .ok config →
      Collaborators.RunAs (fun w t => w.seen plan.axis = t) c.observed c.noted
        (plan.context config) :=
    fun config _ => c.runAs_observed (plan.context config)
  have hrun := runsAs_runBranch hcalls limit none 0 { progress := { world := { world } } }
    { progress := { world := ⟨world, []⟩ } } rfl ⟨⟨rfl, rfl, rfl⟩, rfl, rfl, rfl, rfl⟩
  have herase := plan.runWithin_erase c policy limit world
  refine ⟨?_, congrArg Noted.notes hrun.state.progress.world⟩
  rw [← herase]
  exact hrun.ending

end Stagehand

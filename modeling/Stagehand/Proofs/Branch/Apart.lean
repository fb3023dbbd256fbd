import Stagehand.Proofs.Branch.Likeness
import Stagehand.Proofs.Isolation
import Stagehand.Rehearsal.Collaborators

/-!
# Branches apart

Collaborators are **separate** if what they do for an axis value depends only on that value's view
of their world, and changes no other. They may share the world, take any time, fail, break down, or
never answer. A branch that is run with them keeps to its own view (`Separate.alike_runBranch`),
since keeping to a view is a likeness.

Those that follow a script are separate, though all of them write into one list of notes
(`Rehearsal.separate_collaborators`).
-/

namespace Stagehand

open Timed

variable {ω α β ι υ : Type}

/-! ## Keeping to a view -/

/-- Keeping to a view is a likeness. -/
def Likeness.apart (view : ι → ω → υ) (a : ι) : Likeness ω where
  Like world E x y := ∀ s s', E s s' → AlikeAt view a world E s s' x y
  like_pure r _ _ hs := .done r hs
  like_bind hx hf s s' hs := (hx s s' hs).andThen hf
  like_now _ _ hs := .look fun now => .done now hs
  like_modify h s s' hs := by
    obtain ⟨hrel, hworld⟩ := h s s' hs
    exact .look fun _ => .put (.of_eq hworld) hrel (.done () hrel)
  like_get_bind h s s' hs := .look fun _ => h s s' hs s s' hs
  like_within millis h s s' hs := .look fun now => (h s s' hs).cutAt (now + millis)
  like_onPart hp hp' hpart hset h s s' hs :=
    (h _ _ (hpart s s' hs)).onPart hp hp' hpart hset rfl rfl hs

/-- What an activity does depends on one view of the world only, and it changes no other. -/
def Timed.Isolated (view : ι → ω → υ) (a : ι) (x : Timed ω α) : Prop :=
  (Likeness.apart view a).LikeWorld (fun w w' => view a w = view a w') x x

section Rules

variable {view : ι → ω → υ} {a : ι}

theorem isolated_pure (r : α) : Isolated view a (pure r) := (Likeness.apart view a).like_pure r

theorem isolated_fail : Isolated view a (Timed.fail : Timed ω α) := fun _ _ hs => .broken hs

theorem isolated_now : Isolated view a Timed.now := (Likeness.apart view a).like_now

theorem isolated_bind {x : Timed ω β} {f : β → Timed ω α} (hx : Isolated view a x)
    (hf : ∀ b, Isolated view a (f b)) : Isolated view a (x >>= f) :=
  (Likeness.apart view a).like_bind hx hf

theorem isolated_modify {f : ω → ω}
    (hf : ∀ w w', view a w = view a w' → view a (f w) = view a (f w'))
    (hspares : ∀ w, KeepsBut view [a] w (f w)) : Isolated view a (Timed.modify f) :=
  fun w w' hw => .look fun _ => .put (hspares w) (hf w w' hw) (.done () (hf w w' hw))

theorem isolated_wait (millis : Nat) : Isolated view a (Timed.wait millis) := fun _ _ hw =>
  .look fun _ => .pause rfl (fun _ _ => rfl) (fun _ _ => rfl)
    (fun w _ hw => ⟨.refl view [a] w, hw⟩) hw
    fun _ _ ht => .done () ht

end Rules

/-! ## Separate collaborators -/

/-- Something holds of every call. -/
structure Collaborators.Each (c : Collaborators ω)
    (P : ∀ {α : Type}, BranchContext → Timed ω α → Prop) : Prop where
  checkout : ∀ ctx, P ctx (c.checkout ctx)
  createRunner : ∀ ctx limit, P ctx (c.createRunner ctx limit)
  runTest : ∀ ctx target limit, P ctx (c.runTest ctx target limit)
  collectLogs : ∀ ctx target limit, P ctx (c.collectLogs ctx target limit)
  cleanResources : ∀ ctx target limit, P ctx (c.cleanResources ctx target limit)
  sendEmail : ∀ ctx build limit, P ctx (c.sendEmail ctx build limit)
  copyArtifacts : ∀ ctx target destination, P ctx (c.copyArtifacts ctx target destination)

/-- What is done for an axis value depends on its view of the world only, and changes no other. -/
def Collaborators.Separate (view : String → ω → υ) (c : Collaborators ω) : Prop :=
  c.Each fun ctx x => Isolated view ctx.axis x

namespace Collaborators

theorem Separate.calls {view : String → ω → υ} {c : Collaborators ω} (h : c.Separate view)
    (ctx : BranchContext) : (Likeness.apart view ctx.axis).Calls
      (fun w w' => view ctx.axis w = view ctx.axis w') c c ctx :=
  Likeness.Steps.calls
    { checkout := h.checkout ctx
      createRunner := h.createRunner ctx
      runTest := h.runTest ctx
      collectLogs := h.collectLogs ctx
      cleanResources := h.cleanResources ctx
      sendEmail := h.sendEmail ctx
      copyArtifacts := fun target => h.copyArtifacts ctx target _ }

/-- **A branch keeps to the view of its axis value.** -/
theorem Separate.alike_runBranch {view : String → ω → υ} {c : Collaborators ω} (h : c.Separate view)
    (policy : SelectorPolicy) (limit : Option Nat) (plan : BranchPlan) {s s' : BranchState ω}
    (hs : s.Like (fun w w' => view plan.axis w = view plan.axis w') s') :
    AlikeAt view plan.axis (fun s => s.progress.world)
      (BranchState.Like fun w w' => view plan.axis w = view plan.axis w') s s'
      (runBranch c policy limit plan) (runBranch c policy limit plan) := by
  have hlike : (Likeness.apart view plan.axis).LikeState
      (fun w w' => view plan.axis w = view plan.axis w') (runBranch c policy limit plan)
      (runBranch c policy limit plan) :=
    Likeness.like_runBranch (fun config _ => h.calls (plan.context config)) limit
  exact hlike s s' hs

end Collaborators

/-! ## Scripts -/

namespace Rehearsal

/-- What was noted for an axis value. -/
def notesOf (axis : String) (notes : List CallNote) : List CallNote :=
  notes.filter fun n => n.context.axis == axis

theorem isolated_answer (script : List CallRule) (call : Call) (ctx : BranchContext)
    (note : CallNote → CallNote) (value : Response → α)
    (hnote : ∀ n, (note n).context = n.context) :
    Isolated notesOf ctx.axis (answer script call ctx note value) := by
  refine isolated_bind isolated_now fun time => isolated_bind (isolated_modify ?_ ?_) fun _ => ?_
  · intro notes notes' h
    rw [notesOf, notesOf, List.filter_append, List.filter_append]
    exact congrArg (· ++ _) h
  · intro notes axis haxis
    rw [List.mem_singleton] at haxis
    rw [notesOf, List.filter_append, List.filter_singleton, hnote,
      beq_eq_false_iff_ne.2 (Ne.symm haxis)]
    exact List.append_nil _
  · refine isolated_bind (isolated_wait _) fun _ => ?_
    split
    · exact isolated_fail
    · split <;> exact isolated_pure _

/-- **Collaborators that follow a script are separate**, though they share their notes. -/
theorem separate_collaborators (script : List CallRule) :
    (collaborators script).Separate notesOf where
  checkout ctx := isolated_answer script .checkout ctx id (fun _ => ()) fun _ => rfl
  createRunner ctx limit :=
    isolated_answer script .createRunner ctx (fun n => { n with limit := some limit })
      (·.address) fun _ => rfl
  runTest ctx target limit :=
    isolated_answer script .runTest ctx
      (fun n => { n with limit := some limit, target := some target }) (fun _ => ()) fun _ => rfl
  collectLogs ctx target limit :=
    isolated_answer script .collectLogs ctx
      (fun n => { n with limit := some limit, target := some target }) (fun _ => ()) fun _ => rfl
  cleanResources ctx target limit :=
    isolated_answer script .cleanResources ctx
      (fun n => { n with limit := some limit, target := some target }) (fun _ => ()) fun _ => rfl
  sendEmail ctx build limit :=
    isolated_answer script .sendEmail ctx
      (fun n => { n with limit := some limit, build := some build }) (fun _ => ()) fun _ => rfl
  copyArtifacts ctx target destination :=
    isolated_answer script .copyArtifacts ctx
      (fun n => { n with target := some target, destination := some destination })
      (fun _ => ()) fun _ => rfl

end Rehearsal

end Stagehand

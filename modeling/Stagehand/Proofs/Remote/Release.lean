import Mathlib.Data.List.Infix
import Stagehand.Proofs.Remote.Agent

/-!
# When a key agent is released

An agent is released when its kill comes to its own end, as a success or a failure, or is left
behind for when nothing else can go on. Whoever uses a runner may be dropped at any instant, and an
agent that has started is released all the same, **but for the time in which it is being killed**:
from the instant at which the kill is issued nothing is left behind any more, so a kill that is
dropped is the last.

Main result: `Dispatcher.released_unless_killing`.
-/

namespace Stagehand

open Timed KeyAgent Host

variable {τ α : Type} {e : Executor τ}

/-- The command that is seen to be answered, if one is. -/
def Sighting.answered? : Sighting → Option CommandSpec
  | issued _ => none
  | answered c _ => some c

namespace Host

/-- A kill of the agent was issued and answered, or was left behind to be issued. -/
def HasReleased (w : Host (Watched τ)) (a : KeyAgent) : Prop :=
  (∃ kill answer, a.IsKilledBy kill ∧ [.issued kill, .answered kill answer] <:+: w.tools.seen) ∨
    ∃ kill ∈ w.leftBehind, a.IsKilledBy kill

/-- A kill of the agent was issued last, and has no answer. -/
def IsKilling (w : Host (Watched τ)) (a : KeyAgent) : Prop :=
  ∃ kill, a.IsKilledBy kill ∧ w.tools.seen.getLast? = some (.issued kill)

/-- All agents that were seen to start are released, but for one that the use was
dropped in killing. -/
def ReleasesBut (simulated : Bool) (ended : Ended (Host (Watched τ)) α) : Prop :=
  ∀ a, ended.state.startedAgent? simulated = some a →
    (ended.state.HasReleased a ↔ ¬ (ended.ending = .cut ∧ ended.state.IsKilling a))

variable {simulated : Bool} {w : Host (Watched τ)} {a b : KeyAgent}

theorem mem_seenCommands_of_mem {c : CommandSpec} (h : .issued c ∈ w.tools.seen) :
    c ∈ w.seenCommands :=
  List.mem_filterMap.2 ⟨.issued c, h, rfl⟩

theorem Holds.not_mem_seen (h : Holds simulated (some b) w) {kill : CommandSpec}
    (hkill : a.IsKilledBy kill) : .issued kill ∉ w.tools.seen :=
  fun hmem => h.unkilled kill (mem_seenCommands_of_mem hmem) hkill.isKill

theorem Completed.hasReleased (h : Completed simulated w)
    (hstarted : w.startedAgent? simulated = some a) : w.HasReleased a := by
  cases h with
  | unstarted h =>
    rw [h.started] at hstarted
    cases hstarted
  | @killed b before answer h hseen hleft =>
    obtain rfl : b = a := Option.some.inj ((h.started_append hseen).symm.trans hstarted)
    refine .inl ⟨b.kill, answer, b.isKilledBy_kill, ?_⟩
    rw [hseen]
    exact (List.suffix_append _ _).isInfix

/-- A use that was given up released its agent, unless it was killing it. -/
theorem GivenUp.hasReleased_iff (h : GivenUp simulated w)
    (hstarted : w.startedAgent? simulated = some a) : w.HasReleased a ↔ ¬ w.IsKilling a := by
  cases h with
  | unstarted h =>
    rw [h.started] at hstarted
    cases hstarted
  | @left b before h heq =>
    subst heq
    obtain rfl : b = a := Option.some.inj (h.started.symm.trans hstarted)
    have hreleased : (before.leave b.kill).HasReleased b :=
      .inr ⟨b.kill, List.mem_append_right _ List.mem_cons_self, b.isKilledBy_kill⟩
    refine iff_of_true hreleased ?_
    rintro ⟨kill, hkill, hlast⟩
    exact h.not_mem_seen hkill (List.mem_of_getLast? hlast)
  | @killing b before h hseen hleft =>
    obtain rfl : b = a := Option.some.inj ((h.started_append hseen).symm.trans hstarted)
    have hkilling : w.IsKilling b := ⟨b.kill, b.isKilledBy_kill, by simp [hseen]⟩
    refine iff_of_false ?_ (not_not_intro hkilling)
    rintro (⟨kill, answer, hkill, hin⟩ | ⟨kill, hmem, -⟩)
    · -- An answered kill would have been issued before the last one.
      rw [hseen, List.infix_concat_iff] at hin
      rcases hin with hsuffix | hin
      · have hends : [Sighting.issued kill, .answered kill answer].getLast? =
            (before.tools.seen ++ [Sighting.issued b.kill]).getLast? := by
          obtain ⟨front, heq⟩ := hsuffix
          rw [← heq, List.getLast?_append]
          rfl
        simp at hends
      · exact h.not_mem_seen hkill (hin.subset List.mem_cons_self)
    · rw [hleft] at hmem
      cases hmem

/-- What a use can come to, and what it was cut in, decide on the release. -/
theorem releasesBut_of_reaches {x : Timed (Host (Watched τ)) α} {drop : Option Nat} {now : Nat}
    {w : Host (Watched τ)} (h : x.Reaches drop now w (fun _ _ w => Completed simulated w)
      fun _ w => GivenUp simulated w) : ReleasesBut simulated (x.runUnder drop now w) := by
  revert h
  unfold Timed.Reaches
  rcases x.runUnder drop now w with ⟨answer | _ | _, time, w'⟩
  · intro h a hstarted
    have hended : ¬ (Ending.done answer = .cut ∧ w'.IsKilling a) := by
      rintro ⟨⟨⟩, -⟩
    exact iff_of_true (Completed.hasReleased h hstarted) hended
  · intro h a hstarted
    have hcut := GivenUp.hasReleased_iff h hstarted
    simpa using hcut
  · exact False.elim

end Host

/-- **An agent is released, unless its use is dropped while it is being killed.** Whatever commands
are answered and whenever the use of a runner is dropped: of an agent that has started a kill comes
to its own end or is left behind, except if the use was dropped after the kill was issued and before
it was answered. Then there is no other one. -/
theorem Dispatcher.released_unless_killing (d : Dispatcher) (c : CommandSpec)
    (host : Network.Address) (limit : Option Nat) (there here : String) (he : e.Orderly)
    {w : Host (Watched τ)}
    (hseen : w.tools.seen = []) (hleft : w.leftBehind = []) (drop : Option Nat) (now : Nat) :
    ReleasesBut e.simulated ((d.dispatch e.watched c (.remote host) limit).runUnder drop now w) ∧
      ReleasesBut e.simulated ((d.fetch e.watched host there here).runUnder drop now w) :=
  ⟨releasesBut_of_reaches (d.reaches_dispatch he c host limit hseen hleft),
    releasesBut_of_reaches (d.reaches_fetch he host there here hseen hleft)⟩

/-! ### A kill that takes its time -/

/-- The agent prints where it is, and takes ten seconds to be killed. -/
def slowKill : List Rehearsal.CommandRule :=
  [{ program := some "ssh-agent", contains := some "-k", delay := 10 },
   { program := some "ssh-agent"
     output :=
       { stdout := "SSH_AUTH_SOCK=/tmp/a.sock;\nSSH_AGENT_PID=41;\n", exitCode := some 0 } }]

/-- A use of a runner under that agent, dropped at some time. -/
def slowKillUse (drop : Option Nat) :
    Ended (Host (Watched Rehearsal.CommandLog)) (RunResult CommandOutput) :=
  (oneKeyDispatcher.dispatch (Rehearsal.executor false slowKill).watched (command "./sct.py")
    (.remote ⟨10, 0, 0, 9⟩) none).runUnder drop 0 sshHost

theorem Dispatcher.released_unless_killing_slowKill :
    (slowKillUse none).state.startedAgent? false = some ⟨"/tmp/a.sock", "41"⟩ ∧
      (slowKillUse none).state.HasReleased ⟨"/tmp/a.sock", "41"⟩ := by
  have hreleases : ReleasesBut false (slowKillUse none) :=
    (oneKeyDispatcher.released_unless_killing (command "./sct.py") ⟨10, 0, 0, 9⟩ none "latest/"
      "artifacts" (Rehearsal.orderly_executor false slowKill) (w := sshHost) rfl rfl none 0).1
  have hrun : (slowKillUse none).state.startedAgent? false = some ⟨"/tmp/a.sock", "41"⟩ ∧
      (slowKillUse none).state.tools.seen.getLast?.bind Sighting.issued? = none := by
    decide +kernel
  obtain ⟨hstarted, hlast⟩ := hrun
  refine ⟨hstarted, (hreleases _ hstarted).2 ?_⟩
  rintro ⟨-, kill, -, hkilling⟩
  have hissued : (slowKillUse none).state.tools.seen.getLast? = some (.issued kill) := hkilling
  rw [hissued] at hlast
  cases hlast

/-- Dropped after five seconds of the kill, the use leaves an agent that nothing ends. -/
theorem Dispatcher.unreleased_slowKill :
    (slowKillUse (some 5000)).state.startedAgent? false = some ⟨"/tmp/a.sock", "41"⟩ ∧
      ¬ (slowKillUse (some 5000)).state.HasReleased ⟨"/tmp/a.sock", "41"⟩ := by
  have hrun : (slowKillUse (some 5000)).state.startedAgent? false = some ⟨"/tmp/a.sock", "41"⟩ ∧
      (∀ c ∈ (slowKillUse (some 5000)).state.tools.seen.filterMap Sighting.answered?,
        c.args ≠ ["-k"]) ∧
      (slowKillUse (some 5000)).state.leftBehind = [] := by
    decide +kernel
  obtain ⟨hstarted, hunanswered, hleft⟩ := hrun
  refine ⟨hstarted, ?_⟩
  rintro (⟨kill, answer, hkill, hin⟩ | ⟨kill, hmem, -⟩)
  · have hmem : kill ∈ (slowKillUse (some 5000)).state.tools.seen.filterMap Sighting.answered? :=
      List.mem_filterMap.2 ⟨.answered kill answer, hin.subset (by simp), rfl⟩
    exact hunanswered kill hmem hkill.isKill.2
  · rw [hleft] at hmem
    cases hmem

end Stagehand

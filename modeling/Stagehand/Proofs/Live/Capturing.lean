import Stagehand.Live.Executor
import Stagehand.Proofs.Live.Hearing
import Stagehand.Proofs.Timed

/-!
# What is captured of a command

A command is followed until its process has ended and its output is over. All the while the world is
listened to (`reaches_follow`), and the taps of the process were new when it started
(`heardAt_start`), so that they hold what the log says of its pipes.

Main result: the lines that are given on are those that the command writes, and the captured text
is these lines without the empty ones at the start (`runLimited_captures`).
-/

namespace Stagehand.Live

variable {κ α : Type} {tell : Bool → String → κ → κ}

/-! ## Following a process -/

theorem advanced_listens (tell : Bool → String → κ → κ) (now : Nat) (h : Host (World κ)) :
    ∃ log, Listens tell h.tools log (advanced tell now h).tools := by
  obtain ⟨log, hlog⟩ :=
    advance_listens tell (now * 1000) followBound (h.tools.onFiles h.files)
  exact ⟨_, .trans (.goes (.files h.files h.tools.system)) hlog⟩

theorem reaches_follow (id : Nat) (seen? : World κ → Option α) (fuel : Nat) {deadline : Option Nat}
    {now : Nat} {h : Host (World κ)} :
    (follow tell id seen? fuel).Reaches deadline now h
      (fun a _ h' => seen? h'.tools = some a ∧ ∃ log, Listens tell h.tools log h'.tools)
      fun _ _ => True := by
  induction fuel generalizing now h with
  | zero => exact Timed.reaches_hang.2 trivial
  | succ fuel ih =>
    rw [follow, Timed.reaches_look, Timed.reaches_put]
    obtain ⟨log, hlog⟩ := advanced_listens tell now h
    split
    · next a hseen => exact (Timed.reaches_pure a).2 ⟨hseen, log, hlog⟩
    · have hnext : ∀ time, (follow tell id seen? fuel).Reaches deadline time (advanced tell now h)
          (fun a _ h' => seen? h'.tools = some a ∧ ∃ log, Listens tell h.tools log h'.tools)
          fun _ _ => True := fun time =>
        ih.mono (fun a _ h' ⟨hseen, more, hmore⟩ => ⟨hseen, _, hlog.trans hmore⟩) fun _ _ h => h
      exact Timed.reaches_pause_of_next (hnext now) hnext fun _ _ => trivial

/-! ## Captured output -/

/-- What was captured at a pipe, beside what the log says of it. The lines that were given on
are those of the bytes; if these are text, they are all that came, and the lines are those
that were written. -/
structure Captures (log : List Remark) (pipe : Nat) (isError : Bool) (text : String) : Prop where
  isError : ∀ r ∈ log, r.pipe = pipe → r.isError = isError
  lines : linesFrom pipe log = lines (bytesFrom pipe log)
  written : ∀ texts, Writes (bytesFrom pipe log) texts →
    linesFrom pipe log = texts ∧ isOver pipe log = true
  writes : ∀ cs, bytesFrom pipe log = bytesOf cs → Writes (bytesFrom pipe log) (linesFrom pipe log)
  text : CapturedFrom (linesFrom pipe log) text

/-- At a tap that has heard nothing before, all is captured that the log says. -/
theorem HeardAt.captures {w w' : World κ} {log : List Remark} {pipe : Nat} {isError : Bool}
    {text : String} (h : HeardAt w pipe isError [] false []) (hl : Listens tell w log w')
    (htext : w'.captured? pipe = some text) : Captures log pipe isError text := by
  obtain ⟨herror, hat⟩ := h.listens hl
  obtain ⟨t, hfind, rfl⟩ := Option.map_eq_some_iff.1 htext
  obtain ⟨hpipe, hclosed⟩ : t.pipe = pipe ∧ t.isOpen = false := by
    simpa using List.find?_some hfind
  have hheard := (hat t (List.mem_of_find?_eq_some hfind) hpipe).2
  rw [List.nil_append, List.nil_append, Bool.false_or] at hheard
  have hlines := hheard.lines_of_closed hclosed
  refine ⟨herror, hlines, fun texts h => ?_, fun cs h => ?_, ?_⟩
  · have htold : linesFrom pipe log = texts := hlines.trans (lines_of_writes h)
    refine ⟨htold, (hheard.isEnd_of_closed hclosed).resolve_right fun hless => ?_⟩
    rw [length_rawLines_of_writes h, htold] at hless
    exact Nat.lt_irrefl _ hless
  · rw [hlines, h]
    exact writes_lines cs
  · rw [hheard.text]
    exact capturedFrom fun s hs => not_mem_of_mem_lines (hlines ▸ hs)

/-- A process that was started, with the pipes of its output, was listened to until that ended,
and then forgotten. -/
structure Overheard (tell : Bool → String → κ → κ) (started : (Nat × Nat × Nat) × World κ)
    (log : List Remark) (out : CommandOutput) (w : World κ) : Prop where
  listens : ∃ v, Listens tell started.2 log v ∧
    w = v.forget started.1.1 [started.1.2.1, started.1.2.2]
  console : w.console = tellAll tell log started.2.console
  stdout : Captures log started.1.2.1 false out.stdout
  stderr : Captures log started.1.2.2 true out.stderr

section Start

variable {shell : Shell.ShellState} {place : List String} {path : String} {argv : List String}
  {w : World κ}

theorem taps_start : (w.start shell place path argv).2.taps = w.taps ++
    [{ pipe := (w.start shell place path argv).1.2.1, isError := false },
      { pipe := (w.start shell place path argv).1.2.2, isError := true }] := rfl

theorem pipes_start : (w.start shell place path argv).1.2 =
    (w.system.machine.streams.size + 1, w.system.machine.streams.size + 3) := rfl

theorem heardAt_start (hfresh : ∀ t ∈ w.taps, t.pipe < w.system.machine.streams.size) :
    HeardAt (w.start shell place path argv).2 (w.start shell place path argv).1.2.1
        false [] false [] ∧
      HeardAt (w.start shell place path argv).2 (w.start shell place path argv).1.2.2
        true [] false [] := by
  refine ⟨fun t ht hpipe => ?_, fun t ht hpipe => ?_⟩ <;>
    rw [taps_start, List.mem_append, List.mem_pair] at ht <;> rw [pipes_start] at hpipe ht
  · rcases ht with ht | rfl | rfl
    · exact absurd (hfresh t ht) (by omega)
    · exact ⟨rfl, Tap.heard_nothing _ _⟩
    · simp at hpipe
  · rcases ht with ht | rfl | rfl
    · exact absurd (hfresh t ht) (by omega)
    · simp at hpipe
    · exact ⟨rfl, Tap.heard_nothing _ _⟩

/-- When a process is forgotten the taps are left that were there before it. -/
theorem pipes_forget (hfresh : ∀ t ∈ w.taps, t.pipe < w.system.machine.streams.size)
    {log : List Remark} {v : World κ} (h : Listens tell (w.start shell place path argv).2 log v)
    (id : Nat) :
    (v.forget id
      [(w.start shell place path argv).1.2.1, (w.start shell place path argv).1.2.2]).taps.map
      Tap.pipe = w.taps.map Tap.pipe := by
  have hforget : ∀ pipes : List Nat, (v.forget id pipes).taps.map Tap.pipe =
      (v.taps.map Tap.pipe).filter fun n => !pipes.contains n := by
    intro pipes
    rw [List.filter_map]
    rfl
  rw [hforget, h.pipes, taps_start, List.map_append, List.filter_append, pipes_start]
  have hold : ∀ n ∈ w.taps.map Tap.pipe, n < w.system.machine.streams.size :=
    List.forall_mem_map.2 hfresh
  rw [List.filter_eq_self.2 fun n hn => ?_]
  · simp
  · have := hold n hn
    simp
    omega

end Start

/-- A process is listened to while its end is awaited, be it under a limit. -/
theorem reaches_awaited (id : Nat) (millis : Option Nat) {now : Nat} {h : Host (World κ)} :
    (match millis with
      | some millis => Timed.within millis (follow tell id (·.ending? id) followBound)
      | none => some <$> follow tell id (·.ending? id) followBound).Reaches none now h
      (fun e _ h' => e.isSome → ∃ log, Listens tell h.tools log h'.tools) fun _ _ => True := by
  cases millis with
  | none =>
    show (follow tell id (·.ending? id) followBound >>= fun e => pure (some e)).Reaches _ _ _ _ _
    rw [Timed.reaches_bind]
    exact (reaches_follow id _ _).mono
      (fun _ _ _ hfollow => (Timed.reaches_pure _).2 fun _ => hfollow.2)
      fun _ _ h => h
  | some millis =>
    rw [Timed.reaches_within millis _ rfl]
    refine (reaches_follow id _ _).mono (fun _ _ _ hfollow _ => hfollow.2) fun _ _ _ => ?_
    exact fun hnone => nomatch hnone

theorem reaches_runLimited (env : NameMap String) (c : CommandSpec)
    (millis : Option Nat) {now : Nat} {h : Host (World κ)}
    (hfresh : ∀ t ∈ h.tools.taps, t.pipe < h.tools.system.machine.streams.size) :
    (runLimited env tell c millis).Reaches none now h
      (fun r _ h' => ∀ out, r = .ok out → h'.tools.taps.map Tap.pipe = h.tools.taps.map Tap.pipe ∧
        ∃ p, ready env { h.tools.system.machine with files := h.files } h.cwd c = .ok p ∧
          ∃ log, Overheard tell
            ((h.tools.onFiles h.files).start p.shell p.place p.path p.argv) log out
            h'.tools)
      fun _ _ => True := by
  rw [runLimited, Timed.reaches_bind, Timed.reaches_get]
  split
  · exact (Timed.reaches_pure _).2 fun _ h => nomatch h
  · next p hp =>
    rw [Timed.reaches_bind, Timed.reaches_modifyGet]
    have hold : ∀ t ∈ (h.tools.onFiles h.files).taps,
        t.pipe < (h.tools.onFiles h.files).system.machine.streams.size := hfresh
    obtain ⟨hout, herrs⟩ := @heardAt_start _ p.shell p.place p.path p.argv _ hold
    have hpipes := @pipes_forget _ tell p.shell p.place p.path p.argv _ hold
    -- From here on only what is known of the start is used, not how it is computed.
    generalize hstart : (h.tools.onFiles h.files).start p.shell p.place p.path p.argv = start
      at hout herrs hpipes
    obtain ⟨⟨id, out, errs⟩, w⟩ := start
    dsimp only
    rw [hstart]
    dsimp only
    rw [Timed.reaches_bind]
    refine (reaches_awaited id millis).mono (fun ending time h' hlog => ?_) fun _ _ h => h
    cases ending with
    | none => exact (Timed.reaches_pure _).2 fun _ h => nomatch h
    | some e =>
      obtain ⟨log, hlog⟩ := hlog rfl
      rw [Timed.reaches_bind]
      refine (reaches_follow id _ _).mono (fun texts time h'' hfollow => ?_) fun _ _ h => h
      obtain ⟨htexts, more, hmore⟩ := hfollow
      rw [Timed.reaches_bind, Timed.reaches_modify, Timed.reaches_pure]
      rintro _ ⟨⟩
      obtain ⟨stdout, hstdout, stderr, hstderr, ⟨⟩⟩ :
          ∃ stdout, h''.tools.captured? out = some stdout ∧
            ∃ stderr, h''.tools.captured? errs = some stderr ∧
            some (stdout, stderr) = some texts := by
        simpa [Option.bind_eq_some_iff] using htexts
      have hall := hlog.trans hmore
      refine ⟨hpipes hall id, p, hp, log ++ more, ?_⟩
      rw [hstart]
      exact ⟨⟨_, hall, rfl⟩, hall.console, hout.captures hall hstdout, herrs.captures hall hstderr⟩

/-- **What is captured of a command** is what its process writes, line by line. The lines that are
given on are those that it writes, none lost or merged. The captured text is these lines one below
the other, without the empty ones at the start; so it is that of all lines, and tells them apart,
exactly if the first line is not empty or is the only one. The taps that are there listen to older
pipes, and none but these are left. -/
theorem runLimited_captures (env : NameMap String) (tell : Bool → String → κ → κ) (c : CommandSpec)
    (millis deadline : Option Nat) (now : Nat) {h : Host (World κ)} {out : CommandOutput}
    (hfresh : ∀ t ∈ h.tools.taps, t.pipe < h.tools.system.machine.streams.size)
    (hrun : ((runLimited env tell c millis).runUnder deadline now h).ending = .done (.ok out)) :
    ((runLimited env tell c millis).runUnder deadline now h).state.tools.taps.map Tap.pipe =
        h.tools.taps.map Tap.pipe ∧
      ∃ p, ready env { h.tools.system.machine with files := h.files } h.cwd c = .ok p ∧
        ∃ log, Overheard tell
          ((h.tools.onFiles h.files).start p.shell p.place p.path p.argv) log out
          ((runLimited env tell c millis).runUnder deadline now h).state.tools := by
  have hnone := Timed.runUnder_none_of_done hrun
  rw [← hnone] at hrun ⊢
  exact (reaches_runLimited env c millis hfresh).of_ending hrun out rfl

/-! ### A file that begins with an empty line -/

/-- A host with a file that begins with an empty line, and a program that prints it. -/
def catHost : Host (World (List (Bool × String))) where
  files :=
    ((FileTree.empty.put ["bin"] .bareDir).put ["bin", "cat"] (.file ByteArray.empty true)).put
    ["t"] (.file ⟨#[10, 97, 10]⟩ false)
  tools := World.still [(["bin", "cat"], .cat)] []

/-- The run that prints the file, and notes the lines that are given on. -/
def catRun : Timed (Host (World (List (Bool × String)))) (RunResult CommandOutput) :=
  runLimited NameMap.empty (fun isError line notes => notes ++ [(isError, line)])
    { program := "/bin/cat", args := ["t"] } none

/-- What a run has captured. -/
def output? : Ending (RunResult CommandOutput) → Option CommandOutput
  | .done (.ok out) => some out
  | _ => none

theorem eq_of_output? {e : Ending (RunResult CommandOutput)} {out : CommandOutput}
    (h : output? e = some out) : e = .done (.ok out) := by
  revert h
  rcases e with (_ | _) | _ | _ <;> simp [output?]

theorem catRun_ends : (catRun.runUnder none 0 catHost).ending =
    .done (.ok { stdout := "a", stderr := "", exitCode := some 0 }) :=
  eq_of_output? (by decide +kernel)

/-- The empty line is given on, and is missing in what is captured. -/
theorem runLimited_captures_file :
    (∀ t ∈ catHost.tools.taps, t.pipe < catHost.tools.system.machine.streams.size) ∧
      (catRun.runUnder none 0 catHost).ending =
        .done (.ok { stdout := "a", stderr := "", exitCode := some 0 }) ∧
      ∃ log, (catRun.runUnder none 0 catHost).state.tools.console =
          tellAll (fun isError line notes => notes ++ [(isError, line)]) log [] ∧
        Captures log 1 false "a" ∧ Captures log 3 true "" := by
  have hfresh : ∀ t ∈ catHost.tools.taps, t.pipe < catHost.tools.system.machine.streams.size := by
    rintro t ⟨⟩
  obtain ⟨-, p, -, log, hall⟩ := runLimited_captures _ _ _ _ _ _ hfresh catRun_ends
  exact ⟨hfresh, catRun_ends, log, hall.console, hall.stdout, hall.stderr⟩

/-- The captured text is not that of the lines that were given on, and does not give them back. -/
theorem catRun_lacks_line : (catRun.runUnder none 0 catHost).ending =
      .done (.ok { stdout := "a", stderr := "", exitCode := some 0 }) ∧
    (catRun.runUnder none 0 catHost).state.tools.console = [(false, ""), (false, "a")] ∧
    "a" ≠ Text.joinWith "\n" ["", "a"] ∧ Text.split (· == '\n') "a" ≠ ["", "a"] :=
  ⟨catRun_ends, by decide +kernel, by decide +kernel, by decide +kernel⟩

end Stagehand.Live

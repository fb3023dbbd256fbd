import Stagehand.Live.World
import Stagehand.Proofs.Live.Lines

/-!
# What is heard of processes

A tap hears the output of a process in pieces, as they come, and gives each line on when it has its
end. It does not matter where the pieces end: once it is closed, a tap has given on the lines of
all bytes together (`Tap.Heard.take`).

A world that goes on keeps a log of what was heard at which pipe (`Listens`). The invariant is
`HeardAt`: what the taps at a pipe hold is what the log says of that pipe, whatever else was
heard in between (`HeardAt.listens`).
-/

namespace Stagehand.Live

open Shell (Machine System)

/-! ## One tap -/

namespace Tap

/-- The tap has heard bytes, possibly up to their end, and given lines on. While it is open, these
are the lines that have their ends, and all of them are text. -/
structure Heard (t : Tap) (bytes : List UInt8) (isEnd : Bool) (told : List String) : Prop where
  text : t.text = captured told
  lines_of_closed : t.isOpen = false → told = lines bytes
  isEnd_of_closed : t.isOpen = false → isEnd = true ∨ told.length < (rawLines bytes).length
  ended_of_open : t.isOpen = true → ∃ ended : List (List UInt8),
    (∀ line ∈ ended, IsEndedLine line) ∧ 10 ∉ t.rest ∧ bytes = ended.flatten ++ t.rest ∧
      told = readable ended ∧ (readable ended).length = ended.length

variable {t : Tap} {bytes more rest : List UInt8} {isEnd : Bool} {told : List String}
  {new : List (List UInt8)}

@[simp] theorem take_pipe (t : Tap) (bytes : List UInt8) (isEnd : Bool) :
    (t.take bytes isEnd).2.pipe = t.pipe := rfl

theorem heard_nothing (pipe : Nat) (isError : Bool) : Heard { pipe, isError } [] false [] where
  text := rfl
  lines_of_closed := by rintro ⟨⟩
  isEnd_of_closed := by rintro ⟨⟩
  ended_of_open := fun _ => ⟨[], by simp, by simp, rfl, rfl, rfl⟩

/-- The lines that are given on when bytes fall into `new` lines and a rest. -/
def due (new : List (List UInt8)) (rest : List UInt8) (isEnd : Bool) : List (List UInt8) :=
  if isEnd then new ++ lastLine rest else new

theorem take_eq (hnew : ∀ line ∈ new, IsEndedLine line) (hrest : 10 ∉ rest)
    (h : t.rest ++ more = new.flatten ++ rest) (isEnd : Bool) :
    t.take more isEnd =
      (readable (due new rest isEnd),
        { t with
          rest
          text := (readable (due new rest isEnd)).foldl addLine t.text
          isOpen := !isEnd && (readable (due new rest isEnd)).length ==
            (due new rest isEnd).length }) := by
  have hraw : rawLines (t.rest ++ more) = new ++ lastLine rest := by
    rw [h, rawLines_flatten_append hnew, rawLines_of_not_mem hrest]
  simp only [take, hraw, flatten_filter_not_isEnded hnew hrest, filter_isEnded hnew hrest, due]

/-- What a tap takes it has heard, and the lines that it takes are given on. -/
theorem Heard.take (h : t.Heard bytes isEnd told) (hopen : t.isOpen = true) (more : List UInt8)
    (isLast : Bool) : (t.take more isLast).2.Heard (bytes ++ more) (isEnd || isLast)
      (told ++ (t.take more isLast).1) := by
  obtain ⟨ended, hended, -, rfl, rfl, hall⟩ := h.ended_of_open hopen
  obtain ⟨new, rest, hnew, hrest, heq⟩ := exists_ended_append (t.rest ++ more)
  have hboth : ∀ line ∈ ended ++ new, IsEndedLine line := List.forall_mem_append.2 ⟨hended, hnew⟩
  have hbytes : ended.flatten ++ t.rest ++ more = (ended ++ new).flatten ++ rest := by
    rw [List.append_assoc, heq, List.flatten_append, List.append_assoc]
  have hraw : rawLines ((ended ++ new).flatten ++ rest) = ended ++ new ++ lastLine rest := by
    rw [rawLines_flatten_append hboth, rawLines_of_not_mem hrest]
  rw [take_eq hnew hrest heq, hbytes, ← readable_append hall]
  have htext : (readable (due new rest isLast)).foldl addLine t.text =
      captured (readable (ended ++ due new rest isLast)) := by
    rw [readable_append hall, captured, List.foldl_append, ← captured, ← h.text]
  cases isLast with
  | true =>
    refine ⟨htext, fun _ => ?_, fun _ => .inl (Bool.or_true isEnd), by rintro ⟨⟩⟩
    rw [lines, hraw, List.append_assoc]
    rfl
  | false =>
    refine ⟨htext, fun hclosed => ?_, fun hclosed => .inr ?_, fun hopen => ?_⟩
    -- The output goes on, so the tap has closed at a line that is no text; nothing behind counts.
    · have hstop : (readable new).length ≠ new.length := by simpa [due] using hclosed
      rw [lines, hraw, List.append_assoc, readable_append hall, readable_append hall,
        readable_append_of_ne hstop]
      rfl
    · have hstop : (readable new).length ≠ new.length := by simpa [due] using hclosed
      have hless := Nat.lt_of_le_of_ne (length_readable_le new) hstop
      rw [hraw, readable_append hall, List.length_append, List.length_append,
        List.length_append, hall]
      exact Nat.lt_add_right _ (Nat.add_lt_add_left hless _)
    · have hmore : (readable new).length = new.length := by simpa [due] using hopen
      refine ⟨ended ++ new, hboth, hrest, rfl, rfl, ?_⟩
      rw [readable_append hall, List.length_append, hall, hmore, List.length_append]

end Tap

/-! ## Remarks -/

/-- What was heard at a pipe at once. -/
structure Remark where
  pipe : Nat
  isError : Bool
  bytes : List UInt8
  /-- The output ended there: nothing was left in the pipe, and no process could write to
  it any more. -/
  isEnd : Bool
  /-- The lines that were given on. -/
  lines : List String

/-- The bytes that came out of a pipe. -/
def bytesFrom (pipe : Nat) (log : List Remark) : List UInt8 :=
  (log.filter fun r => r.pipe == pipe).flatMap Remark.bytes

/-- The lines that were given on of what came out of a pipe. -/
def linesFrom (pipe : Nat) (log : List Remark) : List String :=
  (log.filter fun r => r.pipe == pipe).flatMap Remark.lines

/-- All was heard that came out of a pipe. -/
def isOver (pipe : Nat) (log : List Remark) : Bool := log.any fun r => r.pipe == pipe && r.isEnd

variable {κ : Type} {tell : Bool → String → κ → κ}

/-- Gives the lines of remarks on. -/
def tellAll (tell : Bool → String → κ → κ) (log : List Remark) (console : κ) : κ :=
  log.foldl (fun c r => r.lines.foldl (fun c line => tell r.isError line c) c) console

theorem bytesFrom_append (pipe : Nat) (log more : List Remark) :
    bytesFrom pipe (log ++ more) = bytesFrom pipe log ++ bytesFrom pipe more := by
  simp [bytesFrom]

theorem linesFrom_append (pipe : Nat) (log more : List Remark) :
    linesFrom pipe (log ++ more) = linesFrom pipe log ++ linesFrom pipe more := by
  simp [linesFrom]

theorem isOver_append (pipe : Nat) (log more : List Remark) :
    isOver pipe (log ++ more) = (isOver pipe log || isOver pipe more) := by
  simp [isOver]

/-! ## Worlds that go on -/

/-- Processes take their turns, time passes, or they find files as others left them. -/
inductive Goes : System → System → Prop
  | settle (fuel : Nat) (s : System) : Goes s (s.settle fuel)
  | wait {time : Nat} {s : System} (h : s.time ≤ time) : Goes s { s with time }
  | files (files : FileTree) (s : System) : Goes s { s with machine := { s.machine with files } }

/-- A world goes on, and is heard to say what stands in the log. -/
inductive Listens (tell : Bool → String → κ → κ) : World κ → List Remark → World κ → Prop
  | goes {w : World κ} {s : System} (h : Goes w.system s) : Listens tell w [] { w with system := s }
  | hears {w : World κ} {t : Tap} {bytes : ByteArray} {isEnd : Bool} (hmem : t ∈ w.taps)
      (h : World.heard? w.system.machine t = some (bytes, isEnd)) :
      Listens tell w [⟨t.pipe, t.isError, bytes.toList, isEnd, (t.take bytes.toList isEnd).1⟩]
        (w.hear tell t bytes isEnd)
  | trans {w w' w'' : World κ} {log more : List Remark} (h : Listens tell w log w')
      (h' : Listens tell w' more w'') : Listens tell w (log ++ more) w''

namespace Listens

variable {w w' : World κ} {log : List Remark}

theorem console (h : Listens tell w log w') : w'.console = tellAll tell log w.console := by
  induction h with
  | goes => rfl
  | hears => rfl
  | trans _ _ ih ih' => rw [ih', ih, tellAll, tellAll, tellAll, List.foldl_append]

theorem isOpen_of_heard? {m : Machine} {t : Tap} {x : ByteArray × Bool}
    (h : World.heard? m t = some x) : t.isOpen = true := by
  by_contra hclosed
  rw [Bool.not_eq_true] at hclosed
  simp [World.heard?, hclosed] at h

theorem taps_hear (t : Tap) (bytes : ByteArray) (isEnd : Bool) (w : World κ) :
    (w.hear tell t bytes isEnd).taps =
      w.taps.map fun u => if u.pipe == t.pipe then (t.take bytes.toList isEnd).2 else u := rfl

theorem pipes (h : Listens tell w log w') : w'.taps.map Tap.pipe = w.taps.map Tap.pipe := by
  induction h with
  | goes => rfl
  | @hears w t bytes isEnd =>
    rw [taps_hear, List.map_map]
    refine List.map_congr_left fun u _ => ?_
    by_cases hu : u.pipe = t.pipe <;> simp [hu]
  | trans _ _ ih ih' => rw [ih', ih]

end Listens

/-- The taps at a pipe are for one kind of output, have heard bytes and given lines on. -/
def HeardAt (w : World κ) (pipe : Nat) (isError : Bool) (bytes : List UInt8) (isEnd : Bool)
    (told : List String) : Prop :=
  ∀ t ∈ w.taps, t.pipe = pipe → t.isError = isError ∧ t.Heard bytes isEnd told

/-- **What a tap has heard grows by what the log says.** -/
theorem HeardAt.listens {w w' : World κ} {log : List Remark} {pipe : Nat} {isError isEnd : Bool}
    {bytes : List UInt8} {told : List String} (h : HeardAt w pipe isError bytes isEnd told)
    (hl : Listens tell w log w') :
    (∀ r ∈ log, r.pipe = pipe → r.isError = isError) ∧
      HeardAt w' pipe isError (bytes ++ bytesFrom pipe log) (isEnd || isOver pipe log)
        (told ++ linesFrom pipe log) := by
  induction hl generalizing bytes isEnd told with
  | goes => exact ⟨by simp, by simpa [HeardAt, bytesFrom, linesFrom, isOver] using h⟩
  | @hears w t more isLast hmem hheard =>
    refine ⟨fun r hr hpipe => ?_, fun u hu hpipe => ?_⟩
    · obtain rfl := List.mem_singleton.1 hr
      exact (h t hmem hpipe).1
    · rw [Listens.taps_hear] at hu
      obtain ⟨v, hv, rfl⟩ := List.mem_map.1 hu
      -- Only taps at the pipe that was heard take anything.
      by_cases hsame : v.pipe = t.pipe
      · simp only [hsame, beq_self_eq_true, if_true] at hpipe ⊢
        obtain ⟨herror, hbefore⟩ := h t hmem hpipe
        have hafter := hbefore.take (Listens.isOpen_of_heard? hheard) more.toList isLast
        refine ⟨herror, ?_⟩
        simpa [bytesFrom, linesFrom, isOver, show t.pipe = pipe from hpipe] using hafter
      · have hother : t.pipe ≠ pipe := by
          rintro rfl
          simp [hsame] at hpipe
        simp only [beq_eq_false_iff_ne.2 hsame, Bool.false_eq_true, if_false] at hpipe ⊢
        simpa [bytesFrom, linesFrom, isOver, beq_eq_false_iff_ne.2 hother] using h v hv hpipe
  | trans _ _ ih ih' =>
    obtain ⟨herror, hfirst⟩ := ih h
    obtain ⟨herror', hboth⟩ := ih' hfirst
    refine ⟨List.forall_mem_append.2 ⟨herror, herror'⟩, ?_⟩
    rwa [bytesFrom_append, linesFrom_append, isOver_append, ← List.append_assoc,
      ← List.append_assoc, ← Bool.or_assoc]

/-! ## Following a process -/

theorem advance_listens (tell : Bool → String → κ → κ) (time fuel : Nat) (w : World κ) :
    ∃ log, Listens tell w log (w.advance tell time fuel) := by
  induction fuel generalizing w with
  | zero => exact ⟨[], .goes (.settle 0 w.system)⟩
  | succ fuel ih =>
    have hsettled : Listens tell w [] (w.change (System.settle (fuel + 1))) := .goes (.settle _ _)
    rw [World.advance]
    generalize w.change (System.settle (fuel + 1)) = v at hsettled
    split
    · next t bytes isEnd hfound =>
      obtain ⟨u, hu, hheard⟩ := List.exists_of_findSome?_eq_some hfound
      obtain ⟨x, hx, heq⟩ := Option.map_eq_some_iff.1 hheard
      cases heq
      obtain ⟨log, hlog⟩ := ih (v.hear tell t bytes isEnd)
      exact ⟨_, (hsettled.trans (.hears hu hx)).trans hlog⟩
    · split
      · next wake _ =>
        obtain ⟨log, hlog⟩ := ih (v.change fun s => { s with time := max s.time wake })
        exact ⟨_, (hsettled.trans (.goes (.wait (Nat.le_max_left _ _)))).trans hlog⟩
      · exact ⟨_, hsettled.trans (.goes (.wait (Nat.le_max_left _ _)))⟩

end Stagehand.Live

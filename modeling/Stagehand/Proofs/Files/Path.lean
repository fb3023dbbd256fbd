import Stagehand.Files.Tree
import Stagehand.Proofs.Text.Blank

/-!
# What lies in a directory

The name of an entry that is put behind a path is one more part of it (`Path.isChild_join`), however
the path is written: with a slash at its end or without, from the root or not, with points in it, or
empty. So in any tree of files it leads to the entry of that name, in the directory that the path
itself leads to (`FileTree.walk_child_iff`).
-/

namespace Stagehand

/-! ## Parts -/

namespace Path

/-- A name that stands for a part of a path. -/
def isPart (name : String) : Bool := name != "" && name != "."

/-- The parts among the names between slashes. -/
def partsOf : List String → List String
  | "." :: rest => "." :: rest.filter isPart
  | names => names.filter isPart

def names (p : String) : List String := (Text.pieces (· == '/') p.toList).map String.ofList

theorem parts_eq (p : String) : parts p = partsOf (names p) := rfl

theorem partsOf_cons (name : String) (rest : List String) :
    partsOf (name :: rest) = (if name = "." then ["."] else [name].filter isPart) ++
        rest.filter isPart := by
  by_cases hpoint : name = "."
  · subst hpoint
    rfl
  · rw [if_neg hpoint, ← List.filter_append, List.singleton_append]
    unfold partsOf
    split
    · next h => exact absurd (List.cons.inj h).1 hpoint
    · rfl

theorem partsOf_append {front : List String} (hne : front ≠ []) (more : List String) :
    partsOf (front ++ more) = partsOf front ++ more.filter isPart := by
  obtain ⟨name, rest, rfl⟩ := List.exists_cons_of_ne_nil hne
  rw [List.cons_append, partsOf_cons, partsOf_cons, List.filter_append, List.append_assoc]

theorem names_ne_nil (p : String) : names p ≠ [] := by
  rw [names, Text.pieces_eq_splitOnP]
  simp

theorem names_append_slash (p q : String) : names (p ++ "/" ++ q) = names p ++ names q := by
  have hslash : (p ++ "/" ++ q).toList = p.toList ++ '/' :: q.toList := by simp
  rw [names, hslash, Text.pieces_eq_splitOnP, List.splitOnP_append_cons _ _ (by rfl),
    List.map_append,
    ← Text.pieces_eq_splitOnP, ← Text.pieces_eq_splitOnP, names, names]

/-! ## Entries of a directory -/

/-- The name of an entry of a directory: it is one part, and stands neither for the directory itself
nor for the one above it. -/
structure IsEntryName (name : String) : Prop where
  no_slash : '/' ∉ name.toList
  ne_empty : name ≠ ""
  ne_point : name ≠ "."
  ne_points : name ≠ ".."

/-- A path names an entry in the directory that another path names. -/
structure IsChild (root path name : String) : Prop where
  isEntryName : IsEntryName name
  absolute : isAbsolute path = isAbsolute root
  parts : parts path = parts root ++ [name]

namespace IsEntryName

variable {name : String}

theorem names_eq (h : IsEntryName name) : names name = [name] := by
  have hnone : ∀ c ∈ name.toList, (c == '/') = false := by
    intro c hc
    exact beq_eq_false_iff_ne.2 fun heq => h.no_slash (heq ▸ hc)
  rw [names, Text.pieces_eq_splitOnP, List.splitOnP_eq_singleton hnone]
  simp

theorem isPart (h : IsEntryName name) : isPart name = true := by
  simp [Path.isPart, h.ne_empty, h.ne_point]

theorem isAbsolute_eq (h : IsEntryName name) : isAbsolute name = false := by
  rw [isAbsolute, beq_eq_false_iff_ne]
  intro hhead
  exact h.no_slash (List.mem_of_mem_head? hhead)

theorem parts_append_slash (h : IsEntryName name) (p : String) :
    parts (p ++ "/" ++ name) = parts p ++ [name] := by
  rw [parts_eq, names_append_slash, partsOf_append (names_ne_nil p), h.names_eq, ← parts_eq,
    List.filter_singleton, h.isPart]
  rfl

end IsEntryName

theorem parts_slash (p : String) : parts (p ++ "/") = parts p := by
  have hempty : names "" = [""] := rfl
  have happend := names_append_slash p ""
  rw [String.append_empty] at happend
  rw [parts_eq, happend, partsOf_append (names_ne_nil p), hempty, ← parts_eq]
  exact List.append_nil _

theorem isAbsolute_append {p : String} (hne : p ≠ "") (q : String) :
    isAbsolute (p ++ q) = isAbsolute p := by
  have hchars : p.toList ≠ [] := by simpa using hne
  rw [isAbsolute, isAbsolute, String.toList_append, List.head?_append_of_ne_nil _ hchars]

/-- **The name of an entry, put behind a path, leads to that entry of the directory.** -/
theorem isChild_join {name : String} (h : IsEntryName name) (root : String) :
    IsChild root (join root name) name := by
  rw [join, h.isAbsolute_eq, Bool.false_or]
  -- An empty root leaves the name alone, and one that ends in a slash needs no other.
  by_cases hempty : root = ""
  · subst hempty
    have hisEmpty : "".isEmpty = true := rfl
    rw [if_pos hisEmpty]
    refine ⟨h, h.isAbsolute_eq, ?_⟩
    rw [parts_eq, h.names_eq, partsOf_cons, if_neg h.ne_point, List.filter_singleton, h.isPart]
    rfl
  rw [if_neg (by simpa using hempty)]
  split
  · next hlast =>
    obtain ⟨front, hfront⟩ := List.getLast?_eq_some_iff.1 (eq_of_beq hlast)
    obtain rfl : root = String.ofList front ++ "/" := by
      rw [← String.toList_inj, hfront]
      simp
    exact ⟨h, isAbsolute_append hempty name, by rw [h.parts_append_slash, parts_slash]⟩
  · refine ⟨h, ?_, h.parts_append_slash root⟩
    rw [String.append_assoc, isAbsolute_append hempty]

end Path

/-! ## Walking to an entry -/

namespace FileTree

variable {t : FileTree} {root path name : String} {cwd start place : List String}

theorem walk_append (t : FileTree) (start names more : List String) :
    t.walk start (names ++ more) = t.walk start names >>= fun dir => t.walk dir more := by
  induction names generalizing start with
  | nil => rfl
  | cons name rest ih =>
    rw [List.cons_append, walk, walk]
    cases t.requireDir start with
    | error e => rfl
    | ok =>
      simp only [bind, Except.bind]
      split
      · rfl
      split
      · exact ih _
      split
      · exact ih _
      · exact ih _

theorem walk_entry_iff (h : Path.IsEntryName name) :
    t.walk start [name] = .ok place ↔
      t.requireDir start = .ok () ∧ name.utf8ByteSize ≤ nameLimit ∧ place = start ++ [name] := by
  rw [walk]
  cases t.requireDir start with
  | error e => simp [bind, Except.bind]
  | ok =>
    simp only [bind, Except.bind, if_neg h.ne_point, if_neg h.ne_points]
    split
    · next hlong => simp [Nat.not_le.2 hlong]
    · next hlong => simp [Nat.not_lt.1 hlong, walk, eq_comm]

/-- **An entry of a directory lies there in every tree**: its path can be walked exactly if that of
the directory can, and leads to the place of the entry in it. -/
theorem walk_child_iff (h : Path.IsChild root path name) :
    t.walk (origin cwd path) (Path.parts path) = .ok place ↔
      ∃ dir, t.walk (origin cwd root) (Path.parts root) = .ok dir ∧ t.requireDir dir = .ok () ∧
        name.utf8ByteSize ≤ nameLimit ∧ place = dir ++ [name] := by
  rw [origin, h.absolute, ← origin, h.parts, walk_append]
  cases t.walk (origin cwd root) (Path.parts root) with
  | error e => simp [bind, Except.bind]
  | ok dir => simp [bind, Except.bind, walk_entry_iff h.isEntryName]

end FileTree

end Stagehand

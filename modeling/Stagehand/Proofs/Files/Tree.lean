import Stagehand.Files.Tree
import Stagehand.Proofs.NameMap

/-!
# What is read after writing

**Theorem (`readBytes_of_writeBytes`).** Bytes that could be written to a file are read from it. A
path may also lead to a device, which keeps nothing.

What is put where no directory is leaves every directory a directory (`isDirAt_put`). So a path
that could be walked is walked to the same place afterwards (`walk_of_keepsDirs`), and what was put
is found there (`find?_put_self`).
-/

namespace Stagehand

/-! ## Putting entries -/

namespace FileEntry

theorem putMember_eq_insertEntry (name : String) (e : FileEntry)
    (members : List (String × FileEntry)) :
    putMember name e members = NameMap.insertEntry name e members := by
  induction members with
  | nil => rfl
  | cons x xs ih =>
    rw [putMember, NameMap.insertEntry, ih]
    by_cases heq : name = x.1
    · rw [if_pos heq, if_neg (heq ▸ String.lt_irrefl name), if_pos heq]
    · rw [if_neg heq, if_neg heq]

theorem lookup_putMember (name name' : String) (e : FileEntry)
    (members : List (String × FileEntry)) :
    (putMember name e members).lookup name' =
      if name' = name then some e else members.lookup name' := by
  rw [putMember_eq_insertEntry]
  exact NameMap.lookup_insertEntry name name' e members

/-- A directory is below an entry, under some names. -/
def IsDirAt (e : FileEntry) (names : List String) : Prop :=
  ∃ members, e.find? names = some (.dir members)

theorem find?_dir_cons (members : List (String × FileEntry)) (name : String) (rest : List String) :
    (dir members).find? (name :: rest) = (members.lookup name).bind (·.find? rest) := by
  rw [find?]
  cases members.lookup name <;> rfl

theorem exists_lookup_of_find?_cons {e found : FileEntry} {name : String} {rest : List String}
    (h : e.find? (name :: rest) = some found) :
    ∃ members child, e = .dir members ∧ members.lookup name = some child ∧
      child.find? rest = some found := by
  cases e with
  | dir members =>
    rw [find?_dir_cons, Option.bind_eq_some_iff] at h
    obtain ⟨child, hchild, hfound⟩ := h
    exact ⟨members, child, rfl, hchild, hfound⟩
  | file bytes executable => cases h
  | device => cases h

theorem isDirAt_dropLast {e found : FileEntry} {place : List String} (hne : place ≠ [])
    (h : e.find? place = some found) : e.IsDirAt place.dropLast := by
  induction place generalizing e with
  | nil => exact absurd rfl hne
  | cons name rest ih =>
    obtain ⟨members, child, rfl, hchild, hfound⟩ := exists_lookup_of_find?_cons h
    cases rest with
    | nil => exact ⟨members, rfl⟩
    | cons name' rest =>
      obtain ⟨below, hbelow⟩ := ih (List.cons_ne_nil _ _) hfound
      exact ⟨below,
        by rw [List.dropLast_cons_cons, find?_dir_cons, hchild, Option.bind_some, hbelow]⟩

theorem find?_put_self (new : FileEntry) {e : FileEntry} {place : List String} (hne : place ≠ [])
    (h : e.IsDirAt place.dropLast) : (put new place e).find? place = some new := by
  induction place generalizing e with
  | nil => exact absurd rfl hne
  | cons name rest ih =>
    cases rest with
    | nil =>
      obtain ⟨members, hdir⟩ := h
      obtain rfl := Option.some.inj hdir
      rw [put, find?_dir_cons, lookup_putMember, if_pos rfl]
      rfl
    | cons name' rest =>
      obtain ⟨found, hfound⟩ := h
      rw [List.dropLast_cons_cons] at hfound
      obtain ⟨members, child, rfl, hchild, hfound⟩ := exists_lookup_of_find?_cons hfound
      rw [put, find?_dir_cons, lookup_putMember, if_pos rfl, hchild, Option.bind_some]
      exact ih (List.cons_ne_nil _ _) ⟨found, hfound⟩

/-- What is put where no directory is leaves every directory a directory. -/
theorem isDirAt_put (new : FileEntry) {e : FileEntry} {place names : List String}
    (hplace : ¬ e.IsDirAt place) (h : e.IsDirAt names) : (put new place e).IsDirAt names := by
  induction place generalizing e names with
  | nil =>
    refine absurd ?_ hplace
    cases names with
    | nil => exact h
    | cons name rest =>
      obtain ⟨found, hfound⟩ := h
      obtain ⟨members, -, rfl, -⟩ := exists_lookup_of_find?_cons hfound
      exact ⟨members, rfl⟩
  | cons name rest ih =>
    cases e with
    | dir members =>
      cases names with
      | nil => exact ⟨_, rfl⟩
      | cons name' rest' =>
        obtain ⟨found, hfound⟩ := h
        rw [find?_dir_cons] at hfound
        rw [IsDirAt, put]
        simp only [find?_dir_cons, lookup_putMember]
        -- Only the entry under `name` is another one, and below it the induction applies.
        by_cases hname : name' = name
        · subst hname
          obtain ⟨child, hchild, hfound⟩ := Option.bind_eq_some_iff.1 hfound
          rw [if_pos rfl, hchild, Option.getD_some, Option.bind_some]
          refine ih (fun hdir => hplace ?_) ⟨found, hfound⟩
          obtain ⟨below, hbelow⟩ := hdir
          exact ⟨below, by rw [find?_dir_cons, hchild, Option.bind_some, hbelow]⟩
        · rw [if_neg hname]
          exact ⟨found, hfound⟩
    | file bytes executable => exact h
    | device => exact h

end FileEntry

/-! ## Writing -/

namespace FileTree

open FileEntry (IsDirAt)

variable {t t' : FileTree} {cwd place names : List String} {path : String} {bytes : ByteArray}

theorem requireDir_eq_ok_iff : t.requireDir place = .ok () ↔ t.root.IsDirAt place := by
  rw [requireDir, IsDirAt, find?]
  split
  · next members hfound => exact ⟨fun _ => ⟨members, hfound⟩, fun _ => rfl⟩
  · next e hne hfound =>
    refine ⟨fun h => (nomatch h), fun ⟨members, hdir⟩ => ?_⟩
    exact (hne members (Option.some.inj (hfound.symm.trans hdir))).elim
  · next hfound =>
    refine ⟨fun h => (nomatch h), fun ⟨members, hdir⟩ => ?_⟩
    rw [hfound] at hdir
    cases hdir

theorem root_put (hne : place ≠ []) (e : FileEntry) :
    (t.put place e).root = FileEntry.put e place t.root := by
  cases place with
  | nil => exact absurd rfl hne
  | cons name rest => rfl

/-- Every directory of the one tree is a directory of the other. -/
def KeepsDirs (t t' : FileTree) : Prop := ∀ place, t.root.IsDirAt place → t'.root.IsDirAt place

/-- A path that could be walked leads to the same place where all directories are kept. -/
theorem walk_of_keepsDirs (h : t.KeepsDirs t') {start : List String}
    (hwalk : t.walk start names = .ok place) : t'.walk start names = .ok place := by
  induction names generalizing start with
  | nil => exact hwalk
  | cons name rest ih =>
    rw [walk] at hwalk ⊢
    cases hdir : t.requireDir start with
    | error e =>
      rw [hdir] at hwalk
      cases hwalk
    | ok =>
      rw [hdir] at hwalk
      -- All that a step asks of the tree is a directory, and that is kept.
      rw [requireDir_eq_ok_iff.2 (h start (requireDir_eq_ok_iff.1 hdir))]
      simp only [bind, Except.bind] at hwalk ⊢
      split at hwalk
      · cases hwalk
      next hlong =>
        rw [if_neg hlong]
        split at hwalk
        · next hpoint =>
          rw [if_pos hpoint]
          exact ih hwalk
        next hpoint =>
          rw [if_neg hpoint]
          split at hwalk
          · next hup =>
            rw [if_pos hup]
            exact ih hwalk
          · next hup =>
            rw [if_neg hup]
            exact ih hwalk

theorem follow_of_keepsDirs (h : t.KeepsDirs t') (hfollow : t.follow cwd path = .ok place) :
    t'.follow cwd path = .ok place := by
  rw [follow] at hfollow ⊢
  cases hcheck : checkPath path with
  | error e =>
    rw [hcheck] at hfollow
    cases hfollow
  | ok =>
    rw [hcheck] at hfollow
    simp only [bind, Except.bind] at hfollow ⊢
    split at hfollow
    · cases hfollow
    next hempty =>
      rw [if_neg hempty]
      exact walk_of_keepsDirs h hfollow

theorem locate_eq_ok_iff : t.locate cwd path = .ok place ↔
    t.follow cwd path = .ok place ∧ (Path.asksForDirectory path = true → t.root.IsDirAt place) := by
  rw [locate]
  cases hfollow : t.follow cwd path with
  | error e => exact ⟨fun h => (nomatch h), fun h => (nomatch h.1)⟩
  | ok found =>
    simp only [bind, Except.bind]
    split
    · next hasks =>
      cases hdir : t.requireDir found with
      | error e =>
        refine ⟨fun h => (nomatch h), fun ⟨hsame, hat⟩ => ?_⟩
        obtain rfl := Except.ok.inj hsame
        rw [requireDir_eq_ok_iff.2 (hat hasks)] at hdir
        cases hdir
      | ok =>
        refine ⟨fun h => ⟨h, fun _ => ?_⟩, fun h => h.1⟩
        obtain rfl := Except.ok.inj h
        exact requireDir_eq_ok_iff.1 hdir
    · next hasks => exact ⟨fun h => ⟨h, fun hask => absurd hask hasks⟩, fun h => h.1⟩

theorem locate_of_locateToWrite (h : t.locateToWrite cwd path = .ok place) :
    t.locate cwd path = .ok place := by
  rw [locateToWrite] at h
  cases hfollow : t.follow cwd path with
  | error e =>
    rw [hfollow] at h
    cases h
  | ok found =>
    rw [hfollow] at h
    simp only [bind, Except.bind] at h
    split at h
    · cases h
    · exact h

/-- What is put in a directory is there, and all directories are kept. -/
theorem find?_put (hplace : ¬ t.root.IsDirAt place) (hparent : t.root.IsDirAt place.dropLast)
    (e : FileEntry) : (t.put place e).find? place = some e ∧ t.KeepsDirs (t.put place e) := by
  have hne : place ≠ [] := by
    rintro rfl
    exact hplace ⟨t.members, rfl⟩
  rw [find?, KeepsDirs, root_put hne]
  exact ⟨FileEntry.find?_put_self e hne hparent, fun _ hdir => FileEntry.isDirAt_put e hplace hdir⟩

/-- What is written at a place is there, and all directories are kept. A device stays as it is. -/
theorem of_writeAt (h : t.writeAt place bytes = .ok t') :
    ¬ t.root.IsDirAt place ∧
      (t.find? place = some .device ∧ t' = t ∨
        ∃ executable, t'.find? place = some (.file bytes executable) ∧ t.KeepsDirs t') := by
  have hplace : ∀ {found : Option FileEntry}, t.find? place = found →
      (∀ members, found ≠ some (.dir members)) → ¬ t.root.IsDirAt place :=
    fun hfound hne ⟨members, hdir⟩ => hne members (hfound.symm.trans hdir)
  rw [writeAt] at h
  split at h
  · cases h
  · next old executable hfound =>
    obtain rfl := Except.ok.inj h
    have hnot := hplace hfound (by simp)
    have hne : place ≠ [] := by
      rintro rfl
      cases hfound
    exact ⟨hnot, .inr ⟨executable, find?_put hnot (FileEntry.isDirAt_dropLast hne hfound) _⟩⟩
  · next hfound =>
    obtain rfl := Except.ok.inj h
    exact ⟨hplace hfound (by simp), .inl ⟨hfound, rfl⟩⟩
  · next hfound =>
    split at h
    · next hparent =>
      obtain rfl := Except.ok.inj h
      have hnot := hplace hfound (by simp)
      exact ⟨hnot, .inr ⟨false, find?_put hnot (requireDir_eq_ok_iff.1 hparent) _⟩⟩
    · cases h

/-! ## Reading -/

theorem readBytes_of_locate (h : t.locate cwd path = .ok place) {executable : Bool}
    (hfound : t.find? place = some (.file bytes executable)) :
    t.readBytes cwd path = .ok bytes := by
  simp only [readBytes, h, bind, Except.bind, hfound]

/-- **What is written to a file is read from it.** -/
theorem readBytes_of_writeBytes (h : t.writeBytes cwd path bytes = .ok t')
    (hfile : t'.isFile cwd path = true) : t'.readBytes cwd path = .ok bytes := by
  rw [writeBytes] at h
  cases hwrite : t.locateToWrite cwd path with
  | error e =>
    rw [hwrite] at h
    cases h
  | ok place =>
    rw [hwrite] at h
    have hlocate := locate_of_locateToWrite hwrite
    obtain ⟨hnot, ⟨hfound, rfl⟩ | ⟨executable, hfound, hkeeps⟩⟩ := of_writeAt h
    · simp only [isFile, lookup?, hlocate, hfound, Bool.false_eq_true] at hfile
    · obtain ⟨hfollow, hasks⟩ := locate_eq_ok_iff.1 hlocate
      exact readBytes_of_locate (locate_eq_ok_iff.2 ⟨follow_of_keepsDirs hkeeps hfollow,
        fun hask => hkeeps place (hasks hask)⟩) hfound

end FileTree

end Stagehand

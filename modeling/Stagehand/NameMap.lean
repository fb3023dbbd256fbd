/-!
# Values by name

A `NameMap α` holds at most one value per name and lists its names in increasing order, by code
point. Inserting a name that is there replaces its value. Two maps are equal exactly when they have
the same entries, however they were built.
-/

namespace Stagehand

/-- Names in increasing order, each with its value. -/
structure NameMap (α : Type) where
  entries : List (String × α)
  sorted : entries.Pairwise (fun a b => a.1 < b.1)

namespace NameMap

variable {α : Type}

/-! ## Insertion into a sorted list -/

/-- Puts `v` at the place of `k`, over an older value. -/
def insertEntry (k : String) (v : α) : List (String × α) → List (String × α)
  | [] => [(k, v)]
  | e :: es =>
    if k < e.1 then (k, v) :: e :: es
    else if k = e.1 then (k, v) :: es
    else e :: insertEntry k v es

theorem mem_insertEntry {k : String} {v : α} {es : List (String × α)} {x : String × α}
    (h : x ∈ insertEntry k v es) : x = (k, v) ∨ x ∈ es := by
  induction es with
  | nil => simpa [insertEntry] using h
  | cons e es ih =>
    unfold insertEntry at h
    split at h
    · simpa using h
    · split at h
      · rcases List.mem_cons.1 h with h | h
        · exact .inl h
        · exact .inr (List.mem_cons_of_mem _ h)
      · rcases List.mem_cons.1 h with h | h
        · exact .inr (h ▸ List.mem_cons_self)
        · exact (ih h).imp_right (List.mem_cons_of_mem _)

theorem lt_of_not_lt_of_ne {a b : String} (h : ¬ a < b) (hne : a ≠ b) : b < a := by
  rcases Decidable.em (b < a) with h' | h'
  · exact h'
  · exact absurd (String.le_antisymm (String.not_lt.1 h') (String.not_lt.1 h)) hne

theorem sorted_insertEntry {k : String} {v : α} {es : List (String × α)}
    (h : es.Pairwise (fun a b => a.1 < b.1)) :
    (insertEntry k v es).Pairwise (fun a b => a.1 < b.1) := by
  induction es with
  | nil => simp [insertEntry]
  | cons e es ih =>
    obtain ⟨hhead, htail⟩ := List.pairwise_cons.1 h
    unfold insertEntry
    split
    · rename_i hlt
      refine List.pairwise_cons.2 ⟨fun x hx => ?_, h⟩
      rcases List.mem_cons.1 hx with rfl | hx
      · exact hlt
      · exact String.lt_trans hlt (hhead x hx)
    · split
      · rename_i heq
        exact List.pairwise_cons.2 ⟨fun x hx => heq ▸ hhead x hx, htail⟩
      · rename_i hnlt hne
        refine List.pairwise_cons.2 ⟨fun x hx => ?_, ih htail⟩
        rcases mem_insertEntry hx with rfl | hx
        · exact lt_of_not_lt_of_ne hnlt hne
        · exact hhead x hx

/-! ## Maps -/

def empty : NameMap α := ⟨[], List.Pairwise.nil⟩

instance : Inhabited (NameMap α) := ⟨empty⟩

def insert (m : NameMap α) (k : String) (v : α) : NameMap α :=
  ⟨insertEntry k v m.entries, sorted_insertEntry m.sorted⟩

def get? (m : NameMap α) (k : String) : Option α := m.entries.lookup k

def contains (m : NameMap α) (k : String) : Bool := (m.get? k).isSome

/-- Sets the values of a list of names, later ones over earlier ones. -/
def insertAll (m : NameMap α) (es : List (String × α)) : NameMap α :=
  es.foldl (fun m e => m.insert e.1 e.2) m

/-- The map of a list of names, where the last value of a name counts. -/
def ofList (es : List (String × α)) : NameMap α := empty.insertAll es

/-- All entries, by name. -/
def toList (m : NameMap α) : List (String × α) := m.entries

def values (m : NameMap α) : List α := m.entries.map (·.2)

def size (m : NameMap α) : Nat := m.entries.length

def filter (m : NameMap α) (keep : String × α → Bool) : NameMap α :=
  ⟨m.entries.filter keep, m.sorted.filter keep⟩

def erase (m : NameMap α) (k : String) : NameMap α := m.filter fun e => e.1 != k

theorem eq_of_toList_eq {a b : NameMap α} (h : a.toList = b.toList) : a = b := by
  cases a; cases b; simp_all [toList]

instance [DecidableEq α] : DecidableEq (NameMap α) := fun a b =>
  decidable_of_iff (a.toList = b.toList) ⟨eq_of_toList_eq, fun h => h ▸ rfl⟩

instance [Repr α] : Repr (NameMap α) := ⟨fun m n => reprPrec m.toList n⟩

end NameMap

end Stagehand

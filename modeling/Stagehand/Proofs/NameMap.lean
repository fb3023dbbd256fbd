import Stagehand.NameMap

/-!
# Looking names up, and maps built from lists

What a map answers after insertions: the last value that was given to a name counts
(`get?_insertAll`). Inserting names in increasing order only appends, so a map that is built from
the entries of another one, or from some of them, has exactly these entries.
-/

namespace Stagehand.NameMap

variable {α : Type}

/-! ## Looking up -/

@[simp] theorem get?_empty (k : String) : (empty : NameMap α).get? k = none := rfl

theorem lookup_cons_ite (k : String) (e : String × α) (es : List (String × α)) :
    (e :: es).lookup k = if k = e.1 then some e.2 else es.lookup k := by
  rw [List.lookup_cons]
  by_cases hk : k = e.1
  · simp [hk]
  · simp [hk, beq_eq_false_iff_ne.2 hk]

theorem lookup_insertEntry (k k' : String) (v : α) (es : List (String × α)) :
    (insertEntry k v es).lookup k' = if k' = k then some v else es.lookup k' := by
  induction es with
  | nil => exact lookup_cons_ite k' (k, v) []
  | cons e es ih =>
    unfold insertEntry
    split
    · exact lookup_cons_ite k' (k, v) (e :: es)
    · split
      · rename_i heq
        subst heq
        rw [lookup_cons_ite, lookup_cons_ite]
        split <;> rfl
      · rename_i hne
        rw [lookup_cons_ite, lookup_cons_ite, ih]
        by_cases hk : k' = e.1
        · rw [if_pos hk, if_pos hk, if_neg fun heq => hne (heq.symm.trans hk)]
        · rw [if_neg hk, if_neg hk]

theorem get?_insert (m : NameMap α) (k k' : String) (v : α) :
    (m.insert k v).get? k' = if k' = k then some v else m.get? k' :=
  lookup_insertEntry k k' v m.entries

theorem get?_insertAll (m : NameMap α) (es : List (String × α)) (k : String) :
    (m.insertAll es).get? k = (es.reverse.lookup k).or (m.get? k) := by
  induction es generalizing m with
  | nil => rfl
  | cons e es ih =>
    have htail : (m.insertAll (e :: es)).get? k =
        (es.reverse.lookup k).or ((m.insert e.1 e.2).get? k) := ih (m.insert e.1 e.2)
    rw [htail, get?_insert, List.reverse_cons, List.lookup_append, Option.or_assoc, lookup_cons_ite]
    by_cases hk : k = e.1
    · rw [if_pos hk, if_pos hk, Option.some_or]
    · rw [if_neg hk, if_neg hk, List.lookup_nil, Option.none_or]

theorem get?_ofList (es : List (String × α)) (k : String) :
    (ofList es).get? k = es.reverse.lookup k := by
  rw [ofList, get?_insertAll, get?_empty, Option.or_none]

/-- A test that only looks at names lets all entries of a name through, or none. -/
theorem lookup_filter (keep : String → Bool) (k : String) (es : List (String × α)) :
    (es.filter fun e => keep e.1).lookup k = if keep k then es.lookup k else none := by
  induction es with
  | nil => simp
  | cons e es ih =>
    rw [List.filter_cons]
    by_cases hk : k = e.1
    · subst hk
      by_cases hkeep : keep e.1 = true
      · rw [if_pos hkeep, if_pos hkeep, lookup_cons_ite, lookup_cons_ite, if_pos rfl, if_pos rfl]
      · rw [if_neg hkeep, ih, if_neg hkeep, if_neg hkeep]
    · have hcons : (e :: es).lookup k = es.lookup k := by rw [lookup_cons_ite, if_neg hk]
      rw [hcons, ← ih]
      split
      · rw [lookup_cons_ite, if_neg hk]
      · rfl

theorem get?_erase (m : NameMap α) (k k' : String) :
    (m.erase k).get? k' = if k' = k then none else m.get? k' := by
  have hlookup : (m.erase k).get? k' = if k' != k then m.get? k' else none :=
    lookup_filter (· != k) k' m.entries
  rw [hlookup]
  by_cases hk : k' = k <;> simp [hk]

/-! ## Maps built from lists -/

/-- A name behind all others is put at the end. -/
theorem insertEntry_of_lt {k : String} {v : α} {es : List (String × α)} (h : ∀ e ∈ es, e.1 < k) :
    insertEntry k v es = es ++ [(k, v)] := by
  induction es with
  | nil => rfl
  | cons e es ih =>
    obtain ⟨he, hes⟩ := List.forall_mem_cons.1 h
    have hne : k ≠ e.1 := fun heq => String.lt_irrefl k (heq ▸ he)
    rw [insertEntry, if_neg (String.lt_asymm he), if_neg hne, ih hes, List.cons_append]

theorem toList_insertAll_of_sorted {m : NameMap α} {es : List (String × α)}
    (h : (m.toList ++ es).Pairwise (fun a b => a.1 < b.1)) :
    (m.insertAll es).toList = m.toList ++ es := by
  induction es generalizing m with
  | nil => simp [insertAll]
  | cons e es ih =>
    have hlt : ∀ x ∈ m.toList, x.1 < e.1 := fun x hx =>
      (List.pairwise_append.1 h).2.2 x hx e List.mem_cons_self
    have hm : (m.insert e.1 e.2).toList = m.toList ++ [e] := insertEntry_of_lt hlt
    have hes := ih (m := m.insert e.1 e.2) (by simpa [hm] using h)
    simpa [hm, insertAll] using hes

/-- The map of a sorted list has the entries of the list. -/
theorem toList_ofList_of_sorted {es : List (String × α)}
    (h : es.Pairwise (fun a b => a.1 < b.1)) : (ofList es).toList = es := by
  have hempty : ((empty : NameMap α).toList ++ es).Pairwise (fun a b => a.1 < b.1) := h
  exact toList_insertAll_of_sorted hempty

theorem isSome_lookup (k : String) (es : List (String × α)) :
    (es.lookup k).isSome ↔ k ∈ es.map (·.1) := by
  induction es with
  | nil => simp
  | cons e es ih =>
    rw [lookup_cons_ite, List.map_cons, List.mem_cons, ← ih]
    by_cases hk : k = e.1 <;> simp [hk]

/-- A map has the names of the list that it is made from. -/
theorem isSome_get?_ofList (es : List (String × α)) (k : String) :
    ((ofList es).get? k).isSome ↔ k ∈ es.map (·.1) := by
  rw [get?_ofList, isSome_lookup, List.map_reverse, List.mem_reverse]

theorem get?_ofList_of_mem {es : List (String × α)} (hnodup : (es.map (·.1)).Nodup) {k : String}
    {v : α} (h : (k, v) ∈ es) : (ofList es).get? k = some v := by
  rw [get?_ofList]
  induction es with
  | nil => cases h
  | cons e es ih =>
    obtain ⟨he, hes⟩ := List.nodup_cons.1 hnodup
    rw [List.reverse_cons, List.lookup_append, lookup_cons_ite]
    rcases List.mem_cons.1 h with rfl | h
    · have hnone : es.reverse.lookup k = none := by
        rw [← Option.not_isSome_iff_eq_none, isSome_lookup, List.map_reverse, List.mem_reverse]
        exact he
      rw [hnone, if_pos rfl, Option.none_or]
    · rw [ih hes h, Option.some_or]

theorem mem_of_lookup {es : List (String × α)} {k : String} {v : α} (h : es.lookup k = some v) :
    (k, v) ∈ es := by
  obtain ⟨before, after, rfl, -⟩ := List.lookup_eq_some_iff.1 h
  exact List.mem_append_right _ List.mem_cons_self

/-- Where no name comes twice, the first value of a name is the last. -/
theorem get?_ofList_of_nodup {es : List (String × α)} (hnodup : (es.map (·.1)).Nodup) (k : String) :
    (ofList es).get? k = es.lookup k := by
  cases h : es.lookup k with
  | some v => exact get?_ofList_of_mem hnodup (mem_of_lookup h)
  | none =>
    rw [← Option.not_isSome_iff_eq_none, isSome_get?_ofList, ← isSome_lookup, h]
    exact Bool.false_ne_true

theorem length_insertEntry {k : String} {v : α} {es : List (String × α)} (h : es.lookup k = none) :
    (insertEntry k v es).length = es.length + 1 := by
  induction es with
  | nil => rfl
  | cons e es ih =>
    rw [lookup_cons_ite] at h
    by_cases hk : k = e.1
    · rw [if_pos hk] at h
      cases h
    · rw [if_neg hk] at h
      rw [insertEntry, if_neg hk]
      split
      · rfl
      · rw [List.length_cons, ih h, List.length_cons]

theorem size_insertAll {m : NameMap α} {es : List (String × α)} (hnodup : (es.map (·.1)).Nodup)
    (h : ∀ e ∈ es, m.get? e.1 = none) : (m.insertAll es).size = m.size + es.length := by
  induction es generalizing m with
  | nil => rfl
  | cons e es ih =>
    obtain ⟨he, hes⟩ := List.nodup_cons.1 hnodup
    obtain ⟨hm, hrest⟩ := List.forall_mem_cons.1 h
    have hsize : (m.insert e.1 e.2).size = m.size + 1 := length_insertEntry hm
    have htail := @ih (m.insert e.1 e.2) hes fun f hf => by
      have hmem : f.1 ∈ es.map (·.1) := List.mem_map_of_mem hf
      rw [get?_insert, if_neg (ne_of_mem_of_not_mem hmem he), hrest f hf]
    show ((m.insert e.1 e.2).insertAll es).size = _
    rw [htail, hsize, List.length_cons]
    omega

theorem size_ofList {es : List (String × α)} (hnodup : (es.map (·.1)).Nodup) :
    (ofList es).size = es.length := by
  rw [ofList, size_insertAll hnodup fun _ _ => get?_empty _]
  exact Nat.zero_add _

theorem ofList_toList (m : NameMap α) : ofList m.toList = m :=
  eq_of_toList_eq (toList_ofList_of_sorted m.sorted)

/-- Of a name there is one value, so it is the last. -/
theorem lookup_reverse_toList (m : NameMap α) (k : String) :
    m.toList.reverse.lookup k = m.get? k := by
  rw [← get?_ofList, ofList_toList]

theorem nodup_names (m : NameMap α) : (m.toList.map (·.1)).Nodup :=
  List.Pairwise.map _ (fun _ _ hlt heq => String.lt_irrefl _ (heq ▸ hlt)) m.sorted

theorem mem_toList_iff {m : NameMap α} {k : String} {v : α} :
    (k, v) ∈ m.toList ↔ m.get? k = some v := by
  constructor
  · intro h
    have hget := get?_ofList_of_mem m.nodup_names h
    rwa [ofList_toList] at hget
  · exact mem_of_lookup

/-- Maps that answer for the same names list the same names. -/
theorem names_eq {β : Type} {a : NameMap α} {b : NameMap β}
    (h : ∀ k, (a.get? k).isSome = (b.get? k).isSome) :
    a.toList.map (·.1) = b.toList.map (·.1) := by
  have hmem : ∀ k, k ∈ a.toList.map (·.1) ↔ k ∈ b.toList.map (·.1) := by
    intro k
    rw [← isSome_lookup, ← isSome_lookup]
    exact Bool.coe_iff_coe.2 (h k)
  have hperm := (List.perm_ext_iff_of_nodup a.nodup_names b.nodup_names).2 hmem
  have hsorted : ∀ {γ : Type} (m : NameMap γ), (m.toList.map (·.1)).Pairwise (· < ·) := fun m =>
    List.Pairwise.map _ (fun _ _ hlt => hlt) m.sorted
  refine hperm.eq_of_pairwise (fun x y _ _ hxy hyx => ?_) (hsorted a) (hsorted b)
  exact absurd (String.lt_trans hxy hyx) (String.lt_irrefl _)

/-- Two maps that answer alike hold the same entries, in the same order. -/
theorem eq_of_get?_eq {a b : NameMap α} (h : ∀ k, a.get? k = b.get? k) : a = b := by
  have hnodup : ∀ m : NameMap α, m.toList.Nodup := fun m =>
    List.Pairwise.of_map (·.1) (fun _ _ hne heq => hne (congrArg (·.1) heq)) m.nodup_names
  have hmem : ∀ e, e ∈ a.toList ↔ e ∈ b.toList := by
    rintro ⟨k, v⟩
    rw [mem_toList_iff, mem_toList_iff, h]
  have hperm := (List.perm_ext_iff_of_nodup (hnodup a) (hnodup b)).2 hmem
  refine eq_of_toList_eq (hperm.eq_of_pairwise (fun x y _ _ hxy hyx => ?_) a.sorted b.sorted)
  exact absurd (String.lt_trans hxy hyx) (String.lt_irrefl _)

theorem get?_filter (m : NameMap α) (keep : String → Bool) (k : String) :
    (m.filter fun e => keep e.1).get? k = if keep k then m.get? k else none :=
  lookup_filter keep k m.entries

/-- A test that only looks at names lets a new entry through, or makes no difference to it. -/
theorem filter_insert (m : NameMap α) (keep : String → Bool) (k : String) (v : α) :
    ((m.insert k v).filter fun e => keep e.1) =
      if keep k then (m.filter fun e => keep e.1).insert k v else m.filter fun e => keep e.1 := by
  refine eq_of_get?_eq fun k' => ?_
  by_cases hkeep : keep k = true
  · rw [if_pos hkeep, get?_filter, get?_insert, get?_insert, get?_filter]
    by_cases hk : k' = k
    · rw [hk, if_pos hkeep, if_pos rfl, if_pos rfl]
    · rw [if_neg hk, if_neg hk]
  · rw [if_neg hkeep, get?_filter, get?_insert, get?_filter]
    by_cases hk : k' = k
    · rw [hk, if_neg hkeep, if_neg hkeep]
    · rw [if_neg hk]

theorem get?_insertAll_filter (m upper : NameMap α) (keep : String → Bool) (k : String) :
    (m.insertAll (upper.toList.filter fun e => keep e.1)).get? k =
      if keep k then (upper.get? k).or (m.get? k) else m.get? k := by
  rw [get?_insertAll, ← List.filter_reverse, lookup_filter, lookup_reverse_toList]
  split
  · rfl
  · exact Option.none_or

theorem get?_insertAll_toList (m upper : NameMap α) (k : String) :
    (m.insertAll upper.toList).get? k = (upper.get? k).or (m.get? k) := by
  rw [get?_insertAll, lookup_reverse_toList]

end Stagehand.NameMap

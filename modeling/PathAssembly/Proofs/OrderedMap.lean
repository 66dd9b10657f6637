import Mathlib.Data.List.Induction
import Mathlib.Data.List.Nodup
import PathAssembly.OrderedMap

/-!
# Places in ordered maps

A present key divides the entries of an ordered map into those before and those behind it. Setting
its value changes neither part; the value of an absent key goes to the end.
-/

namespace PathAssembly

namespace OrderedMap

variable {κ ν α : Type} {m : OrderedMap κ ν} {k : κ} {v w : ν} {before after : List (κ × ν)}

theorem not_mem_of_entries_eq (h : m.entries = before ++ (k, v) :: after) :
    k ∉ before.map Prod.fst ∧ k ∉ after.map Prod.fst := by
  have hnodup := m.keys_nodup
  rw [h, List.map_append, List.map_cons, List.nodup_middle, List.nodup_cons,
    List.mem_append, not_or] at hnodup
  exact hnodup.1

theorem flatten_toList (found : Option (List α)) :
    ((found.toList.map (k, ·)).map Prod.snd).flatten = found.getD [] := by
  cases found with
  | none => rfl
  | some list => exact List.append_nil list

variable [DecidableEq κ]

theorem lookup_eq_none_iff {pairs : List (κ × ν)} :
    lookup k pairs = none ↔ k ∉ pairs.map Prod.fst := by
  induction pairs with
  | nil => exact iff_of_true rfl (List.not_mem_nil)
  | cons pair rest ih =>
      obtain ⟨q, u⟩ := pair
      rw [lookup, List.map_cons, List.mem_cons, not_or]
      by_cases hq : q = k
      · rw [if_pos hq]
        exact iff_of_false (Option.some_ne_none u) fun h => h.1 hq.symm
      · rw [if_neg hq, ih]
        exact (and_iff_right (Ne.symm hq)).symm

theorem get?_eq_none_iff : m.get? k = none ↔ k ∉ m.keys := lookup_eq_none_iff

theorem lookup_append {pairs more : List (κ × ν)} (h : k ∉ pairs.map Prod.fst) :
    lookup k (pairs ++ more) = lookup k more := by
  induction pairs with
  | nil => rfl
  | cons pair rest ih =>
      obtain ⟨q, u⟩ := pair
      rw [List.map_cons, List.mem_cons, not_or] at h
      rw [List.cons_append, lookup, if_neg (Ne.symm h.1), ih h.2]

theorem insertPair_append {pairs more : List (κ × ν)} (h : k ∉ pairs.map Prod.fst) :
    insertPair k v (pairs ++ more) = pairs ++ insertPair k v more := by
  induction pairs with
  | nil => rfl
  | cons pair rest ih =>
      obtain ⟨q, u⟩ := pair
      rw [List.map_cons, List.mem_cons, not_or] at h
      rw [List.cons_append, insertPair, if_neg (Ne.symm h.1), ih h.2, List.cons_append]

theorem exists_append_of_lookup {pairs : List (κ × ν)} (h : lookup k pairs = some v) :
    ∃ before after, pairs = before ++ (k, v) :: after := by
  induction pairs with
  | nil => cases h
  | cons pair rest ih =>
      obtain ⟨q, u⟩ := pair
      rw [lookup] at h
      split_ifs at h with hq
      · cases h
        exact ⟨[], rest, by rw [hq, List.nil_append]⟩
      · obtain ⟨before, after, hrest⟩ := ih h
        exact ⟨(q, u) :: before, after, by rw [hrest, List.cons_append]⟩

theorem get?_of_entries_eq (h : m.entries = before ++ (k, v) :: after) : m.get? k = some v := by
  rw [get?, h, lookup_append (not_mem_of_entries_eq h).1, lookup, if_pos rfl]

theorem get?_eq_some_iff : m.get? k = some v ↔ (k, v) ∈ m.entries := by
  constructor
  · intro h
    obtain ⟨before, after, hentries⟩ := exists_append_of_lookup h
    rw [hentries]
    exact List.mem_append_right before List.mem_cons_self
  · intro h
    obtain ⟨before, after, hentries⟩ := List.append_of_mem h
    exact get?_of_entries_eq hentries

theorem mem_values_iff : v ∈ m.values ↔ ∃ k, m.get? k = some v := by
  rw [values, List.mem_map]
  constructor
  · rintro ⟨⟨k, v⟩, hentry, rfl⟩
    exact ⟨k, get?_eq_some_iff.2 hentry⟩
  · rintro ⟨k, hget⟩
    exact ⟨(k, v), get?_eq_some_iff.1 hget, rfl⟩

theorem values_eq_filterMap (m : OrderedMap κ ν) : m.values = m.keys.filterMap m.get? := by
  have hentries : m.entries.filterMap (m.get? ∘ Prod.fst)
      = m.entries.filterMap (some ∘ Prod.snd) :=
    List.filterMap_congr fun _ hentry => get?_eq_some_iff.2 hentry
  rw [values, keys, List.filterMap_map, hentries, List.filterMap_eq_map]

/-- A present key keeps its place. -/
theorem entries_insert_of_entries_eq (h : m.entries = before ++ (k, v) :: after) :
    (m.insert k w).entries = before ++ (k, w) :: after := by
  change insertPair k w m.entries = _
  rw [h, insertPair_append (not_mem_of_entries_eq h).1, insertPair, if_pos rfl]

/-- An absent key goes to the end. -/
theorem entries_insert_of_get?_eq_none (h : m.get? k = none) :
    (m.insert k v).entries = m.entries ++ [(k, v)] :=
  insertPair_of_not_mem (get?_eq_none_iff.1 h)

theorem entries_ofList {pairs : List (κ × ν)} (h : (pairs.map Prod.fst).Nodup) :
    (ofList pairs).entries = pairs := by
  induction pairs using List.reverseRecOn with
  | nil => rfl
  | append_singleton pairs pair ih =>
      rw [List.map_append, List.map_singleton, List.nodup_append] at h
      obtain ⟨hpairs, _, hnew⟩ := h
      have hentries := ih hpairs
      have hget : (ofList pairs).get? pair.1 = none := by
        rw [get?_eq_none_iff, keys, hentries]
        exact fun hmem => hnew _ hmem _ List.mem_cons_self rfl
      rw [ofList, List.foldl_concat]
      exact (entries_insert_of_get?_eq_none hget).trans (congrArg (· ++ [pair]) hentries)

theorem ofList_entries (m : OrderedMap κ ν) : ofList m.entries = m := by
  have hentries := entries_ofList m.keys_nodup
  generalize ofList m.entries = copy at hentries
  cases copy
  cases m
  cases hentries
  rfl

/-- Up to order, setting a key exchanges its entry for another one and leaves all others alone. -/
theorem exists_others (m : OrderedMap κ ν) (k : κ) :
    ∃ others, k ∉ others.map Prod.fst ∧
      m.entries.Perm ((m.get? k).toList.map (k, ·) ++ others) ∧
      ∀ v, (m.insert k v).entries.Perm ((k, v) :: others) := by
  cases hget : m.get? k with
  | none =>
      refine ⟨m.entries, get?_eq_none_iff.1 hget, .refl _, fun v => ?_⟩
      rw [entries_insert_of_get?_eq_none hget]
      exact List.perm_append_comm
  | some v =>
      obtain ⟨before, after, hentries⟩ := exists_append_of_lookup hget
      have hothers := not_mem_of_entries_eq hentries
      refine ⟨before ++ after, ?_, ?_, fun w => ?_⟩
      · rw [List.map_append, List.mem_append, not_or]
        exact hothers
      · rw [hentries]
        exact List.perm_middle
      · rw [entries_insert_of_entries_eq hentries]
        exact List.perm_middle

/-- Up to order, setting a key exchanges one list for another one and leaves the elements of all
others alone. -/
theorem exists_rest (m : OrderedMap κ (List α)) (k : κ) :
    ∃ rest, m.values.flatten.Perm ((m.get? k).getD [] ++ rest) ∧
      (∀ a ∈ rest, ∃ other, other ≠ k ∧ a ∈ (m.get? other).getD []) ∧
      ∀ list, (m.insert k list).values.flatten.Perm (list ++ rest) := by
  obtain ⟨others, hkey, hentries, hinsert⟩ := m.exists_others k
  refine ⟨(others.map Prod.snd).flatten, ?_, ?_, fun list => ((hinsert list).map Prod.snd).flatten⟩
  · have hvalues := (hentries.map Prod.snd).flatten
    rw [List.map_append, List.flatten_append, flatten_toList] at hvalues
    exact hvalues
  · intro a ha
    obtain ⟨list, hlist, ha⟩ := List.mem_flatten.1 ha
    obtain ⟨entry, hentry, rfl⟩ := List.mem_map.1 hlist
    have hmem := hentries.mem_iff.2 (List.mem_append_right _ hentry)
    refine ⟨entry.1, ?_, ?_⟩
    · rintro rfl
      exact hkey (List.mem_map_of_mem hentry)
    · rw [get?_eq_some_iff.2 hmem]
      exact ha

end OrderedMap

end PathAssembly

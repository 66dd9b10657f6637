import PathAssembly.Header.Crossing
import PathAssembly.Path.Built
import PathAssembly.Proofs.OrderedMap

/-!
# Ledgers of paths

A ledger is what is left of offered paths when of those that cross the same links one is kept, said
without hashes: a map from links to paths. An offer whose links are new goes to the end; any other
one counts only if it lasts longer than the path in its place.

After any offers each path in the ledger is the best one for its links, that is the earliest of
those that last longest, and the links stand in the order in which they were first offered.
-/

namespace PathAssembly

/-- The kept paths, by the links that they cross. -/
abbrev Ledger (μ : Type) := OrderedMap (List Crossing) (BuiltPath μ)

namespace Ledger

variable {μ : Type} {m : Ledger μ} {offers : List (List Crossing × BuiltPath μ)}
  {links : List Crossing} {path old : BuiltPath μ}

def record (m : Ledger μ) (links : List Crossing) (path : BuiltPath μ) : Ledger μ :=
  match m.get? links with
  | none => m.insert links path
  | some old => if old.expiration < path.expiration then m.insert links path else m

def recordAll (m : Ledger μ) (offers : List (List Crossing × BuiltPath μ)) : Ledger μ :=
  offers.foldl (fun m offer => m.record offer.1 offer.2) m

theorem recordAll_concat (m : Ledger μ) (offers : List (List Crossing × BuiltPath μ))
    (offer : List Crossing × BuiltPath μ) :
    m.recordAll (offers ++ [offer]) = (m.recordAll offers).record offer.1 offer.2 :=
  List.foldl_concat ..

def firstOffer (offers : List (List Crossing × BuiltPath μ)) (links : List Crossing) : Nat :=
  (offers.map Prod.fst).idxOf links

/-- A path that lasts longer than the offers for its links before it, and no shorter than those
behind it. -/
def Best (offers : List (List Crossing × BuiltPath μ)) (links : List Crossing)
    (path : BuiltPath μ) : Prop :=
  ∃ before after, offers = before ++ (links, path) :: after ∧
    (∀ other, (links, other) ∈ before → other.expiration < path.expiration) ∧
    ∀ other, (links, other) ∈ after → other.expiration ≤ path.expiration

theorem Best.mem (h : Best offers links path) : (links, path) ∈ offers := by
  obtain ⟨before, after, rfl, _⟩ := h
  exact List.mem_append_right before List.mem_cons_self

theorem Best.expiration_le (h : Best offers links path) {other : BuiltPath μ}
    (hother : (links, other) ∈ offers) : other.expiration ≤ path.expiration := by
  obtain ⟨before, after, rfl, hbefore, hafter⟩ := h
  rcases List.mem_append.1 hother with hother | hother
  · exact Int.le_of_lt (hbefore other hother)
  · rcases List.mem_cons.1 hother with hsame | hother
    · cases hsame
      exact Int.le_refl _
    · exact hafter other hother

theorem best_concat_of_lt
    (h : ∀ other, (links, other) ∈ offers → other.expiration < path.expiration) :
    Best (offers ++ [(links, path)]) links path :=
  ⟨offers, [], rfl, h, fun _ hother => absurd hother List.not_mem_nil⟩

/-- A best path stays the best one while nothing lasts longer. -/
theorem Best.concat {offer : List Crossing × BuiltPath μ} (h : Best offers links path)
    (hoffer : offer.1 = links → offer.2.expiration ≤ path.expiration) :
    Best (offers ++ [offer]) links path := by
  obtain ⟨before, after, rfl, hbefore, hafter⟩ := h
  refine ⟨before, after ++ [offer], by rw [List.append_assoc, List.cons_append], hbefore, ?_⟩
  intro other hother
  rcases List.mem_append.1 hother with hother | hother
  · exact hafter other hother
  · rw [← List.mem_singleton.1 hother] at hoffer
    exact hoffer rfl

/-- What a ledger says of the offers behind it. -/
structure Keeps (offers : List (List Crossing × BuiltPath μ)) (m : Ledger μ) : Prop where
  best : ∀ {links path}, m.get? links = some path → Best offers links path
  complete : ∀ {links}, m.get? links = none → links ∉ offers.map Prod.fst
  inOrder : m.keys.Pairwise fun a b => firstOffer offers a < firstOffer offers b

theorem record_of_get?_eq_none (h : m.get? links = none) :
    m.record links path = m.insert links path := by
  rw [record, h]

theorem record_of_lt (h : m.get? links = some old) (hlt : old.expiration < path.expiration) :
    m.record links path = m.insert links path := by
  rw [record, h]
  exact if_pos hlt

theorem record_of_le (h : m.get? links = some old) (hle : path.expiration ≤ old.expiration) :
    m.record links path = m := by
  rw [record, h]
  exact if_neg (Int.not_lt.2 hle)

theorem get?_record_of_get?_eq_none (h : m.get? links = none) :
    (m.record links path).get? links = some path := by
  rw [record_of_get?_eq_none h, OrderedMap.get?_insert, if_pos rfl]

theorem get?_record_of_get?_eq_some (h : m.get? links = some old) :
    (m.record links path).get? links
      = if old.expiration < path.expiration then some path else some old := by
  split_ifs with hlt
  · rw [record_of_lt h hlt, OrderedMap.get?_insert, if_pos rfl]
  · rw [record_of_le h (Int.not_lt.1 hlt), h]

theorem get?_record_of_ne {key : List Crossing} (h : links ≠ key) :
    (m.record links path).get? key = m.get? key := by
  cases hget : m.get? links with
  | none => rw [record_of_get?_eq_none hget, OrderedMap.get?_insert, if_neg h]
  | some old =>
      rcases Int.lt_or_le old.expiration path.expiration with hlt | hle
      · rw [record_of_lt hget hlt, OrderedMap.get?_insert, if_neg h]
      · rw [record_of_le hget hle]

theorem keys_record_of_get?_eq_none (h : m.get? links = none) :
    (m.record links path).keys = m.keys ++ [links] := by
  rw [record_of_get?_eq_none h, OrderedMap.keys, OrderedMap.entries_insert_of_get?_eq_none h,
    List.map_append]
  rfl

theorem keys_record_of_get?_eq_some (h : m.get? links = some old) :
    (m.record links path).keys = m.keys := by
  have hmem : links ∈ m.keys := by
    by_contra hnone
    rw [OrderedMap.get?_eq_none_iff.2 hnone] at h
    cases h
  rcases Int.lt_or_le old.expiration path.expiration with hlt | hle
  · rw [record_of_lt h hlt]
    exact OrderedMap.keys_insertPair_of_mem hmem
  · rw [record_of_le h hle]

namespace Keeps

theorem mem_offers (h : Keeps offers m) (hlinks : links ∈ m.keys) :
    links ∈ offers.map Prod.fst := by
  by_contra hnone
  cases hget : m.get? links with
  | none => exact OrderedMap.get?_eq_none_iff.1 hget hlinks
  | some path => exact hnone (List.mem_map_of_mem (h.best hget).mem)

theorem firstOffer_concat (h : Keeps offers m) (hlinks : links ∈ m.keys)
    (offer : List Crossing × BuiltPath μ) :
    firstOffer (offers ++ [offer]) links = firstOffer offers links := by
  rw [firstOffer, List.map_append, List.idxOf_append_of_mem (h.mem_offers hlinks), firstOffer]

theorem pairwise_concat (h : Keeps offers m) (offer : List Crossing × BuiltPath μ) :
    m.keys.Pairwise fun a b =>
      firstOffer (offers ++ [offer]) a < firstOffer (offers ++ [offer]) b := by
  refine h.inOrder.imp_of_mem fun {a b} ha hb hlt => ?_
  rw [h.firstOffer_concat ha, h.firstOffer_concat hb]
  exact hlt

/-- A path that lasts longer than all offers for its links is the best one for them. -/
theorem best_insert (h : Keeps offers m)
    (hlt : ∀ other, (links, other) ∈ offers → other.expiration < path.expiration)
    {key : List Crossing} {kept : BuiltPath μ}
    (hkept : (m.insert links path).get? key = some kept) :
    Best (offers ++ [(links, path)]) key kept := by
  rw [OrderedMap.get?_insert] at hkept
  split_ifs at hkept with hkey
  · cases hkept
    subst hkey
    exact best_concat_of_lt hlt
  · exact (h.best hkept).concat fun hsame => absurd hsame hkey

theorem record_new (h : Keeps offers m) (hget : m.get? links = none) (path : BuiltPath μ) :
    Keeps (offers ++ [(links, path)]) (m.record links path) where
  best := by
    intro key kept hkept
    rw [record_of_get?_eq_none hget] at hkept
    exact h.best_insert
      (fun other hother => absurd (List.mem_map_of_mem hother) (h.complete hget)) hkept
  complete := by
    intro key hkey
    rw [OrderedMap.get?_eq_none_iff, keys_record_of_get?_eq_none hget, List.mem_append,
      not_or] at hkey
    rw [List.map_append, List.mem_append, not_or]
    exact ⟨h.complete (OrderedMap.get?_eq_none_iff.2 hkey.1), hkey.2⟩
  inOrder := by
    rw [keys_record_of_get?_eq_none hget]
    refine List.pairwise_append.2 ⟨h.pairwise_concat _, List.pairwise_singleton _ _, ?_⟩
    intro key hkey last hlast
    -- every key was offered before, the new links are offered only now
    rw [List.mem_singleton.1 hlast, h.firstOffer_concat hkey, firstOffer, firstOffer,
      List.map_append, List.idxOf_append_of_notMem (h.complete hget)]
    exact Nat.lt_of_lt_of_le (List.idxOf_lt_length_iff.2 (h.mem_offers hkey))
      (Nat.le_add_right _ _)

/-- An offer for known links decides only which path is the best one for them. -/
theorem of_keys_eq {next : Ledger μ} (h : Keeps offers m) (hget : m.get? links = some old)
    (hkeys : next.keys = m.keys)
    (hbest : ∀ {key kept}, next.get? key = some kept →
      Best (offers ++ [(links, path)]) key kept) :
    Keeps (offers ++ [(links, path)]) next where
  best := hbest
  complete := by
    intro key hkey
    rw [OrderedMap.get?_eq_none_iff, hkeys, ← OrderedMap.get?_eq_none_iff] at hkey
    rw [List.map_append, List.mem_append, not_or]
    refine ⟨h.complete hkey, ?_⟩
    rw [List.map_singleton, List.mem_singleton]
    rintro rfl
    rw [hget] at hkey
    cases hkey
  inOrder := by
    rw [hkeys]
    exact h.pairwise_concat _

theorem record_longer (h : Keeps offers m) (hget : m.get? links = some old)
    (hlt : old.expiration < path.expiration) :
    Keeps (offers ++ [(links, path)]) (m.record links path) := by
  refine h.of_keys_eq hget (keys_record_of_get?_eq_some hget) fun {key kept} hkept => ?_
  rw [record_of_lt hget hlt] at hkept
  exact h.best_insert
    (fun other hother => Int.lt_of_le_of_lt ((h.best hget).expiration_le hother) hlt) hkept

theorem record_shorter (h : Keeps offers m) (hget : m.get? links = some old)
    (hle : path.expiration ≤ old.expiration) :
    Keeps (offers ++ [(links, path)]) (m.record links path) := by
  refine h.of_keys_eq hget (keys_record_of_get?_eq_some hget) fun {key kept} hkept => ?_
  rw [record_of_le hget hle] at hkept
  refine (h.best hkept).concat ?_
  rintro rfl
  rw [hget] at hkept
  cases hkept
  exact hle

theorem record (h : Keeps offers m) (links : List Crossing) (path : BuiltPath μ) :
    Keeps (offers ++ [(links, path)]) (m.record links path) := by
  cases hget : m.get? links with
  | none => exact h.record_new hget path
  | some old =>
      rcases Int.lt_or_le old.expiration path.expiration with hlt | hle
      · exact h.record_longer hget hlt
      · exact h.record_shorter hget hle

theorem recordAll (h : Keeps offers m) (more : List (List Crossing × BuiltPath μ)) :
    Keeps (offers ++ more) (m.recordAll more) := by
  induction more generalizing offers m with
  | nil =>
      rw [List.append_nil]
      exact h
  | cons offer more ih =>
      rw [List.append_cons]
      exact ih (h.record offer.1 offer.2)

end Keeps

/-- After any offers the ledger has the best path for all links that were offered, in the order in
which they were first offered. -/
theorem keeps_recordAll (offers : List (List Crossing × BuiltPath μ)) :
    Keeps offers (recordAll .empty offers) := by
  have hempty : Keeps [] (.empty : Ledger μ) :=
    ⟨fun hget => (Option.some_ne_none _ hget.symm).elim, fun _ => List.not_mem_nil, .nil⟩
  exact hempty.recordAll offers

end Ledger

end PathAssembly

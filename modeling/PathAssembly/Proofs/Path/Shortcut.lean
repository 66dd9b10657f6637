import PathAssembly.Proofs.Path.Loops

/-!
# How short a shortcut is

A path changes over at the last crossing on its last segment. This keeps the fewest hop fields of
the last segment, but not always the fewest of both: a crossing that comes sooner on both segments
saves hop fields of the first one and costs hop fields of the last one. The shortcut is the shortest
exactly if no crossing saves more than it costs, in particular if both segments come to their common
ASes in opposite orders.
-/

namespace PathAssembly

variable {μ : Type}

/-- Two walks are at one AS at these places. -/
def CrossAt (up down : List (Int × AsEntry)) (i j : Nat) : Prop :=
  ∃ x y, up[i]? = some x ∧ down[j]? = some y ∧ x.2.isdAs = y.2.isdAs

/-- The number of hop fields up to place `i` of a first walk and from place `j` of a last one on. -/
def hopsVia (down : List (Int × AsEntry)) (i j : Nat) : Nat := (i + 1) + (down.length - j)

/-- Segments and ranges that follow a first walk up to place `i` and a last one from place `j` on,
which is the last crossing. -/
structure ChangesOver (up down : List (Int × AsEntry)) (segments : List (PathSegment μ))
    (ranges : List SegmentRange) (i j : Nat) : Prop where
  crossAt : CrossAt up down i j
  walks : ((segments.zip ranges).mapM fun (s, r) => r.walk s) = .ok [up.take (i + 1), down.drop j]
  hops : (ranges.map (·.length)).sum = hopsVia down i j
  last : ∀ i' j', CrossAt up down i' j' → j' < j ∨ i' = i ∧ j' = j
  shortest_iff : (∀ i' j', CrossAt up down i' j' → hopsVia down i j ≤ hopsVia down i' j') ↔
    ∀ i' j', CrossAt up down i' j' → i - i' ≤ j - j'

theorem CrossAt.right_lt {up down : List (Int × AsEntry)} {i j : Nat}
    (h : CrossAt up down i j) : j < down.length := by
  obtain ⟨_, y, _, hy, _⟩ := h
  exact (List.getElem?_eq_some_iff.1 hy).1

/-- The last crossing is the shortest exactly if no other one saves more than it costs. -/
theorem hopsVia_le_iff {up down : List (Int × AsEntry)} {i j : Nat} (hcross : CrossAt up down i j)
    (hlast : ∀ i' j', CrossAt up down i' j' → j' < j ∨ i' = i ∧ j' = j) :
    (∀ i' j', CrossAt up down i' j' → hopsVia down i j ≤ hopsVia down i' j') ↔
      ∀ i' j', CrossAt up down i' j' → i - i' ≤ j - j' := by
  have hj := hcross.right_lt
  simp only [hopsVia]
  refine forall₂_congr fun i' j' => forall_congr' fun hcross' => ?_
  have hle := hlast i' j' hcross'
  omega

/-- A path that changes over is the shortest if both walks come to their common ASes in opposite
orders. -/
theorem ChangesOver.shortest_of_opposite {up down : List (Int × AsEntry)}
    {segments : List (PathSegment μ)} {ranges : List SegmentRange} {i j : Nat}
    (h : ChangesOver up down segments ranges i j)
    (hopposite : ∀ k l k' l', CrossAt up down k l → CrossAt up down k' l' → k < k' → l' < l)
    {i' j' : Nat} (hcross : CrossAt up down i' j') : hopsVia down i j ≤ hopsVia down i' j' := by
  refine h.shortest_iff.2 (fun k l hkl => ?_) i' j' hcross
  rcases Nat.lt_or_ge k i with hlt | hge
  · have hback := hopposite k l i j hkl h.crossAt hlt
    have hle := h.last k l hkl
    omega
  · rw [Nat.sub_eq_zero_of_le hge]
    exact Nat.zero_le _

section Ranges

variable {s t : PathSegment μ} {r q : SegmentRange} {source destination : IsdAs}
  {before after lead rest : List (Int × AsEntry)} {x y : Int × AsEntry}

theorem LastCrossing.getElem?_up (h : LastCrossing s t r q before x after lead y rest) :
    (r.visited s)[before.length]? = some x := by
  simp [h.up.visited]

theorem LastCrossing.getElem?_down (h : LastCrossing s t r q before x after lead y rest) :
    (q.visited t)[lead.length]? = some y := by
  simp [h.down]

theorem LastCrossing.last_place (h : LastCrossing s t r q before x after lead y rest)
    (hnodup : (r.ases s).Nodup) {i j : Nat} (hcross : CrossAt (r.visited s) (q.visited t) i j) :
    j < lead.length ∨ i = before.length ∧ j = lead.length := by
  obtain ⟨w, z, hw, hz, hsame⟩ := hcross
  rcases Nat.lt_trichotomy j lead.length with hlt | rfl | hlt
  · exact .inl hlt
  · -- the AS of the last crossing is on the first range once
    obtain rfl : y = z := Option.some.inj (h.getElem?_down.symm.trans hz)
    have hplaces : (r.ases s)[before.length]? = (r.ases s)[i]? := by
      rw [SegmentRange.ases, List.getElem?_map, List.getElem?_map, h.getElem?_up, hw,
        Option.map_some, Option.map_some, h.up.isdAs, hsame]
    have hbound : before.length < (r.ases s).length := by
      rw [SegmentRange.ases, List.length_map]
      exact (List.getElem?_eq_some_iff.1 h.getElem?_up).1
    exact .inr ⟨((List.getElem?_inj hbound hnodup).1 hplaces).symm, rfl⟩
  · -- behind the last crossing there is none
    obtain ⟨k, rfl⟩ := Nat.exists_eq_add_of_lt hlt
    rw [h.down, List.append_cons, List.getElem?_append_right (by simp)] at hz
    exact absurd hsame (h.last z (List.mem_of_getElem? hz) w (List.mem_of_getElem? hw))

/-- A shortcut changes over at the last crossing. -/
theorem LastCrossing.changesOver (h : LastCrossing s t r q before x after lead y rest)
    (hr : r.Fits s) (hq : q.Fits t) (hnodup : (r.ases s).Nodup) :
    ChangesOver (r.visited s) (q.visited t) [s, t]
      [{ r with stop := x.1 + r.step }, { q with start := y.1 }] before.length lead.length := by
  obtain ⟨hfirst, hup⟩ := hr.stop_behind h.up.visited
  obtain ⟨hlast, hdown⟩ := hq.start_at h.down
  have hcross : CrossAt (r.visited s) (q.visited t) before.length lead.length :=
    ⟨x, y, h.getElem?_up, h.getElem?_down, h.up.isdAs⟩
  have hplace := fun i j => h.last_place (i := i) (j := j) hnodup
  refine ⟨hcross, ?_, ?_, hplace, hopsVia_le_iff hcross hplace⟩
  · rw [mapM_walk_eq_ok (.cons hfirst (.cons hlast .nil))]
    have htake : (r.visited s).take (before.length + 1) = before ++ [x] := by
      rw [h.up.visited, List.append_cons]
      exact List.take_left' (by simp)
    have hdrop : (q.visited t).drop lead.length = y :: rest := by simp [h.down]
    rw [htake, hdrop, ← hup, ← hdown]
    rfl
  · have hfirstLength := hfirst.length_visited
    have hlastLength := hlast.length_visited
    rw [hup] at hfirstLength
    rw [hdown] at hlastLength
    simp [← hfirstLength, ← hlastLength, hopsVia, h.down]

/-- If neither end is met on the way of the other one and both ways cross, the path changes over at
the last crossing. -/
theorem Truncates.exists_changesOver {segments segments' : List (PathSegment μ)}
    {ranges ranges' : List SegmentRange}
    (h : Truncates source destination segments ranges segments' ranges')
    (hmany : 2 ≤ segments.length) (hs : segments.head? = some s) (ht : segments.getLast? = some t)
    (hr : ranges.head? = some r) (hq : ranges.getLast? = some q)
    (hfits : List.Forall₂ SegmentRange.Fits segments ranges) (havoids : ¬ Meets s r destination)
    (haway : ¬ Meets t q source) (hs' : s.isCore = false) (ht' : t.isCore = false)
    (hnodup : (r.ases s).Nodup) (hcross : ∃ i j, CrossAt (r.visited s) (q.visited t) i j) :
    ∃ i j, ChangesOver (r.visited s) (q.visited t) segments' ranges' i j := by
  cases h with
  | untilDestination hvisit =>
      cases hs
      cases hr
      exact absurd hvisit.meets havoids
  | alone _ => simp at hmany
  | fromSource _ hvisit =>
      rw [getLast?_cons_concat] at ht hq
      cases ht
      cases hq
      exact absurd hvisit.meets haway
  | @shortcut _ _ _ _ between middle before after lead rest x y _ _ hcrossing =>
      have hlast := forall₂_last hfits
      rw [getLast?_cons_concat] at ht hq
      cases hs
      cases ht
      cases hr
      cases hq
      exact ⟨before.length, lead.length,
        hcrossing.changesOver (List.forall₂_cons.1 hfits).1 hlast hnodup⟩
  | whole _ _ hapart =>
      rw [getLast?_cons_concat] at ht hq
      cases hs
      cases ht
      cases hr
      cases hq
      obtain ⟨i, j, w, z, hw, hz, hsame⟩ := hcross
      exact absurd hsame
        (hapart hs' ht' w (List.mem_of_getElem? hw) z (List.mem_of_getElem? hz))

theorem not_meets_of_contains {a : IsdAs} (h : s.contains a = false) : ¬ Meets s r a := by
  rintro ⟨_, x, hx, hisdAs⟩
  have hcontains := (s.contains_iff a).2 ⟨x, SegmentRange.mem_numbered_of_mem_visited hx, hisdAs⟩
  rw [h] at hcontains
  cases hcontains

end Ranges

/-- Segments that attach to each other and whose ends are not met on the way change over at the last
crossing of the first and the last one, if there is a crossing. -/
theorem truncate_shortest_iff {segments : List (PathSegment μ)} {ranges : List SegmentRange}
    {start source destination : IsdAs} {s t : PathSegment μ} {r q : SegmentRange}
    (hmany : 2 ≤ segments.length) (hs : segments.head? = some s) (ht : segments.getLast? = some t)
    (hscut : s.Cuttable) (htcut : t.Cuttable)
    (horient : PathSegment.orient start segments = some ranges) (hr : ranges.head? = some r)
    (hq : ranges.getLast? = some q) (hdestination : s.contains destination = false)
    (hsource : t.contains source = false) :
    ∃ up down used, r.walk s = .ok up ∧ q.walk t = .ok down ∧
      (truncate segments ranges source destination).result = .ok used ∧
      ((∃ i j, CrossAt up down i j) →
        ∃ i j, ChangesOver up down used.segments used.ranges i j) := by
  have hwhole := PathSegment.forall₂_whole_orientFrom horient
  have hfits := PathSegment.forall₂_fits_orientFrom horient
  have hne : segments ≠ [] := by
    rintro rfl
    simp at hmany
  obtain ⟨used, hused, htruncates⟩ := exists_truncate hfits hne source destination
  refine ⟨_, _, used, SegmentRange.walk_eq_ok (forall₂_head? hfits hs hr),
    SegmentRange.walk_eq_ok (forall₂_getLast? hfits ht hq), hused, ?_⟩
  exact htruncates.exists_changesOver hmany hs ht hr hq hfits (not_meets_of_contains hdestination)
    (not_meets_of_contains hsource) hscut.noncore htcut.noncore
    (hscut.nodup_ases (forall₂_head? hwhole hs hr))

/-- A candidate whose segments come to two of their common ASes in the same order. -/
def Candidate.sameOrder : Candidate Unit where
  source := .plain 1 115
  destination := .plain 1 116
  segments := [.plain .up (.plain 1 110 0 1)
      [.plain 1 111 2 3, .plain 1 112 4 5, .plain 1 113 6 7, .plain 1 115 8 0],
    .plain .down (.plain 1 110 0 9) [.plain 1 113 10 11, .plain 1 111 12 13, .plain 1 116 14 0]]

/-- The crossing of the way through 1-113, 1-112 and 1-111 is chosen, although that at 1-113 saves
two hop fields and costs one. -/
theorem truncate_misses_shorter :
    ∃ s t r q up down used, Candidate.sameOrder.segments = [s, t] ∧ s.Cuttable ∧ t.Cuttable ∧
      PathSegment.orient (.plain 1 115) [s, t] = some [r, q] ∧
      s.contains (.plain 1 116) = false ∧ t.contains (.plain 1 115) = false ∧
      r.walk s = .ok up ∧ q.walk t = .ok down ∧
      (truncate [s, t] [r, q] (.plain 1 115) (.plain 1 116)).result = .ok used ∧
      ((used.segments.zip used.ranges).mapM fun (s, r) => r.walk s)
        = .ok [up.take 4, down.drop 2] ∧
      CrossAt up down 3 2 ∧ CrossAt up down 1 1 ∧ hopsVia down 1 1 < hopsVia down 3 2 := by
  refine ⟨_, _, _, _, _, _, _, rfl, by decide, by decide, rfl, by decide, by decide, rfl, rfl, rfl,
    rfl, ⟨_, _, rfl, rfl, rfl⟩, ⟨_, _, rfl, rfl, rfl⟩, by decide⟩

theorem truncate_shortest_iff_sameOrder :
    ∃ s t r q, Candidate.sameOrder.segments = [s, t] ∧ s.Cuttable ∧ t.Cuttable ∧
      PathSegment.orient (.plain 1 115) [s, t] = some [r, q] ∧
      s.contains (.plain 1 116) = false ∧ t.contains (.plain 1 115) = false ∧
      ∃ up down used, r.walk s = .ok up ∧ q.walk t = .ok down ∧
        (truncate [s, t] [r, q] (.plain 1 115) (.plain 1 116)).result = .ok used ∧
        ∃ i j, ChangesOver up down used.segments used.ranges i j := by
  have horient : PathSegment.orient (.plain 1 115) Candidate.sameOrder.segments
      = some [⟨0, 4, -1, -1⟩, ⟨1, 0, 4, 1⟩] := rfl
  obtain ⟨up, down, used, hup, hdown, hused, hchanges⟩ :=
    truncate_shortest_iff (by decide) rfl rfl (by decide) (by decide) horient rfl rfl
      (by decide : PathSegment.contains _ (.plain 1 116) = false)
      (by decide : PathSegment.contains _ (.plain 1 115) = false)
  have hcross : CrossAt up down 1 1 := by
    cases hup
    cases hdown
    exact ⟨_, _, rfl, rfl, rfl⟩
  exact ⟨_, _, _, _, rfl, by decide, by decide, horient, by decide, by decide, up, down, used, hup,
    hdown, hused, hchanges ⟨1, 1, hcross⟩⟩

end PathAssembly

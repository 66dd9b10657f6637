import PathAssembly.Proofs.Path.AsVisits

/-!
# ASes in transit

Which positions of a range are in transit is decided by its slot alone: the first range of several
leaves out its start, the last one of three its end, and any other one both ends. The visits of the
AS at which two ranges meet then count as one transit, as long as the range that carries both ends
of the path, or stops behind one other, or lies between two others, has two entries (`Spans`).
-/

namespace PathAssembly

variable {μ : Type}

namespace SegmentRange

variable {s : PathSegment μ} {r : SegmentRange}

theorem exists_eq_of_mem_positionsFrom {step position p : Int} {count : Nat}
    (h : p ∈ positionsFrom step count position) :
    ∃ i : Nat, i < count ∧ p = position + i * step := by
  obtain ⟨i, hi⟩ := List.mem_iff_getElem?.1 h
  have hbound : i < count := by
    rw [← length_positionsFrom step count position]
    exact (List.getElem?_eq_some_iff.1 hi).1
  rw [getElem?_positionsFrom hbound] at hi
  exact ⟨i, hbound, (Option.some.inj hi).symm⟩

theorem nodup_positionsFrom {step : Int} (hstep : step = 1 ∨ step = -1) (count : Nat)
    (position : Int) : (positionsFrom step count position).Nodup := by
  induction count generalizing position with
  | zero => exact List.nodup_nil
  | succ count ih =>
      refine List.nodup_cons.2 ⟨?_, ih (position + step)⟩
      intro hmem
      obtain ⟨i, _, hi⟩ := exists_eq_of_mem_positionsFrom hmem
      rcases hstep with rfl | rfl
      · omega
      · omega

theorem Fits.nodup_fst (h : r.Fits s) : ((r.visited s).map Prod.fst).Nodup := by
  rw [h.map_fst_visited]
  refine nodup_positionsFrom ?_ r.count r.start
  cases h with
  | forward => exact .inl rfl
  | reverse => exact .inr rfl

theorem Fits.starts (h : r.Fits s) {x : Int × AsEntry} {rest : List (Int × AsEntry)}
    (hvisited : r.visited s = x :: rest) : x.1 = r.start ∧ ∀ y ∈ rest, y.1 ≠ r.start := by
  have hpositions := h.map_fst_visited
  have hnodup := h.nodup_fst
  rw [hvisited, List.map_cons] at hpositions hnodup
  have hstart : x.1 = r.start := by
    cases hcount : r.count with
    | zero =>
        rw [hcount] at hpositions
        cases hpositions
    | succ count =>
        rw [hcount] at hpositions
        exact (List.cons.inj hpositions).1
  refine ⟨hstart, ?_⟩
  intro y hy hback
  exact (List.nodup_cons.1 hnodup).1 (List.mem_map.2 ⟨y, hy, hback.trans hstart.symm⟩)

theorem Fits.stops (h : r.Fits s) {y : Int × AsEntry} {init : List (Int × AsEntry)}
    (hvisited : r.visited s = init ++ [y]) : y.1 = r.last ∧ ∀ x ∈ init, x.1 ≠ r.last := by
  have hpositions := h.map_fst_visited
  have hnodup := h.nodup_fst
  rw [hvisited, List.map_append] at hpositions hnodup
  have hlast : y.1 = r.last := by
    have hcount : init.length + 1 = r.count := by
      have hlength := congrArg List.length hpositions
      simpa using hlength
    have hget : (init.map Prod.fst ++ [y.1])[(init.map Prod.fst).length]? = some y.1 :=
      List.getElem?_concat_length
    change init.map Prod.fst ++ [y.1] = _ at hpositions
    rw [hpositions, List.length_map, getElem?_positionsFrom (by omega), Option.some.injEq] at hget
    rw [h.last_eq, ← hcount, ← hget]
    congr 2
    omega
  refine ⟨hlast, ?_⟩
  intro x hx hback
  rw [List.nodup_append] at hnodup
  exact hnodup.2.2 x.1 (List.mem_map_of_mem hx) y.1 List.mem_cons_self (hback.trans hlast.symm)

end SegmentRange

/-- How often each visit counts as a transit. -/
def transits (vs : List Visit) : List Nat := vs.map fun v => [v].countP (·.transit)

/-- The transits of the ASes of a path are those of its slots, put together likewise. -/
theorem map_countP_asVisits (slots : List (List Visit)) :
    (asVisits slots).map (·.countP (·.transit))
      = (slots.map transits).foldr (overlap (· + ·)) [] := by
  induction slots with
  | nil => rfl
  | cons slot slots ih =>
      have hsum : ∀ vs ws : List Visit,
          (vs ++ ws).countP (·.transit) = vs.countP (·.transit) + ws.countP (·.transit) :=
        fun vs ws => List.countP_append
      rw [asVisits, List.foldr_cons, map_overlap hsum, List.map_map, List.map_cons,
        List.foldr_cons, ← ih]
      rfl

/-- The ends of a path are not in transit, and what lies between them is, once for each AS. -/
def through (count : Nat) : List Nat := 0 :: (List.replicate count 1 ++ [0])

theorem length_through (count : Nat) : (through count).length = count + 2 := by
  simp [through]

theorem sum_through (count : Nat) : (through count).sum = count := by
  simp [through]

theorem replicate_append_cons {α : Type} (x : α) (before behind : Nat) (rest : List α) :
    List.replicate before x ++ x :: (List.replicate behind x ++ rest)
      = List.replicate (before + 1 + behind) x ++ rest := by
  rw [← List.cons_append, ← List.replicate_succ, ← List.append_assoc,
    List.replicate_append_replicate, Nat.succ_add_eq_add_succ]

/-- Behind a slot whose first position alone is not in transit, an end becomes a transit. -/
theorem overlap_start_through (before count : Nat) :
    overlap (· + ·) (0 :: List.replicate before 1) (through count) = through (before + count) := by
  cases before with
  | zero =>
      rw [Nat.zero_add]
      rfl
  | succ before =>
      have hend : 0 :: List.replicate (before + 1) 1 = (0 :: List.replicate before 1) ++ [1] := by
        rw [List.replicate_succ']
        rfl
      rw [hend, through, overlap_concat, through, ← replicate_append_cons]
      rfl

/-- Before a slot whose last position alone is not in transit, an end becomes a transit. -/
theorem overlap_through_stop (count behind : Nat) :
    overlap (· + ·) (through count) (List.replicate behind 1 ++ [0])
      = through (count + behind) := by
  have hend : through count = (0 :: List.replicate count 1) ++ [0] := rfl
  cases behind with
  | zero =>
      rw [hend, List.replicate_zero, List.nil_append, overlap_concat]
      rfl
  | succ behind =>
      have hstart : List.replicate (behind + 1) 1 ++ [0] = 1 :: (List.replicate behind 1 ++ [0]) :=
        rfl
      have hcount : count + (behind + 1) = count + 1 + behind := by omega
      rw [hend, hstart, overlap_concat, through, hcount, ← replicate_append_cons]
      rfl

namespace PathMetadata

variable {s : PathSegment μ} {r : SegmentRange}

theorem isTransit_first {count : Nat} (h : count ≠ 1) (position : Int) (r : SegmentRange) :
    isTransit 0 count position r = !(position == r.start) := by
  rw [isTransit, if_neg h, if_pos rfl]

theorem isTransit_third (position : Int) (r : SegmentRange) :
    isTransit 2 3 position r = !(position == r.last) := rfl

/-- A range alone and the one behind the first are left out at both ends. -/
theorem isTransit_both {slot count : Nat} (h : count = 1 ∨ slot = 1) (position : Int)
    (r : SegmentRange) :
    isTransit slot count position r = !(position == r.start || position == r.last) := by
  rw [isTransit]
  rcases h with rfl | rfl
  · rw [if_pos rfl]
  · split
    · rfl
    · rw [if_neg Nat.one_ne_zero, if_neg (by omega)]

theorem transits_visitsAlong (slot count : Nat) (s : PathSegment μ) (r : SegmentRange) :
    transits (visitsAlong slot count s r)
      = (r.visited s).map fun x => if isTransit slot count x.1 r then 1 else 0 := by
  rw [transits, visitsAlong, List.map_map]
  apply List.map_congr_left
  intro x _
  exact List.countP_singleton

theorem transits_first (hfits : r.Fits s) (count : Nat) (hcount : count ≠ 1) :
    ∃ n, transits (visitsAlong 0 count s r) = 0 :: List.replicate n 1 := by
  obtain ⟨x, rest, hvisited⟩ := List.exists_cons_of_ne_nil hfits.visited_ne_nil
  obtain ⟨hstart, hothers⟩ := hfits.starts hvisited
  refine ⟨rest.length, ?_⟩
  rw [transits_visitsAlong, hvisited, List.map_cons]
  congr 1
  · rw [isTransit_first hcount, hstart, beq_self_eq_true]
    rfl
  · rw [List.map_eq_replicate_iff]
    intro y hy
    rw [isTransit_first hcount, beq_eq_false_iff_ne.2 (hothers y hy)]
    rfl

theorem transits_third (hfits : r.Fits s) :
    ∃ n, transits (visitsAlong 2 3 s r) = List.replicate n 1 ++ [0] := by
  obtain ⟨init, y, hvisited⟩ :=
    (List.eq_nil_or_concat (r.visited s)).resolve_left hfits.visited_ne_nil
  rw [List.concat_eq_append] at hvisited
  obtain ⟨hlast, hothers⟩ := hfits.stops hvisited
  refine ⟨init.length, ?_⟩
  rw [transits_visitsAlong, hvisited, List.map_append]
  congr 1
  · rw [List.map_eq_replicate_iff]
    intro x hx
    rw [isTransit_third, beq_eq_false_iff_ne.2 (hothers x hx)]
    rfl
  · rw [List.map_singleton, isTransit_third, hlast, beq_self_eq_true]
    rfl

theorem transits_both (hfits : r.Fits s) (htwo : 1 < (r.visited s).length) (slot count : Nat)
    (hslot : count = 1 ∨ slot = 1) :
    ∃ n, transits (visitsAlong slot count s r) = through n := by
  obtain ⟨x, rest, hvisited⟩ := List.exists_cons_of_ne_nil hfits.visited_ne_nil
  have hrest : rest ≠ [] := by
    rintro rfl
    rw [hvisited] at htwo
    exact absurd htwo (Nat.lt_irrefl 1)
  obtain ⟨inner, y, hconcat⟩ := (List.eq_nil_or_concat rest).resolve_left hrest
  rw [List.concat_eq_append] at hconcat
  obtain ⟨hstart, hnotstart⟩ := hfits.starts hvisited
  rw [hconcat] at hvisited hnotstart
  have hsplit : r.visited s = (x :: inner) ++ [y] := hvisited
  obtain ⟨hlast, hnotlast⟩ := hfits.stops hsplit
  refine ⟨inner.length, ?_⟩
  rw [transits_visitsAlong, hvisited, List.map_cons, List.map_append, List.map_singleton,
    isTransit_both hslot, isTransit_both hslot, hstart, hlast, beq_self_eq_true,
    beq_self_eq_true, Bool.or_true, through]
  congr 2
  rw [List.map_eq_replicate_iff]
  intro z hz
  rw [isTransit_both hslot,
    beq_eq_false_iff_ne.2 (hnotstart z (List.mem_append_left _ hz)),
    beq_eq_false_iff_ne.2 (hnotlast z (List.mem_cons_of_mem x hz))]
  rfl

end PathMetadata

open PathMetadata (slotsAlong visitsAlong)

/-- Up to three ranges, of which the one alone, the last one of two and the middle one of three go
from one entry to another. -/
inductive Spans : List (PathSegment μ) → List SegmentRange → Prop
  | one {s : PathSegment μ} {r : SegmentRange} (htwo : 1 < (r.visited s).length) : Spans [s] [r]
  | two {s t : PathSegment μ} {r q : SegmentRange} (htwo : 1 < (q.visited t).length) :
      Spans [s, t] [r, q]
  | three {s u t : PathSegment μ} {r p q : SegmentRange} (htwo : 1 < (p.visited u).length) :
      Spans [s, u, t] [r, p, q]

theorem Spans.zip_ne_nil {segments : List (PathSegment μ)} {ranges : List SegmentRange}
    (h : Spans segments ranges) : segments.zip ranges ≠ [] := by
  cases h <;> exact List.cons_ne_nil _ _

/-- Of the ASes of such ranges all but the first and the last are transited, each of them once. -/
theorem Spans.exists_through {segments : List (PathSegment μ)} {ranges : List SegmentRange}
    (h : Spans segments ranges) (hfits : List.Forall₂ SegmentRange.Fits segments ranges) :
    ∃ n, (asVisits (slotsAlong segments ranges)).map (·.countP (·.transit)) = through n := by
  rw [map_countP_asVisits]
  -- which ends are left out depends on the number of slots, so there is a case for each number
  cases h with
  | @one s r htwo =>
      obtain ⟨hr, _⟩ := List.forall₂_cons.1 hfits
      obtain ⟨n, hn⟩ := PathMetadata.transits_both hr htwo 0 1 (.inl rfl)
      refine ⟨n, ?_⟩
      change overlap _ (transits (visitsAlong 0 1 s r)) [] = _
      rw [hn, overlap_nil_right]
  | @two s t r q htwo =>
      obtain ⟨hr, hfits⟩ := List.forall₂_cons.1 hfits
      obtain ⟨hq, _⟩ := List.forall₂_cons.1 hfits
      obtain ⟨n, hn⟩ := PathMetadata.transits_first hr 2 (by decide)
      obtain ⟨m, hm⟩ := PathMetadata.transits_both hq htwo 1 2 (.inr rfl)
      refine ⟨n + m, ?_⟩
      change overlap _ (transits (visitsAlong 0 2 s r))
        (overlap _ (transits (visitsAlong 1 2 t q)) []) = _
      rw [hn, hm, overlap_nil_right, overlap_start_through]
  | @three s u t r p q htwo =>
      obtain ⟨hr, hfits⟩ := List.forall₂_cons.1 hfits
      obtain ⟨hp, hfits⟩ := List.forall₂_cons.1 hfits
      obtain ⟨hq, _⟩ := List.forall₂_cons.1 hfits
      obtain ⟨n, hn⟩ := PathMetadata.transits_first hr 3 (by decide)
      obtain ⟨m, hm⟩ := PathMetadata.transits_both hp htwo 1 3 (.inr rfl)
      obtain ⟨k, hk⟩ := PathMetadata.transits_third hq
      refine ⟨n + (m + k), ?_⟩
      change overlap _ (transits (visitsAlong 0 3 s r))
        (overlap _ (transits (visitsAlong 1 3 u p))
          (overlap _ (transits (visitsAlong 2 3 t q)) [])) = _
      rw [hn, hm, hk, overlap_nil_right, overlap_through_stop, overlap_start_through]

end PathAssembly

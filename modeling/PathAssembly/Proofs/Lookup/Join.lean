import Mathlib.Data.List.Induction
import Mathlib.Data.List.ProdSigma
import PathAssembly.Lookup.Combination
import PathAssembly.Proofs.Segment.Window

/-!
# Joins of segment sets

The index of segments by their other end holds, for every AS, the segments that reach it, in their
order. Joins over indices are therefore nested loops over lists of segments. For a core segment with
segments at both of its ends on both sides only one of the two assignments is joined:
`mem_combineSets_iff` says which candidates of three segments come out.
-/

namespace PathAssembly

variable {μ : Type}

/-- The segments between a known AS and another one, from end to end. -/
def between (known other : IsdAs) (segments : List (PathSegment μ)) : List (PathSegment μ) :=
  segments.filter fun s => s.otherEnd known = some other

theorem mem_between_iff {known other : IsdAs} {segments : List (PathSegment μ)}
    {s : PathSegment μ} :
    s ∈ between known other segments ↔ s ∈ segments ∧ s.otherEnd known = some other := by
  rw [between, List.mem_filter, decide_eq_true_iff]

theorem between_ne_nil_iff {known other : IsdAs} {segments : List (PathSegment μ)} :
    between known other segments ≠ [] ↔ ∃ s ∈ segments, s.otherEnd known = some other := by
  rw [between, Ne, List.filter_eq_nil_iff]
  simp

theorem between_concat (known other : IsdAs) (segments : List (PathSegment μ))
    (s : PathSegment μ) :
    between known other (segments ++ [s])
      = between known other segments ++ if s.otherEnd known = some other then [s] else [] := by
  rw [between, List.filter_append, between]
  by_cases h : s.otherEnd known = some other
  · simp [h]
  · simp [h]

def nonempty? (segments : List (PathSegment μ)) : Option (List (PathSegment μ)) :=
  if segments = [] then none else some segments

theorem nonempty?_getD (segments : List (PathSegment μ)) :
    (nonempty? segments).getD [] = segments := by
  unfold nonempty?
  split
  · rename_i h
    rw [h]
    rfl
  · rfl

theorem nonempty?_eq_some_iff {segments found : List (PathSegment μ)} :
    nonempty? segments = some found ↔ segments = found ∧ found ≠ [] := by
  unfold nonempty?
  split
  · rename_i h
    constructor
    · intro hsome
      cases hsome
    · rintro ⟨rfl, hne⟩
      exact absurd h hne
  · rename_i h
    constructor
    · intro hsome
      cases hsome
      exact ⟨rfl, h⟩
    · rintro ⟨rfl, _⟩
      rfl

theorem indexByOtherEnd_concat (known : IsdAs) (segments : List (PathSegment μ))
    (s : PathSegment μ) :
    indexByOtherEnd known (segments ++ [s])
      = match s.otherEnd known with
        | some other => (indexByOtherEnd known segments).alter other fun found =>
            found.getD [] ++ [s]
        | none => indexByOtherEnd known segments := by
  rw [indexByOtherEnd, List.foldl_append]
  rfl

/-- The index holds the segments to every AS that is reached. -/
theorem get?_indexByOtherEnd (known other : IsdAs) (segments : List (PathSegment μ)) :
    (indexByOtherEnd known segments).get? other = nonempty? (between known other segments) := by
  induction segments using List.reverseRecOn with
  | nil => rfl
  | append_singleton segments s ih =>
      rw [indexByOtherEnd_concat, between_concat]
      cases hother : s.otherEnd known with
      | none =>
          rw [ih, if_neg (by simp), List.append_nil]
      | some reached =>
          simp only [OrderedMap.get?_alter]
          by_cases hreached : reached = other
          · rw [if_pos hreached, hreached, ih, nonempty?_getD, if_pos rfl]
            exact (nonempty?_eq_some_iff.2 ⟨rfl, by simp⟩).symm
          · rw [if_neg hreached, ih, if_neg (by simpa using hreached), List.append_nil]

namespace Candidate

/-- Two segments are joined where both their other ends meet. -/
theorem mem_joinTwo_iff {first second : List (PathSegment μ)} {source destination : IsdAs}
    {candidate : Candidate μ} :
    candidate ∈ joinTwo first second source destination ↔
      ∃ s ∈ first, ∃ t ∈ second, ∃ middle, s.otherEnd source = some middle ∧
        t.otherEnd destination = some middle ∧
        candidate = { source, destination, segments := [s, t] } := by
  simp only [joinTwo, List.mem_flatMap, get?_indexByOtherEnd, nonempty?_getD]
  constructor
  · rintro ⟨s, hs, hmem⟩
    split at hmem
    · rename_i middle hmiddle
      obtain ⟨t, ht, rfl⟩ := List.mem_map.1 hmem
      obtain ⟨hsecond, hother⟩ := mem_between_iff.1 ht
      exact ⟨s, hs, t, hsecond, middle, hmiddle, hother, rfl⟩
    · cases hmem
  · rintro ⟨s, hs, t, ht, middle, hmiddle, hother, rfl⟩
    refine ⟨s, hs, ?_⟩
    rw [hmiddle]
    exact List.mem_map.2 ⟨t, mem_between_iff.2 ⟨ht, hother⟩, rfl⟩

theorem filter_meeting (source destination : IsdAs) (s : PathSegment μ)
    (second : List (PathSegment μ)) :
    (second.filter fun t =>
        (s.otherEnd source).isSome && s.otherEnd source == t.otherEnd destination)
      = match s.otherEnd source with
        | some middle => between destination middle second
        | none => [] := by
  cases s.otherEnd source with
  | none => exact List.filter_eq_nil_iff.2 fun _ _ => Bool.false_ne_true
  | some middle =>
      apply List.filter_congr
      intro t _
      rw [Option.isSome_some, Bool.true_and, Bool.eq_iff_iff, beq_iff_eq, decide_eq_true_iff,
        eq_comm]

/-- The join over an index is the scan of all pairs, in the order of their first and then of their
second segment, for those whose other ends meet. -/
theorem joinTwo_eq_scan (first second : List (PathSegment μ)) (source destination : IsdAs) :
    joinTwo first second source destination
      = ((first ×ˢ second).filter fun (s, t) =>
          (s.otherEnd source).isSome && s.otherEnd source == t.otherEnd destination).map
        fun (s, t) => { source, destination, segments := [s, t] } := by
  induction first with
  | nil => rfl
  | cons s rest ih =>
      rw [List.product_cons, List.filter_append, List.map_append, ← ih, List.filter_map,
        List.map_map]
      change _ = ((second.filter fun t =>
        (s.otherEnd source).isSome && s.otherEnd source == t.otherEnd destination).map _) ++ _
      rw [filter_meeting]
      simp only [joinTwo, List.flatMap_cons, get?_indexByOtherEnd, nonempty?_getD]
      cases s.otherEnd source <;> rfl

theorem mem_single_iff {segments : List (PathSegment μ)} {source destination : IsdAs}
    {candidate : Candidate μ} :
    candidate ∈ single segments source destination ↔
      ∃ s ∈ segments, s.contains source = true ∧ s.contains destination = true ∧
        candidate = { source, destination, segments := [s] } := by
  simp only [single, List.mem_map, List.mem_filter, Bool.and_eq_true]
  constructor
  · rintro ⟨s, ⟨hs, hsource, hdestination⟩, rfl⟩
    exact ⟨s, hs, hsource, hdestination, rfl⟩
  · rintro ⟨s, hs, hsource, hdestination, rfl⟩
    exact ⟨s, ⟨hs, hsource, hdestination⟩, rfl⟩

def across (source destination : IsdAs) (c : PathSegment μ) (ups downs : List (PathSegment μ)) :
    List (Candidate μ) :=
  ups.flatMap fun u => downs.map fun d => { source, destination, segments := [u, c, d] }

theorem mem_across_iff {source destination : IsdAs} {c : PathSegment μ}
    {ups downs : List (PathSegment μ)} {candidate : Candidate μ} :
    candidate ∈ across source destination c ups downs ↔
      ∃ u ∈ ups, ∃ d ∈ downs, candidate = { source, destination, segments := [u, c, d] } := by
  simp only [across, List.mem_flatMap, List.mem_map, eq_comm]

/-- Some candidate leads across a core segment with its origin as the upper end. -/
def JoinsForward (up down : List (PathSegment μ)) (source destination : IsdAs)
    (c : PathSegment μ) : Prop :=
  between source c.first up ≠ [] ∧ between destination c.last down ≠ []

instance (up down : List (PathSegment μ)) (source destination : IsdAs) (c : PathSegment μ) :
    Decidable (JoinsForward up down source destination c) :=
  inferInstanceAs (Decidable (_ ∧ _))

theorem across_eq_nil {source destination : IsdAs} {c : PathSegment μ}
    {ups downs : List (PathSegment μ)} (h : ups = [] ∨ downs = []) :
    across source destination c ups downs = [] := by
  rcases h with rfl | rfl
  · rfl
  · simp [across]

/-- The join over indices is a loop over core segments and over the segments that reach their
ends. -/
theorem joinThree_eq (up core down : List (PathSegment μ)) (source destination : IsdAs) :
    joinThree up core down source destination
      = core.flatMap fun c =>
        if JoinsForward up down source destination c then
          across source destination c (between source c.first up) (between destination c.last down)
        else
          across source destination c (between source c.last up)
            (between destination c.first down) := by
  simp only [joinThree, get?_indexByOtherEnd]
  congr 1
  funext c
  split
  · rename_i ups downs hups hdowns
    obtain ⟨rfl, hupsNe⟩ := nonempty?_eq_some_iff.1 hups
    obtain ⟨rfl, hdownsNe⟩ := nonempty?_eq_some_iff.1 hdowns
    rw [if_pos ⟨hupsNe, hdownsNe⟩]
    rfl
  · rename_i hforward
    have hnot : ¬ JoinsForward up down source destination c := by
      rintro ⟨hups, hdowns⟩
      exact hforward _ _ (nonempty?_eq_some_iff.2 ⟨rfl, hups⟩)
        (nonempty?_eq_some_iff.2 ⟨rfl, hdowns⟩)
    rw [if_neg hnot]
    -- an index without one of the two keys and a loop over no segments both give nothing
    split
    · rename_i ups downs hups hdowns
      obtain ⟨rfl, _⟩ := nonempty?_eq_some_iff.1 hups
      obtain ⟨rfl, _⟩ := nonempty?_eq_some_iff.1 hdowns
      rfl
    · rename_i hbackward
      symm
      apply across_eq_nil
      by_contra hsides
      obtain ⟨hups, hdowns⟩ := not_or.1 hsides
      exact hbackward _ _ (nonempty?_eq_some_iff.2 ⟨rfl, hups⟩)
        (nonempty?_eq_some_iff.2 ⟨rfl, hdowns⟩)

theorem joinsForward_iff {up down : List (PathSegment μ)} {source destination : IsdAs}
    {c : PathSegment μ} :
    JoinsForward up down source destination c ↔
      (∃ u ∈ up, u.otherEnd source = some c.first) ∧
        ∃ d ∈ down, d.otherEnd destination = some c.last := by
  rw [JoinsForward, between_ne_nil_iff, between_ne_nil_iff]

/-- Segments up and down reach the two ends of a core segment: in its direction, or against it if
nothing is joined in its direction. -/
def Joined (up down : List (PathSegment μ)) (source destination : IsdAs)
    (u c d : PathSegment μ) : Prop :=
  (u.otherEnd source = some c.first ∧ d.otherEnd destination = some c.last) ∨
    (u.otherEnd source = some c.last ∧ d.otherEnd destination = some c.first ∧
      ¬ JoinsForward up down source destination c)

theorem mem_joinThree_iff {up core down : List (PathSegment μ)} {source destination : IsdAs}
    {candidate : Candidate μ} :
    candidate ∈ joinThree up core down source destination ↔
      ∃ u ∈ up, ∃ c ∈ core, ∃ d ∈ down, Joined up down source destination u c d ∧
        candidate = { source, destination, segments := [u, c, d] } := by
  rw [joinThree_eq, List.mem_flatMap]
  constructor
  · rintro ⟨c, hc, hmem⟩
    split_ifs at hmem with hforward
    · obtain ⟨u, hu, d, hd, rfl⟩ := mem_across_iff.1 hmem
      obtain ⟨hup, hfirst⟩ := mem_between_iff.1 hu
      obtain ⟨hdown, hlast⟩ := mem_between_iff.1 hd
      exact ⟨u, hup, c, hc, d, hdown, Or.inl ⟨hfirst, hlast⟩, rfl⟩
    · obtain ⟨u, hu, d, hd, rfl⟩ := mem_across_iff.1 hmem
      obtain ⟨hup, hlast⟩ := mem_between_iff.1 hu
      obtain ⟨hdown, hfirst⟩ := mem_between_iff.1 hd
      exact ⟨u, hup, c, hc, d, hdown, Or.inr ⟨hlast, hfirst, hforward⟩, rfl⟩
  · rintro ⟨u, hup, c, hc, d, hdown, ⟨hfirst, hlast⟩ | ⟨hlast, hfirst, hnot⟩, rfl⟩
    · have hu := mem_between_iff.2 ⟨hup, hfirst⟩
      have hd := mem_between_iff.2 ⟨hdown, hlast⟩
      refine ⟨c, hc, ?_⟩
      rw [if_pos ⟨List.ne_nil_of_mem hu, List.ne_nil_of_mem hd⟩]
      exact mem_across_iff.2 ⟨u, hu, d, hd, rfl⟩
    · refine ⟨c, hc, ?_⟩
      rw [if_neg hnot]
      exact mem_across_iff.2 ⟨u, mem_between_iff.2 ⟨hup, hlast⟩, d,
        mem_between_iff.2 ⟨hdown, hfirst⟩, rfl⟩

theorem length_of_mem_joinTwo {first second : List (PathSegment μ)} {source destination : IsdAs}
    {candidate : Candidate μ} (h : candidate ∈ joinTwo first second source destination) :
    candidate.segments.length = 2 := by
  obtain ⟨s, _, t, _, middle, _, _, rfl⟩ := mem_joinTwo_iff.1 h
  rfl

theorem length_of_mem_single {segments : List (PathSegment μ)} {source destination : IsdAs}
    {candidate : Candidate μ} (h : candidate ∈ single segments source destination) :
    candidate.segments.length = 1 := by
  obtain ⟨s, _, _, _, rfl⟩ := mem_single_iff.1 h
  rfl

theorem mem_ofSets_three_iff {up core down : List (PathSegment μ)} {source destination : IsdAs}
    {candidate : Candidate μ} (hthree : candidate.segments.length = 3) :
    candidate ∈ ofSets up core down source destination ↔
      candidate ∈ joinThree up core down source destination := by
  have hjoin : ∀ {first second : List (PathSegment μ)},
      candidate ∉ joinTwo first second source destination := by
    intro first second hmem
    rw [length_of_mem_joinTwo hmem] at hthree
    cases hthree
  have hsingle : ∀ {segments : List (PathSegment μ)},
      candidate ∉ single segments source destination := by
    intro segments hmem
    rw [length_of_mem_single hmem] at hthree
    cases hthree
  have hnone : up = [] ∨ core = [] ∨ down = [] →
      candidate ∉ joinThree up core down source destination := by
    intro hempty hmem
    obtain ⟨u, hu, c, hc, d, hd, _, _⟩ := mem_joinThree_iff.1 hmem
    rcases hempty with rfl | rfl | rfl
    · cases hu
    · cases hc
    · cases hd
  cases up with
  | nil =>
      rw [iff_false_right (hnone (Or.inl rfl))]
      cases core with
      | nil => cases down with
        | nil => exact List.not_mem_nil
        | cons d down => exact hsingle
      | cons c core => cases down with
        | nil => exact hsingle
        | cons d down => simp [ofSets, hjoin, hsingle]
  | cons u up => cases core with
    | nil =>
        rw [iff_false_right (hnone (Or.inr (Or.inl rfl)))]
        cases down with
        | nil => exact hsingle
        | cons d down => exact hjoin
    | cons c core => cases down with
      | nil =>
          rw [iff_false_right (hnone (Or.inr (Or.inr rfl)))]
          simp [ofSets, hjoin, hsingle]
      | cons d down =>
          simp only [ofSets, List.isEmpty_cons, List.mem_append, or_iff_left_iff_imp]
          intro hmem
          split_ifs at hmem
          · exact absurd hmem hjoin
          · cases hmem

/-- Which candidates of three segments come out of a combination: those whose outer segments reach
the ends of the core segment in its direction, and those in which they reach them the other way
round, unless the core segment is joined in its direction already. -/
theorem mem_combineSets_iff (up core down : List (PathSegment μ)) (source destination : IsdAs)
    (u c d : PathSegment μ) :
    ∃ candidates, (combineSets up core down source destination).result = .ok candidates ∧
      (({ source, destination, segments := [u, c, d] } : Candidate μ) ∈ candidates ↔
        u ∈ up ∧ c ∈ core ∧ d ∈ down ∧
          ((u.otherEnd source = some c.first ∧ d.otherEnd destination = some c.last) ∨
            (u.otherEnd source = some c.last ∧ d.otherEnd destination = some c.first ∧
              ¬ ((∃ u' ∈ up, u'.otherEnd source = some c.first) ∧
                ∃ d' ∈ down, d'.otherEnd destination = some c.last)))) := by
  refine ⟨ofSets up core down source destination, rfl, ?_⟩
  rw [mem_ofSets_three_iff rfl, mem_joinThree_iff, ← joinsForward_iff]
  constructor
  · rintro ⟨u', hu, c', hc, d', hd, hjoined, hsame⟩
    obtain ⟨rfl, rfl, rfl⟩ : u = u' ∧ c = c' ∧ d = d' := by simpa using hsame
    exact ⟨hu, hc, hd, hjoined⟩
  · rintro ⟨hu, hc, hd, hjoined⟩
    exact ⟨u, hu, c, hc, d, hd, hjoined, rfl⟩

/-- A source and a destination, each of them below both ends of a core segment. -/
def lowerSource : IsdAs := .plain 1 111

def lowerDestination : IsdAs := .plain 2 112

def originToSource : PathSegment Unit := .plain .up (.plain 1 110 0 1) [.plain 1 111 2 0]

def endToSource : PathSegment Unit := .plain .up (.plain 2 120 0 3) [.plain 1 111 4 0]

def originToEnd : PathSegment Unit := .plain .core (.plain 1 110 0 5) [.plain 2 120 6 0]

def originToDestination : PathSegment Unit := .plain .down (.plain 1 110 0 7) [.plain 2 112 8 0]

def endToDestination : PathSegment Unit := .plain .down (.plain 2 120 0 9) [.plain 2 112 10 0]

/-- Where both assignments of a core segment match, the join against its direction is lost. -/
theorem combineSets_drops_reverse_join :
    endToSource ∈ [originToSource, endToSource] ∧
      originToDestination ∈ [originToDestination, endToDestination] ∧
      endToSource.otherEnd lowerSource = some originToEnd.last ∧
      originToDestination.otherEnd lowerDestination = some originToEnd.first ∧
      ∃ candidates,
        (combineSets [originToSource, endToSource] [originToEnd]
          [originToDestination, endToDestination] lowerSource lowerDestination).result
            = .ok candidates ∧
        ({ source := lowerSource, destination := lowerDestination,
           segments := [endToSource, originToEnd, originToDestination] } : Candidate Unit)
          ∉ candidates :=
  ⟨by decide, by decide, by decide, by decide, _, rfl, by decide +kernel⟩

end Candidate

end PathAssembly

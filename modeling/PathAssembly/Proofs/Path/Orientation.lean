import PathAssembly.Path.Orientation
import PathAssembly.Proofs.Segment.Window

/-!
# Chains of oriented segments

`Leads a pairs b` says that ranges of segments are traversed from the AS `a` to the AS `b`: each
range is entered where the one before it was left. Segments that are oriented from an AS on are a
chain from it to their far end, which `farEnd` finds from the ends of the segments alone.
-/

namespace PathAssembly

namespace SegmentRange

variable {μ : Type}

def entryAs (r : SegmentRange) (s : PathSegment μ) : Option IsdAs :=
  (r.visited s).head?.map (·.2.isdAs)

def exitAs (r : SegmentRange) (s : PathSegment μ) : Option IsdAs :=
  (r.visited s).getLast?.map (·.2.isdAs)

end SegmentRange

/-- Ranges of segments lead from one AS to another. -/
inductive Leads {μ : Type} : IsdAs → List (PathSegment μ × SegmentRange) → IsdAs → Prop
  | nil (a : IsdAs) : Leads a [] a
  | cons {a b c : IsdAs} {s : PathSegment μ} {r : SegmentRange}
      {rest : List (PathSegment μ × SegmentRange)} (hentry : r.entryAs s = some a)
      (hexit : r.exitAs s = some b) (hrest : Leads b rest c) : Leads a ((s, r) :: rest) c

namespace Leads

variable {μ : Type}

theorem entryAs_head {a b : IsdAs} {s : PathSegment μ} {r : SegmentRange}
    {rest : List (PathSegment μ × SegmentRange)} (h : Leads a ((s, r) :: rest) b) :
    r.entryAs s = some a := by
  cases h with
  | cons hentry hexit hrest => exact hentry

theorem exitAs_last {a b : IsdAs} {pairs : List (PathSegment μ × SegmentRange)}
    {t : PathSegment μ} {q : SegmentRange} (h : Leads a (pairs ++ [(t, q)]) b) :
    q.exitAs t = some b := by
  induction pairs generalizing a with
  | nil =>
      cases h with
      | cons hentry hexit hrest =>
          cases hrest
          exact hexit
  | cons pair pairs ih =>
      cases h with
      | cons hentry hexit hrest => exact ih hrest

/-- Of two ranges the second one is entered where the first one is left. -/
theorem exists_change {a b : IsdAs} {s t : PathSegment μ} {r q : SegmentRange}
    (h : Leads a [(s, r), (t, q)] b) :
    ∃ m, r.exitAs s = some m ∧ q.entryAs t = some m ∧ q.exitAs t = some b := by
  cases h with
  | cons _ hexit hrest =>
      cases hrest with
      | cons hentry hstop hnil =>
          cases hnil
          exact ⟨_, hexit, hentry, hstop⟩

theorem unique {a b c : IsdAs} {pairs : List (PathSegment μ × SegmentRange)}
    (h : Leads a pairs b) (h' : Leads a pairs c) : b = c := by
  induction h with
  | nil a =>
      cases h'
      rfl
  | cons hentry hexit hrest ih =>
      cases h' with
      | cons hentry' hexit' hrest' =>
          cases hexit.symm.trans hexit'
          exact ih hrest'

end Leads

namespace PathSegment

variable {μ : Type}

/-- A range of the whole segment, in one of the two directions. -/
inductive Whole (s : PathSegment μ) : SegmentRange → Prop
  | forward (index : Nat) : Whole s (s.forwardRange index)
  | reverse (index : Nat) : Whole s (s.reverseRange index)

/-- The AS that segments reach from another one, each of them from end to end. -/
def farEnd (start : IsdAs) : List (PathSegment μ) → Option IsdAs
  | [] => some start
  | s :: rest => (s.otherEnd start).bind fun stop => farEnd stop rest

theorem length_pos (s : PathSegment μ) : 0 < s.length := List.length_pos_of_ne_nil s.entries_ne_nil

theorem numbered_eq_window (s : PathSegment μ) : s.window 0 s.length = s.numbered := by
  rw [window, List.drop_zero, ← length_numbered, List.take_length]

theorem visited_forwardRange (s : PathSegment μ) (index : Nat) :
    (s.forwardRange index).visited s = s.numbered := by
  rw [← numbered_eq_window]
  exact SegmentRange.visited_forward s index 0 s.length

theorem visited_reverseRange (s : PathSegment μ) (index : Nat) :
    (s.reverseRange index).visited s = s.numbered.reverse := by
  rw [← numbered_eq_window]
  exact SegmentRange.visited_reverse s index 0 s.length

theorem Whole.fits {s : PathSegment μ} {r : SegmentRange} (h : s.Whole r) : r.Fits s := by
  cases h with
  | forward index => exact .forward index s.length_pos (Nat.le_refl s.length)
  | reverse index => exact .reverse index s.length_pos (Nat.le_refl s.length)

theorem Whole.mem_visited {s : PathSegment μ} {r : SegmentRange} (h : s.Whole r)
    {x : Int × AsEntry} : x ∈ r.visited s ↔ x ∈ s.numbered := by
  cases h with
  | forward index => rw [visited_forwardRange]
  | reverse index => rw [visited_reverseRange, List.mem_reverse]

theorem Whole.length_visited {s : PathSegment μ} {r : SegmentRange} (h : s.Whole r) :
    (r.visited s).length = s.length := by
  cases h with
  | forward index => rw [visited_forwardRange, length_numbered]
  | reverse index => rw [visited_reverseRange, List.length_reverse, length_numbered]

theorem contains_iff (s : PathSegment μ) (a : IsdAs) :
    s.contains a = true ↔ ∃ x ∈ s.numbered, x.2.isdAs = a := by
  rw [contains, ← map_snd_numbered, List.any_map, List.any_eq_true]
  simp only [Function.comp_apply, beq_iff_eq]

theorem head?_numbered (s : PathSegment μ) :
    s.numbered.head?.map (·.2.isdAs) = some s.first := by
  have hhead : s.entries.head? = some (s.entries.head s.entries_ne_nil) :=
    List.head?_eq_some_head s.entries_ne_nil
  have hmap : s.entries.head? = s.numbered.head?.map Prod.snd := by
    rw [← List.head?_map, map_snd_numbered]
  rw [hmap] at hhead
  obtain ⟨x, hx, hentry⟩ := Option.map_eq_some_iff.1 hhead
  rw [hx, Option.map_some, hentry]
  rfl

theorem getLast?_numbered (s : PathSegment μ) :
    s.numbered.getLast?.map (·.2.isdAs) = some s.last := by
  have hlast : s.entries.getLast? = some (s.entries.getLast s.entries_ne_nil) :=
    List.getLast?_eq_some_getLast s.entries_ne_nil
  have hmap : s.entries.getLast? = s.numbered.getLast?.map Prod.snd := by
    rw [← List.getLast?_map, map_snd_numbered]
  rw [hmap] at hlast
  obtain ⟨x, hx, hentry⟩ := Option.map_eq_some_iff.1 hlast
  rw [hx, Option.map_some, hentry]
  rfl

theorem contains_last (s : PathSegment μ) : s.contains s.last = true := by
  rw [contains, List.any_eq_true]
  exact ⟨_, List.getLast_mem s.entries_ne_nil, beq_self_eq_true _⟩

theorem one_lt_length {s : PathSegment μ} {a b : IsdAs} (ha : s.contains a = true)
    (hb : s.contains b = true) (hne : a ≠ b) : 1 < s.length := by
  obtain ⟨x, hx, hxa⟩ := List.any_eq_true.1 ha
  obtain ⟨y, hy, hyb⟩ := List.any_eq_true.1 hb
  by_contra hlength
  obtain ⟨e, he⟩ := List.length_eq_one_iff.1
    (Nat.le_antisymm (Nat.not_lt.1 hlength) s.length_pos)
  rw [he, List.mem_singleton] at hx hy
  rw [hx] at hxa
  rw [hy] at hyb
  exact hne ((beq_iff_eq.1 hxa).symm.trans (beq_iff_eq.1 hyb))

theorem entryAs_forwardRange (s : PathSegment μ) (index : Nat) :
    (s.forwardRange index).entryAs s = some s.first := by
  rw [SegmentRange.entryAs, visited_forwardRange, head?_numbered]

theorem exitAs_forwardRange (s : PathSegment μ) (index : Nat) :
    (s.forwardRange index).exitAs s = some s.last := by
  rw [SegmentRange.exitAs, visited_forwardRange, getLast?_numbered]

theorem entryAs_reverseRange (s : PathSegment μ) (index : Nat) :
    (s.reverseRange index).entryAs s = some s.last := by
  rw [SegmentRange.entryAs, visited_reverseRange, List.head?_reverse, getLast?_numbered]

theorem exitAs_reverseRange (s : PathSegment μ) (index : Nat) :
    (s.reverseRange index).exitAs s = some s.first := by
  rw [SegmentRange.exitAs, visited_reverseRange, List.getLast?_reverse, head?_numbered]

theorem otherEnd_symm {s : PathSegment μ} {a b : IsdAs} (h : s.otherEnd a = some b) :
    s.otherEnd b = some a := by
  unfold otherEnd at h ⊢
  split_ifs at h with hfirst hlast
  · cases h
    by_cases hends : s.first = s.last
    · rw [if_pos hends, ← hends, hfirst]
    · rw [if_neg hends, if_pos rfl, hfirst]
  · cases h
    rw [if_pos rfl, hlast]

theorem otherEnd_first (s : PathSegment μ) : s.otherEnd s.first = some s.last := if_pos rfl

theorem otherEnd_last (s : PathSegment μ) : s.otherEnd s.last = some s.first :=
  otherEnd_symm s.otherEnd_first

/-- One step of an orientation: the first segment is traversed as a whole, from the AS at which it
is entered to its other end, and the others are oriented from there on. -/
theorem orientFrom_cons {index : Nat} {start : IsdAs} {s : PathSegment μ}
    {rest : List (PathSegment μ)} {ranges : List SegmentRange}
    (h : orientFrom index start (s :: rest) = some ranges) :
    ∃ stop r tail, ranges = r :: tail ∧ s.otherEnd start = some stop ∧ s.Whole r ∧
      r.entryAs s = some start ∧ r.exitAs s = some stop ∧
      orientFrom (index + 1) stop rest = some tail := by
  unfold orientFrom at h
  split_ifs at h with hfirst hlast
  · obtain ⟨tail, htail, rfl⟩ := Option.map_eq_some_iff.1 h
    have hentry := s.entryAs_forwardRange index
    rw [hfirst] at hentry
    exact ⟨s.last, _, tail, rfl, if_pos hfirst, .forward index, hentry,
      s.exitAs_forwardRange index, htail⟩
  · obtain ⟨tail, htail, rfl⟩ := Option.map_eq_some_iff.1 h
    have hentry := s.entryAs_reverseRange index
    have hother : s.otherEnd start = some s.first := by
      rw [otherEnd, if_neg hfirst, if_pos hlast]
    rw [hlast] at hentry
    exact ⟨s.first, _, tail, rfl, hother, .reverse index, hentry, s.exitAs_reverseRange index,
      htail⟩

theorem forall₂_whole_orientFrom {index : Nat} {start : IsdAs} {segments : List (PathSegment μ)}
    {ranges : List SegmentRange} (h : orientFrom index start segments = some ranges) :
    List.Forall₂ Whole segments ranges := by
  induction segments generalizing index start ranges with
  | nil =>
      cases h
      exact .nil
  | cons s rest ih =>
      obtain ⟨stop, r, tail, rfl, _, hwhole, _, _, htail⟩ := orientFrom_cons h
      exact .cons hwhole (ih htail)

theorem forall₂_fits_orientFrom {index : Nat} {start : IsdAs} {segments : List (PathSegment μ)}
    {ranges : List SegmentRange} (h : orientFrom index start segments = some ranges) :
    List.Forall₂ SegmentRange.Fits segments ranges :=
  (forall₂_whole_orientFrom h).imp fun _ _ => Whole.fits

/-- Oriented segments are a chain to their far end. -/
theorem leads_orientFrom {index : Nat} {start : IsdAs} {segments : List (PathSegment μ)}
    {ranges : List SegmentRange} (h : orientFrom index start segments = some ranges) :
    ∃ stop, farEnd start segments = some stop ∧ Leads start (segments.zip ranges) stop := by
  induction segments generalizing index start ranges with
  | nil => exact ⟨start, rfl, .nil start⟩
  | cons s rest ih =>
      obtain ⟨middle, r, tail, rfl, hother, _, hentry, hexit, htail⟩ := orientFrom_cons h
      obtain ⟨stop, hfar, hleads⟩ := ih htail
      refine ⟨stop, ?_, .cons hentry hexit hleads⟩
      rw [farEnd, hother, Option.bind_some, hfar]

/-- Segments that reach a far end from end to end can be oriented. -/
theorem exists_orientFrom {start stop : IsdAs} {segments : List (PathSegment μ)}
    (h : farEnd start segments = some stop) (index : Nat) :
    ∃ ranges, orientFrom index start segments = some ranges := by
  induction segments generalizing index start with
  | nil => exact ⟨[], rfl⟩
  | cons s rest ih =>
      obtain ⟨middle, hother, hfar⟩ := Option.bind_eq_some_iff.1 h
      obtain ⟨tail, htail⟩ := ih hfar (index + 1)
      unfold otherEnd at hother
      split_ifs at hother with hfirst hlast
      · cases hother
        refine ⟨s.forwardRange index :: tail, ?_⟩
        rw [orientFrom, if_pos hfirst, htail, Option.map_some]
      · cases hother
        refine ⟨s.reverseRange index :: tail, ?_⟩
        rw [orientFrom, if_neg hfirst, if_pos hlast, htail, Option.map_some]

/-- Segments attach to each other from one AS on up to another, each of them traversed from one of
its ends to the other in a direction of choice. -/
inductive Chain : IsdAs → List (PathSegment μ) → IsdAs → Prop
  | nil (a : IsdAs) : Chain a [] a
  | forward {s : PathSegment μ} {rest : List (PathSegment μ)} {stop : IsdAs}
      (hrest : Chain s.last rest stop) : Chain s.first (s :: rest) stop
  | reverse {s : PathSegment μ} {rest : List (PathSegment μ)} {stop : IsdAs}
      (hrest : Chain s.first rest stop) : Chain s.last (s :: rest) stop

/-- There is no choice: a segment that can be traversed in both directions ends where it begins. -/
theorem chain_iff_farEnd {start stop : IsdAs} {segments : List (PathSegment μ)} :
    Chain start segments stop ↔ farEnd start segments = some stop := by
  constructor
  · intro h
    induction h with
    | nil a => rfl
    | @forward s rest stop _ ih => rw [farEnd, s.otherEnd_first, Option.bind_some, ih]
    | @reverse s rest stop _ ih => rw [farEnd, s.otherEnd_last, Option.bind_some, ih]
  · intro h
    induction segments generalizing start with
    | nil =>
        cases h
        exact .nil stop
    | cons s rest ih =>
        obtain ⟨middle, hother, hfar⟩ := Option.bind_eq_some_iff.1 h
        unfold otherEnd at hother
        split_ifs at hother with hfirst hlast
        · cases hother
          rw [← hfirst]
          exact .forward (ih hfar)
        · cases hother
          rw [← hlast]
          exact .reverse (ih hfar)

theorem exists_orientFrom_iff {start : IsdAs} {segments : List (PathSegment μ)} (index : Nat) :
    (∃ ranges, orientFrom index start segments = some ranges) ↔
      ∃ stop, Chain start segments stop := by
  constructor
  · rintro ⟨ranges, hranges⟩
    obtain ⟨stop, hfar, _⟩ := leads_orientFrom hranges
    exact ⟨stop, chain_iff_farEnd.2 hfar⟩
  · rintro ⟨stop, hchain⟩
    exact exists_orientFrom (chain_iff_farEnd.1 hchain) index

theorem farEnd_append (start : IsdAs) (segments more : List (PathSegment μ)) :
    farEnd start (segments ++ more)
      = (farEnd start segments).bind fun stop => farEnd stop more := by
  induction segments generalizing start with
  | nil => rfl
  | cons s segments ih =>
      rw [List.cons_append, farEnd, farEnd, Option.bind_assoc]
      congr 1
      funext stop
      exact ih stop

theorem orientFrom_append {index : Nat} {start stop : IsdAs} {segments more : List (PathSegment μ)}
    {ranges moreRanges : List SegmentRange} (h : orientFrom index start segments = some ranges)
    (hfar : farEnd start segments = some stop)
    (hmore : orientFrom (index + segments.length) stop more = some moreRanges) :
    orientFrom index start (segments ++ more) = some (ranges ++ moreRanges) := by
  induction segments generalizing index start ranges with
  | nil =>
      cases h
      cases hfar
      exact hmore
  | cons s segments ih =>
      obtain ⟨middle, hother, hfar⟩ := Option.bind_eq_some_iff.1 hfar
      rw [List.length_cons, Nat.add_comm segments.length, ← Nat.add_assoc] at hmore
      unfold otherEnd at hother
      split_ifs at hother with hfirst hlast
      · cases hother
        rw [orientFrom, if_pos hfirst] at h
        obtain ⟨tail, htail, rfl⟩ := Option.map_eq_some_iff.1 h
        rw [List.cons_append, orientFrom, if_pos hfirst, ih htail hfar hmore]
        rfl
      · cases hother
        rw [orientFrom, if_neg hfirst, if_pos hlast] at h
        obtain ⟨tail, htail, rfl⟩ := Option.map_eq_some_iff.1 h
        rw [List.cons_append, orientFrom, if_neg hfirst, if_pos hlast, ih htail hfar hmore]
        rfl

end PathSegment

end PathAssembly

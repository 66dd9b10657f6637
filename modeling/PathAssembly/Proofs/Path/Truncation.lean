import PathAssembly.Path.Truncation
import PathAssembly.Proofs.IsdAs.Notation
import PathAssembly.Proofs.Path.Orientation

/-!
# What a truncation leaves over

`Truncates` lists the ways in which a path leaves out parts of its segments, each with what makes it
apply: the destination on the way up, the source on the way down, the last crossing of both ways,
and none of them. Every truncation is one of them. What is left over are ranges that fit, and it
leads where the segments led, or to the destination that was met on the way.
-/

namespace PathAssembly

variable {μ : Type}

namespace SegmentRange

theorem Fits.entryAs_stop_behind {s : PathSegment μ} {r : SegmentRange} (h : r.Fits s)
    {before after : List (Int × AsEntry)} {x : Int × AsEntry}
    (hx : r.visited s = before ++ x :: after) :
    ({ r with stop := x.1 + r.step } : SegmentRange).entryAs s = r.entryAs s := by
  rw [entryAs, entryAs, (h.stop_behind hx).2, hx]
  cases before with
  | nil => rfl
  | cons y before => rfl

theorem Fits.exitAs_stop_behind {s : PathSegment μ} {r : SegmentRange} (h : r.Fits s)
    {before after : List (Int × AsEntry)} {x : Int × AsEntry}
    (hx : r.visited s = before ++ x :: after) :
    ({ r with stop := x.1 + r.step } : SegmentRange).exitAs s = some x.2.isdAs := by
  rw [exitAs, (h.stop_behind hx).2, List.getLast?_concat, Option.map_some]

theorem Fits.entryAs_start_at {s : PathSegment μ} {r : SegmentRange} (h : r.Fits s)
    {before after : List (Int × AsEntry)} {x : Int × AsEntry}
    (hx : r.visited s = before ++ x :: after) :
    ({ r with start := x.1 } : SegmentRange).entryAs s = some x.2.isdAs := by
  rw [entryAs, (h.start_at hx).2, List.head?_cons, Option.map_some]

theorem Fits.exitAs_start_at {s : PathSegment μ} {r : SegmentRange} (h : r.Fits s)
    {before after : List (Int × AsEntry)} {x : Int × AsEntry}
    (hx : r.visited s = before ++ x :: after) :
    ({ r with start := x.1 } : SegmentRange).exitAs s = r.exitAs s := by
  rw [exitAs, exitAs, (h.start_at hx).2, hx, List.getLast?_append_of_ne_nil]
  exact List.cons_ne_nil x after

end SegmentRange

/-- A range comes to an AS. Ranges of core segments are not asked. -/
def Meets (s : PathSegment μ) (r : SegmentRange) (a : IsdAs) : Prop :=
  s.isCore = false ∧ ∃ x ∈ r.visited s, x.2.isdAs = a

theorem not_meets_of_isCore {s : PathSegment μ} {r : SegmentRange} {a : IsdAs}
    (h : s.isCore = true) : ¬ Meets s r a := by
  rintro ⟨hnoncore, _⟩
  rw [h] at hnoncore
  cases hnoncore

/-- A whole range of a segment that is not core meets every AS on it. -/
theorem PathSegment.Whole.meets {s : PathSegment μ} {r : SegmentRange} {a : IsdAs} (h : s.Whole r)
    (hcore : s.isCore = false) (ha : s.contains a = true) : Meets s r a := by
  obtain ⟨x, hx, hisdAs⟩ := (s.contains_iff a).1 ha
  exact ⟨hcore, x, h.mem_visited.2 hx, hisdAs⟩

/-- A range comes to an AS for the first time at `x`. -/
structure FirstVisit (s : PathSegment μ) (r : SegmentRange) (a : IsdAs)
    (before : List (Int × AsEntry)) (x : Int × AsEntry) (after : List (Int × AsEntry)) :
    Prop where
  noncore : s.isCore = false
  visited : r.visited s = before ++ x :: after
  isdAs : x.2.isdAs = a
  first : ∀ y ∈ before, y.2.isdAs ≠ a

theorem FirstVisit.mem_visited {s : PathSegment μ} {r : SegmentRange} {a : IsdAs}
    {before after : List (Int × AsEntry)} {x : Int × AsEntry}
    (h : FirstVisit s r a before x after) : x ∈ r.visited s := by
  rw [h.visited]
  exact List.mem_append_right before List.mem_cons_self

theorem FirstVisit.meets {s : PathSegment μ} {r : SegmentRange} {a : IsdAs}
    {before after : List (Int × AsEntry)} {x : Int × AsEntry}
    (h : FirstVisit s r a before x after) : Meets s r a :=
  ⟨h.noncore, x, h.mem_visited, h.isdAs⟩

theorem FirstVisit.format_eq_ok {s : PathSegment μ} {r : SegmentRange} {a : IsdAs}
    {before after : List (Int × AsEntry)} {x : Int × AsEntry}
    (h : FirstVisit s r a before x after) : a.format = .ok a.render := by
  rw [← h.isdAs]
  exact IsdAs.format_eq_ok x.2.isdAs_inRange

theorem FirstVisit.find?_eq {s : PathSegment μ} {r : SegmentRange} {a : IsdAs}
    {before after : List (Int × AsEntry)} {x : Int × AsEntry}
    (h : FirstVisit s r a before x after) : (r.visited s).find? (·.2.isdAs == a) = some x := by
  rw [List.find?_eq_some_iff_append]
  refine ⟨beq_iff_eq.2 h.isdAs, before, after, h.visited, ?_⟩
  intro y hy
  rw [beq_eq_false_iff_ne.2 (h.first y hy)]
  rfl

/-- Two ranges share no AS that a path could change over at. -/
def Apart (s t : PathSegment μ) (r q : SegmentRange) : Prop :=
  s.isCore = false → t.isCore = false →
    ∀ x ∈ r.visited s, ∀ y ∈ q.visited t, x.2.isdAs ≠ y.2.isdAs

/-- The last entry `y` of a range whose AS is on another range too, there for the first time at
`x`. -/
structure LastCrossing (s t : PathSegment μ) (r q : SegmentRange)
    (before : List (Int × AsEntry)) (x : Int × AsEntry) (after lead : List (Int × AsEntry))
    (y : Int × AsEntry) (rest : List (Int × AsEntry)) : Prop where
  up : FirstVisit s r y.2.isdAs before x after
  noncore : t.isCore = false
  down : q.visited t = lead ++ y :: rest
  last : ∀ z ∈ rest, ∀ w ∈ r.visited s, w.2.isdAs ≠ z.2.isdAs

/-- The segments and ranges that a path from a source to a destination is left with. -/
inductive Truncates (source destination : IsdAs) :
    List (PathSegment μ) → List SegmentRange → List (PathSegment μ) → List SegmentRange → Prop
  | untilDestination {s : PathSegment μ} {r : SegmentRange} {others : List (PathSegment μ)}
      {tail : List SegmentRange} {before after : List (Int × AsEntry)} {x : Int × AsEntry}
      (hvisit : FirstVisit s r destination before x after) :
      Truncates source destination (s :: others) (r :: tail)
        [s] [{ r with stop := x.1 + r.step }]
  | alone {s : PathSegment μ} {r : SegmentRange} (havoids : ¬ Meets s r destination) :
      Truncates source destination [s] [r] [s] [r]
  | fromSource {s t : PathSegment μ} {r q : SegmentRange} {between : List (PathSegment μ)}
      {middle : List SegmentRange} {before after : List (Int × AsEntry)} {x : Int × AsEntry}
      (havoids : ¬ Meets s r destination) (hvisit : FirstVisit t q source before x after) :
      Truncates source destination (s :: (between ++ [t])) (r :: (middle ++ [q]))
        [t] [{ q with start := x.1 }]
  | shortcut {s t : PathSegment μ} {r q : SegmentRange} {between : List (PathSegment μ)}
      {middle : List SegmentRange} {before after lead rest : List (Int × AsEntry)}
      {x y : Int × AsEntry} (havoids : ¬ Meets s r destination) (haway : ¬ Meets t q source)
      (hcrossing : LastCrossing s t r q before x after lead y rest) :
      Truncates source destination (s :: (between ++ [t])) (r :: (middle ++ [q]))
        [s, t] [{ r with stop := x.1 + r.step }, { q with start := y.1 }]
  | whole {s t : PathSegment μ} {r q : SegmentRange} {between : List (PathSegment μ)}
      {middle : List SegmentRange} (havoids : ¬ Meets s r destination)
      (haway : ¬ Meets t q source) (hapart : Apart s t r q) :
      Truncates source destination (s :: (between ++ [t])) (r :: (middle ++ [q]))
        (s :: (between ++ [t])) (r :: (middle ++ [q]))

/-- Things that belong to each other one by one are a single pair, or have a first and a last
one. -/
theorem single_or_concat {α β : Type} {R : α → β → Prop} {as : List α} {bs : List β}
    (h : List.Forall₂ R as bs) (hne : as ≠ []) :
    (∃ a b, as = [a] ∧ bs = [b] ∧ R a b) ∨
      ∃ a between a' b middle b', as = a :: (between ++ [a']) ∧ bs = b :: (middle ++ [b']) ∧
        R a b ∧ List.Forall₂ R between middle ∧ R a' b' := by
  cases h with
  | nil => exact absurd rfl hne
  | @cons a b as bs hab hrest =>
      rcases List.eq_nil_or_concat bs with rfl | ⟨middle, b', rfl⟩
      · cases hrest
        exact Or.inl ⟨a, b, rfl, rfl, hab⟩
      · rw [List.concat_eq_append] at hrest ⊢
        have hbetween := List.forall₂_take_append as middle [b'] hrest
        have hlast := List.forall₂_drop_append as middle [b'] hrest
        obtain ⟨a', rest, ha', hnil, hdrop⟩ := List.forall₂_cons_right_iff.1 hlast
        rw [List.forall₂_nil_right_iff.1 hnil] at hdrop
        refine Or.inr ⟨a, as.take middle.length, a', b, middle, b', ?_, rfl, hab, hbetween, ha'⟩
        rw [← hdrop, List.take_append_drop]

theorem forall₂_head? {α β : Type} {R : α → β → Prop} {as : List α} {bs : List β} {a : α} {b : β}
    (h : List.Forall₂ R as bs) (ha : as.head? = some a) (hb : bs.head? = some b) : R a b := by
  cases h with
  | nil => cases ha
  | cons hab _ =>
      cases ha
      cases hb
      exact hab

theorem forall₂_getLast? {α β : Type} {R : α → β → Prop} {as : List α} {bs : List β} {a : α}
    {b : β} (h : List.Forall₂ R as bs) (ha : as.getLast? = some a) (hb : bs.getLast? = some b) :
    R a b := by
  rw [← List.head?_reverse] at ha hb
  exact forall₂_head? (List.forall₂_reverse_iff.2 h) ha hb

theorem getLast?_cons_concat {α : Type} (a : α) (between : List α) (b : α) :
    (a :: (between ++ [b])).getLast? = some b := by
  rw [← List.cons_append, List.getLast?_concat]

theorem forall₂_last {α β : Type} {R : α → β → Prop} {a a' : α} {b b' : β} {between : List α}
    {middle : List β} (h : List.Forall₂ R (a :: (between ++ [a'])) (b :: (middle ++ [b']))) :
    R a' b' :=
  forall₂_getLast? h (getLast?_cons_concat a between a') (getLast?_cons_concat b middle b')

theorem length_between {α β : Type} {R : α → β → Prop} {a a' : α} {b b' : β} {between : List α}
    {middle : List β} (h : List.Forall₂ R (a :: (between ++ [a'])) (b :: (middle ++ [b']))) :
    between.length = middle.length := by
  have hall := h.length_eq
  simpa using hall

namespace Cut

theorem destination?_eq_bind (s : PathSegment μ) (r : SegmentRange) (a : IsdAs) :
    destination? s r a = do return (← source? s r a).map (· + r.step) := by
  unfold destination? source?
  split
  · rfl
  · rfl

/-- The search for an AS on a range finds its first visit. -/
theorem source?_spec {s : PathSegment μ} {r : SegmentRange} (h : r.Fits s) (a : IsdAs) :
    (source? s r a = .ok none ∧ ¬ Meets s r a) ∨
      ∃ before x after, source? s r a = .ok (some x.1) ∧ FirstVisit s r a before x after := by
  unfold source?
  rw [SegmentRange.find?_eq_ok h]
  cases hcore : s.isCore with
  | true =>
      exact Or.inl ⟨rfl, not_meets_of_isCore hcore⟩
  | false =>
      rw [if_neg Bool.false_ne_true]
      cases hfind : (r.visited s).find? (·.2.isdAs == a) with
      | none =>
          refine Or.inl ⟨rfl, ?_⟩
          rintro ⟨_, x, hx, hisdAs⟩
          exact List.find?_eq_none.1 hfind x hx (beq_iff_eq.2 hisdAs)
      | some x =>
          obtain ⟨hisdAs, before, after, hvisited, hfirst⟩ :=
            List.find?_eq_some_iff_append.1 hfind
          refine Or.inr ⟨before, x, after, rfl, hcore, hvisited, beq_iff_eq.1 hisdAs, ?_⟩
          intro y hy heq
          have hne := hfirst y hy
          rw [heq, beq_self_eq_true] at hne
          cases hne

theorem destination?_spec {s : PathSegment μ} {r : SegmentRange} (h : r.Fits s) (a : IsdAs) :
    (destination? s r a = .ok none ∧ ¬ Meets s r a) ∨
      ∃ before x after, destination? s r a = .ok (some (x.1 + r.step)) ∧
        FirstVisit s r a before x after := by
  rw [destination?_eq_bind]
  rcases source?_spec h a with ⟨hnone, havoids⟩ | ⟨before, x, after, hsome, hvisit⟩
  · refine Or.inl ⟨?_, havoids⟩
    rw [hnone]
    rfl
  · refine Or.inr ⟨before, x, after, ?_, hvisit⟩
    rw [hsome]
    rfl

/-- The search for a crossing finds the last one. -/
theorem lastCrossing?_spec (up down : List (Int × AsEntry)) :
    (lastCrossing? up down = none ∧ ∀ x ∈ up, ∀ y ∈ down, x.2.isdAs ≠ y.2.isdAs) ∨
      ∃ before x after lead y rest, lastCrossing? up down = some (x.1, y.1) ∧
        up = before ++ x :: after ∧ x.2.isdAs = y.2.isdAs ∧
        (∀ z ∈ before, z.2.isdAs ≠ y.2.isdAs) ∧ down = lead ++ y :: rest ∧
        ∀ z ∈ rest, ∀ w ∈ up, w.2.isdAs ≠ z.2.isdAs := by
  have hnone : ∀ y : Int × AsEntry,
      ((up.find? (·.2.isdAs == y.2.isdAs)).map fun x => (x.1, y.1)) = none →
        ∀ x ∈ up, x.2.isdAs ≠ y.2.isdAs := by
    intro y hy x hx heq
    exact List.find?_eq_none.1 (Option.map_eq_none_iff.1 hy) x hx (beq_iff_eq.2 heq)
  cases hsearch : lastCrossing? up down with
  | none =>
      refine Or.inl ⟨rfl, ?_⟩
      intro x hx y hy
      exact hnone y (List.findSome?_eq_none_iff.1 hsearch y (List.mem_reverse.2 hy)) x hx
  | some positions =>
      obtain ⟨rest, y, lead, hdown, hy, hrest⟩ := List.findSome?_eq_some_iff.1 hsearch
      obtain ⟨x, hx, rfl⟩ := Option.map_eq_some_iff.1 hy
      obtain ⟨hisdAs, before, after, hup, hfirst⟩ := List.find?_eq_some_iff_append.1 hx
      refine Or.inr ⟨before, x, after, lead.reverse, y, rest.reverse, rfl, hup,
        beq_iff_eq.1 hisdAs, ?_, ?_, ?_⟩
      · intro z hz heq
        have hne := hfirst z hz
        rw [heq, beq_self_eq_true] at hne
        cases hne
      · rw [← List.reverse_reverse down, hdown]
        simp
      · intro z hz w hw
        exact hnone z (hrest z (List.mem_reverse.1 hz)) w hw

theorem crossing?_spec {s t : PathSegment μ} {r q : SegmentRange} (hr : r.Fits s)
    (hq : q.Fits t) :
    (crossing? s t r q = .ok none ∧ Apart s t r q) ∨
      ∃ before x after lead y rest, crossing? s t r q = .ok (some (x.1, y.1)) ∧
        LastCrossing s t r q before x after lead y rest := by
  unfold crossing?
  rw [SegmentRange.walk_eq_ok hr, SegmentRange.walk_eq_ok hq]
  cases hs : s.isCore with
  | true =>
      refine Or.inl ⟨rfl, ?_⟩
      intro hnoncore
      rw [hs] at hnoncore
      cases hnoncore
  | false =>
      cases ht : t.isCore with
      | true =>
          refine Or.inl ⟨rfl, ?_⟩
          intro _ hnoncore
          rw [ht] at hnoncore
          cases hnoncore
      | false =>
          rw [Bool.or_false, if_neg Bool.false_ne_true, Outcome.ok_bind, Outcome.ok_bind]
          rcases lastCrossing?_spec (r.visited s) (q.visited t) with
            ⟨hnone, happart⟩ | ⟨before, x, after, lead, y, rest, hsome, hup, hisdAs, hfirst, hdown,
              hlast⟩
          · refine Or.inl ⟨?_, fun _ _ => happart⟩
            rw [hnone]
            rfl
          · refine Or.inr ⟨before, x, after, lead, y, rest, ?_, ⟨hs, hup, hisdAs, hfirst⟩, ht,
              hdown, hlast⟩
            have hx : x ∈ r.visited s := by
              rw [hup]
              exact List.mem_append_right before List.mem_cons_self
            have hnonneg := SegmentRange.nonneg_of_mem_visited hx
            rw [hsome, Option.filter_some, if_pos (decide_eq_true hnonneg)]
            rfl

theorem ends_singleton {α : Type} (a : α) : ends [a] = .ok (a, a) := rfl

theorem ends_concat {α : Type} (a : α) (between : List α) (b : α) :
    ends (a :: (between ++ [b])) = .ok (a, b) := by
  rw [ends, List.head?_cons, getLast?_cons_concat]

theorem keep_lastFrom {α : Type} (start : Int) (a : α) (between : List α) (b : α) :
    (lastFrom start).keep (a :: (between ++ [b])) = [b] := by
  simp [keep]

theorem keep_crossing {α : Type} (stop start : Int) (a : α) (between : List α) (b : α) :
    (crossing stop start).keep (a :: (between ++ [b])) = [a, b] := by
  simp [keep]

theorem startLast_concat (start : Int) (r : SegmentRange) (middle : List SegmentRange)
    (q : SegmentRange) :
    startLast start (r :: (middle ++ [q])) = r :: (middle ++ [{ q with start }]) := by
  have hbound : middle.length + 1 < (r :: (middle ++ [q])).length := by simp
  have hlast : (r :: (middle ++ [q])).length - 1 = middle.length + 1 := by simp
  rw [startLast, hlast, List.modify_eq_take_cons_drop hbound]
  simp

theorem apply_lastFrom (start : Int) (r : SegmentRange) (middle : List SegmentRange)
    (q : SegmentRange) :
    (lastFrom start).apply (r :: (middle ++ [q])) = r :: (middle ++ [{ q with start }]) :=
  startLast_concat start r middle q

theorem apply_crossing (stop start : Int) (r : SegmentRange) (middle : List SegmentRange)
    (q : SegmentRange) :
    (crossing stop start).apply (r :: (middle ++ [q]))
      = { r with stop } :: (middle ++ [{ q with start }]) :=
  startLast_concat start { r with stop } middle q

theorem result_note_of_format {a : IsdAs} {name : String} (h : a.format = .ok name)
    (text : String → String) :
    (do let name ← a.format; Logged.note .debug .assembly (text name) : Logged Unit).result
      = .ok () := by
  rw [h]
  rfl

theorem result_report_crossing {s t : PathSegment μ} {r q : SegmentRange}
    {between : List (PathSegment μ)} {middle : List SegmentRange} {x : Int × AsEntry}
    (hx : x ∈ r.visited s) (start : Int) (source destination : IsdAs) :
    (report (crossing (x.1 + r.step) start) (s :: (between ++ [t])) (r :: (middle ++ [q]))
      source destination).result = .ok () := by
  have hentry : s.entryAt (x.1 + r.step - r.step) = .ok x.2 := by
    rw [Int.add_sub_cancel]
    exact SegmentRange.entryAt_of_mem_visited hx
  rw [report, ends_concat, ends_concat]
  simp only [Logged.result_bind]
  change (if _ then _ else _ : Logged Unit).result = _
  split
  · rw [Logged.result_bind]
    exact Outcome.bind_eq_ok_iff.2
      ⟨x.2, hentry, result_note_of_format (IsdAs.format_eq_ok x.2.isdAs_inRange) _⟩
  · rfl

/-- There is always a cut, it can be said, and what it leaves over is listed. -/
theorem exists_choose {segments : List (PathSegment μ)} {ranges : List SegmentRange}
    (h : List.Forall₂ SegmentRange.Fits segments ranges) (hne : segments ≠ [])
    (source destination : IsdAs) :
    ∃ cut, choose segments ranges source destination = .ok cut ∧
      (report cut segments ranges source destination).result = .ok () ∧
      Truncates source destination segments ranges (cut.keep segments)
        (cut.keep (cut.apply ranges)) := by
  rcases single_or_concat h hne with ⟨s, r, rfl, rfl, hr⟩ |
    ⟨s, between, t, r, middle, q, rfl, rfl, hr, _, hq⟩
  · rw [choose, ends_singleton, ends_singleton]
    simp only [Outcome.ok_bind]
    rcases destination?_spec hr destination with ⟨hdestination, havoids⟩ |
      ⟨before, x, after, hdestination, hvisit⟩
    · rw [hdestination]
      exact ⟨whole, rfl, rfl, .alone havoids⟩
    · rw [hdestination]
      exact ⟨firstUntil (x.1 + r.step), rfl, result_note_of_format hvisit.format_eq_ok _,
        .untilDestination hvisit⟩
  -- the rules are tried in the order of the constructors, each after those before it failed
  · have hlength : ¬ (s :: (between ++ [t])).length < 2 := by simp
    rw [choose, ends_concat, ends_concat]
    simp only [Outcome.ok_bind]
    rcases destination?_spec hr destination with ⟨hdestination, havoids⟩ |
      ⟨before, x, after, hdestination, hvisit⟩
    rotate_left
    · rw [hdestination]
      exact ⟨firstUntil (x.1 + r.step), rfl, result_note_of_format hvisit.format_eq_ok _,
        .untilDestination hvisit⟩
    rw [hdestination, Outcome.ok_bind, if_neg hlength]
    rcases source?_spec hq source with ⟨hsource, haway⟩ |
      ⟨before, x, after, hsource, hvisit⟩
    rotate_left
    · refine ⟨lastFrom x.1, ?_, result_note_of_format hvisit.format_eq_ok _, ?_⟩
      · rw [hsource]
        rfl
      · rw [apply_lastFrom, keep_lastFrom, keep_lastFrom]
        exact .fromSource havoids hvisit
    rw [hsource, Outcome.ok_bind]
    rcases crossing?_spec hr hq with ⟨hcrossing, hapart⟩ |
      ⟨before, x, after, lead, y, rest, hcrossing, hlast⟩
    · refine ⟨whole, ?_, rfl, .whole havoids haway hapart⟩
      rw [hcrossing]
      rfl
    · refine ⟨crossing (x.1 + r.step) y.1, ?_,
        result_report_crossing hlast.up.mem_visited y.1 source destination, ?_⟩
      · rw [hcrossing]
        rfl
      · rw [apply_crossing, keep_crossing, keep_crossing]
        exact .shortcut havoids haway hlast

end Cut

/-- Ranges that fit can be truncated, and what is left over is listed. -/
theorem exists_truncate {segments : List (PathSegment μ)} {ranges : List SegmentRange}
    (h : List.Forall₂ SegmentRange.Fits segments ranges) (hne : segments ≠ [])
    (source destination : IsdAs) :
    ∃ used, (truncate segments ranges source destination).result = .ok used ∧
      Truncates source destination segments ranges used.segments used.ranges := by
  obtain ⟨cut, hcut, hreport, htruncates⟩ := Cut.exists_choose h hne source destination
  refine ⟨⟨cut.keep segments, cut.keep (cut.apply ranges), cut.apply ranges⟩, ?_, htruncates⟩
  rw [truncate, Logged.result_bind]
  refine Outcome.bind_eq_ok_iff.2 ⟨cut, hcut, ?_⟩
  rw [Logged.result_bind]
  exact Outcome.bind_eq_ok_iff.2 ⟨(), hreport, rfl⟩

theorem exitAs_of_leads_last {a b : IsdAs} {s t : PathSegment μ} {r q : SegmentRange}
    {between : List (PathSegment μ)} {middle : List SegmentRange}
    (hfits : List.Forall₂ SegmentRange.Fits (s :: (between ++ [t])) (r :: (middle ++ [q])))
    (h : Leads a ((s :: (between ++ [t])).zip (r :: (middle ++ [q]))) b) : q.exitAs t = some b := by
  rw [← List.cons_append, ← List.cons_append,
    List.zip_append (by simp [length_between hfits])] at h
  exact h.exitAs_last

theorem Truncates.fits {source destination : IsdAs} {segments segments' : List (PathSegment μ)}
    {ranges ranges' : List SegmentRange}
    (h : Truncates source destination segments ranges segments' ranges')
    (hfits : List.Forall₂ SegmentRange.Fits segments ranges) :
    List.Forall₂ SegmentRange.Fits segments' ranges' := by
  cases h with
  | untilDestination hvisit =>
      obtain ⟨hr, _⟩ := List.forall₂_cons.1 hfits
      exact .cons (hr.stop_behind hvisit.visited).1 .nil
  | alone havoids => exact hfits
  | @fromSource s t r q between middle before after x havoids hvisit =>
      have hq : q.Fits t := forall₂_last hfits
      exact .cons (hq.start_at hvisit.visited).1 .nil
  | @shortcut s t r q between middle before after lead rest x y havoids haway hcrossing =>
      have hr : r.Fits s := (List.forall₂_cons.1 hfits).1
      have hq : q.Fits t := forall₂_last hfits
      exact .cons (hr.stop_behind hcrossing.up.visited).1
        (.cons (hq.start_at hcrossing.down).1 .nil)
  | whole havoids haway hapart => exact hfits

/-- A single segment on which the destination is not met is not cut. -/
theorem Truncates.eq_of_avoids {source destination : IsdAs} {s : PathSegment μ} {r : SegmentRange}
    {segments' : List (PathSegment μ)} {ranges' : List SegmentRange}
    (h : Truncates source destination [s] [r] segments' ranges')
    (havoids : ¬ Meets s r destination) : segments' = [s] ∧ ranges' = [r] := by
  generalize hsegments : [s] = segments at h
  generalize hranges : [r] = ranges at h
  cases h with
  | untilDestination hvisit =>
      cases hsegments
      cases hranges
      exact absurd hvisit.meets havoids
  | alone _ =>
      cases hsegments
      cases hranges
      exact ⟨rfl, rfl⟩
  | fromSource _ _ => simp at hsegments
  | shortcut _ _ _ => simp at hsegments
  | whole _ _ _ => simp at hsegments

theorem Truncates.ne_nil {source destination : IsdAs} {segments segments' : List (PathSegment μ)}
    {ranges ranges' : List SegmentRange}
    (h : Truncates source destination segments ranges segments' ranges') : segments' ≠ [] := by
  cases h <;> simp

theorem Truncates.length_le {source destination : IsdAs}
    {segments segments' : List (PathSegment μ)} {ranges ranges' : List SegmentRange}
    (h : Truncates source destination segments ranges segments' ranges') :
    segments'.length ≤ segments.length := by
  cases h <;> simp

/-- If the destination is met on the first segment, nothing else is left over. -/
theorem Truncates.exists_firstVisit {source destination : IsdAs} {s : PathSegment μ}
    {r : SegmentRange} {others segments : List (PathSegment μ)} {tail ranges : List SegmentRange}
    (h : Truncates source destination (s :: others) (r :: tail) segments ranges)
    (hmeets : Meets s r destination) :
    ∃ before x after, FirstVisit s r destination before x after ∧ segments = [s] ∧
      ranges = [{ r with stop := x.1 + r.step }] := by
  cases h with
  | untilDestination hvisit => exact ⟨_, _, _, hvisit, rfl, rfl⟩
  | alone havoids => exact absurd hmeets havoids
  | fromSource havoids hvisit => exact absurd hmeets havoids
  | shortcut havoids haway hcrossing => exact absurd hmeets havoids
  | whole havoids haway hapart => exact absurd hmeets havoids

/-- What is left over then does not depend on the other segments. -/
theorem Truncates.eq_of_meets {source destination : IsdAs} {s : PathSegment μ} {r : SegmentRange}
    {others others' segments segments' : List (PathSegment μ)}
    {tail tail' ranges ranges' : List SegmentRange}
    (h : Truncates source destination (s :: others) (r :: tail) segments ranges)
    (h' : Truncates source destination (s :: others') (r :: tail') segments' ranges')
    (hmeets : Meets s r destination) : segments = segments' ∧ ranges = ranges' := by
  obtain ⟨_, x, _, hvisit, rfl, rfl⟩ := h.exists_firstVisit hmeets
  obtain ⟨_, x', _, hvisit', rfl, rfl⟩ := h'.exists_firstVisit hmeets
  obtain rfl : x = x' := Option.some.inj (hvisit.find?_eq.symm.trans hvisit'.find?_eq)
  exact ⟨rfl, rfl⟩

/-- A path that meets the destination on its first segment leads there. -/
theorem Truncates.leads_destination {source destination start : IsdAs} {s : PathSegment μ}
    {r : SegmentRange} {others segments' : List (PathSegment μ)} {tail ranges' : List SegmentRange}
    (h : Truncates source destination (s :: others) (r :: tail) segments' ranges')
    (hfits : r.Fits s) (hentry : r.entryAs s = some start) (hmeets : Meets s r destination) :
    Leads start (segments'.zip ranges') destination := by
  obtain ⟨_, x, _, hvisit, rfl, rfl⟩ := h.exists_firstVisit hmeets
  have hexit := hfits.exitAs_stop_behind hvisit.visited
  rw [← hfits.entryAs_stop_behind hvisit.visited] at hentry
  rw [hvisit.isdAs] at hexit
  exact .cons hentry hexit (.nil destination)

/-- A path that does not meet the destination on its first segment leads where its segments lead. -/
theorem Truncates.leads_stop {source destination stop : IsdAs} {s : PathSegment μ}
    {r : SegmentRange} {others segments' : List (PathSegment μ)} {tail ranges' : List SegmentRange}
    (h : Truncates source destination (s :: others) (r :: tail) segments' ranges')
    (hfits : List.Forall₂ SegmentRange.Fits (s :: others) (r :: tail))
    (hleads : Leads source ((s :: others).zip (r :: tail)) stop)
    (havoids : ¬ Meets s r destination) : Leads source (segments'.zip ranges') stop := by
  cases h with
  | untilDestination hvisit => exact absurd hvisit.meets havoids
  | alone _ => exact hleads
  | @fromSource _ t _ q between middle before after x _ hvisit =>
      have hq : q.Fits t := forall₂_last hfits
      have hentry := hq.entryAs_start_at hvisit.visited
      rw [hvisit.isdAs] at hentry
      have hexit := exitAs_of_leads_last hfits hleads
      rw [← hq.exitAs_start_at hvisit.visited] at hexit
      exact .cons hentry hexit (.nil stop)
  | @shortcut _ t _ q between middle before after lead rest x y _ _ hcrossing =>
      have hr : r.Fits s := (List.forall₂_cons.1 hfits).1
      have hq : q.Fits t := forall₂_last hfits
      have hexit := exitAs_of_leads_last hfits hleads
      have hentry := hleads.entryAs_head
      rw [← hr.entryAs_stop_behind hcrossing.up.visited] at hentry
      rw [← hq.exitAs_start_at hcrossing.down] at hexit
      have hchange := hr.exitAs_stop_behind hcrossing.up.visited
      rw [hcrossing.up.isdAs] at hchange
      exact .cons hentry hchange
        (.cons (hq.entryAs_start_at hcrossing.down) hexit (.nil stop))
  | whole _ haway hapart => exact hleads

end PathAssembly

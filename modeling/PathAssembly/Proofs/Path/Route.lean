import Mathlib.Data.List.Nodup
import PathAssembly.Proofs.Path.Assembly

/-!
# Routes without repetition

The route of a chain is the sequence of its ASes, of which the one where a segment is left for the
next one counts once. If no AS is on it twice, a truncation cannot shorten a range: the destination
is met on the first segment only at its end, the source on the last segment only at its start, and
both segments cross only where the first one stops and the last one starts. What a truncation still
does is to leave out whole segments, and `kept` says which ones.
-/

namespace PathAssembly

variable {μ : Type}

namespace SegmentRange

def ases (r : SegmentRange) (s : PathSegment μ) : List IsdAs := (r.visited s).map (·.2.isdAs)

variable {r : SegmentRange} {s : PathSegment μ} {a b : IsdAs}

theorem mem_ases_iff : a ∈ r.ases s ↔ ∃ x ∈ r.visited s, x.2.isdAs = a := List.mem_map

theorem head?_ases : (r.ases s).head? = r.entryAs s := List.head?_map

theorem ases_eq_cons (h : r.entryAs s = some a) : r.ases s = a :: (r.ases s).tail := by
  rw [← head?_ases] at h
  obtain ⟨rest, hrest⟩ := List.head?_eq_some_iff.1 h
  rw [hrest, List.tail_cons]

theorem ases_eq_concat (h : r.exitAs s = some b) : r.ases s = (r.ases s).dropLast ++ [b] := by
  have hlast : (r.ases s).getLast? = some b := by rw [ases, List.getLast?_map, ← h, exitAs]
  exact (List.dropLast_append_getLast? b hlast).symm

theorem exists_visited_of_entryAs (h : r.entryAs s = some a) :
    ∃ x ∈ r.visited s, x.2.isdAs = a := by
  rw [← mem_ases_iff, ases_eq_cons h]
  exact List.mem_cons_self

theorem exists_visited_of_exitAs (h : r.exitAs s = some b) :
    ∃ x ∈ r.visited s, x.2.isdAs = b := by
  rw [← mem_ases_iff, ases_eq_concat h]
  exact List.mem_concat_self

end SegmentRange

/-- The ASes that ranges add to those that were visited before them. -/
def added (pairs : List (PathSegment μ × SegmentRange)) : List IsdAs :=
  pairs.flatMap fun (s, r) => (r.ases s).tail

/-- The ASes along ranges: the one at which the first range is entered, and of every range all but
the one at which it is entered. -/
def route (start : IsdAs) (pairs : List (PathSegment μ × SegmentRange)) : List IsdAs :=
  start :: added pairs

section Chain

variable {a b c : IsdAs} {s t : PathSegment μ} {r q : SegmentRange}
  {pairs rest middle : List (PathSegment μ × SegmentRange)}

theorem route_cons (hentry : r.entryAs s = some a) :
    route a ((s, r) :: rest) = r.ases s ++ added rest := by
  rw [route, added, List.flatMap_cons, ← List.cons_append, ← SegmentRange.ases_eq_cons hentry]
  rfl

/-- Behind a range the route goes on from the AS at which the range is left. -/
theorem route_cons_eq_append (hentry : r.entryAs s = some a) (hexit : r.exitAs s = some b) :
    route a ((s, r) :: rest) = (r.ases s).dropLast ++ route b rest := by
  rw [route_cons hentry, SegmentRange.ases_eq_concat hexit, List.dropLast_concat, route,
    List.append_assoc, List.singleton_append]

theorem Leads.mem_route (h : Leads a pairs b) : b ∈ route a pairs := by
  induction h with
  | nil a => exact List.mem_cons_self
  | cons hentry hexit _ ih =>
      rw [route_cons_eq_append hentry hexit]
      exact List.mem_append_right _ ih

theorem Leads.exists_append {more : List (PathSegment μ × SegmentRange)}
    (h : Leads a (pairs ++ more) b) : ∃ m, Leads a pairs m ∧ Leads m more b := by
  induction pairs generalizing a with
  | nil => exact ⟨a, .nil a, h⟩
  | cons pair pairs ih =>
      cases h with
      | cons hentry hexit hrest =>
          obtain ⟨m, hpairs, hmore⟩ := ih hrest
          exact ⟨m, .cons hentry hexit hpairs, hmore⟩

variable (hroute : (route a ((s, r) :: rest)).Nodup) (hentry : r.entryAs s = some a)
include hroute hentry

theorem nodup_ases : (r.ases s).Nodup := by
  rw [route_cons hentry] at hroute
  exact hroute.of_append_left

theorem nodup_route_rest (hexit : r.exitAs s = some b) : (route b rest).Nodup := by
  rw [route_cons_eq_append hentry hexit] at hroute
  exact hroute.of_append_right

theorem not_mem_added (hb : b ∈ r.ases s) : b ∉ added rest := by
  rw [route_cons hentry] at hroute
  exact fun hmem => List.disjoint_of_nodup_append hroute hb hmem

/-- A chain behind the first range that stops on this range stops where the range is left. -/
theorem exitAs_eq_of_mem_ases (hrest : Leads b pairs c) (hpairs : added pairs ⊆ added rest)
    (hc : c ∈ r.ases s) : b = c := by
  rcases List.mem_cons.1 hrest.mem_route with hsame | hadded
  · exact hsame.symm
  · exact absurd (hpairs hadded) (not_mem_added hroute hentry hc)

/-- A range behind the first one has an AS of the first one on it only where it is entered. -/
theorem not_mem_tail_ases (hmem : (t, q) ∈ rest) (hc : c ∈ r.ases s) : c ∉ (q.ases t).tail :=
  fun htail => not_mem_added hroute hentry hc (List.mem_flatMap.2 ⟨(t, q), hmem, htail⟩)

end Chain

namespace SegmentRange

variable {r : SegmentRange} {s : PathSegment μ} {before after : List (Int × AsEntry)}
  {x : Int × AsEntry}

/-- Nothing is visited before an AS that is visited only at the entry. -/
theorem eq_nil_of_not_mem_tail (hvisited : r.visited s = before ++ x :: after)
    (hx : x.2.isdAs ∉ (r.ases s).tail) : before = [] := by
  cases before with
  | nil => rfl
  | cons y before =>
      refine absurd ?_ hx
      rw [ases, hvisited, List.cons_append, List.map_cons, List.tail_cons]
      exact List.mem_map_of_mem (List.mem_append_right before List.mem_cons_self)

/-- Nothing is visited behind the AS at which a range is left, if no AS comes twice. -/
theorem eq_nil_of_exitAs (hvisited : r.visited s = before ++ x :: after)
    (hexit : r.exitAs s = some x.2.isdAs) (hnodup : (r.ases s).Nodup) : after = [] := by
  rcases List.eq_nil_or_concat after with hnil | ⟨between, y, hafter⟩
  · exact hnil
  · rw [List.concat_eq_append] at hafter
    rw [exitAs, hvisited, hafter, List.append_cons, ← List.append_assoc, List.getLast?_concat,
      Option.map_some, Option.some_inj] at hexit
    rw [ases, hvisited, hafter, List.map_append, List.nodup_append, List.map_cons,
      List.nodup_cons] at hnodup
    refine absurd ?_ hnodup.2.1.1
    rw [← hexit]
    exact List.mem_map_of_mem (List.mem_append_right between (List.mem_singleton_self y))

end SegmentRange

namespace Leg

def bare (leg : Leg) : Leg := { leg with skipped := [] }

@[simp] theorem interfaces_bare (leg : Leg) : leg.bare.interfaces = leg.interfaces := rfl

@[simp] theorem mtus_bare (leg : Leg) : leg.bare.mtus = leg.mtus := rfl

@[simp] theorem expirations_bare (leg : Leg) : leg.bare.expirations = leg.expirations := rfl

variable {s : PathSegment μ} {r q : SegmentRange} {before after : List (Int × AsEntry)}
  {x : Int × AsEntry}

theorem bare_along_congr (hstep : r.step = q.step) (hvisited : r.visited s = q.visited s) :
    (along s r).bare = (along s q).bare := by
  have hreversed : r.reversed = q.reversed := by
    rw [SegmentRange.reversed, SegmentRange.reversed, hstep]
  rw [bare, bare, along, along, hvisited, hreversed]

theorem bare_along_stop (hr : r.Fits s) (hvisited : r.visited s = before ++ x :: after)
    (hexit : r.exitAs s = some x.2.isdAs) (hnodup : (r.ases s).Nodup) :
    (along s { r with stop := x.1 + r.step }).bare = (along s r).bare := by
  obtain rfl := SegmentRange.eq_nil_of_exitAs hvisited hexit hnodup
  exact bare_along_congr rfl ((hr.stop_behind hvisited).2.trans hvisited.symm)

theorem bare_along_start (hr : r.Fits s) (hvisited : r.visited s = before ++ x :: after)
    (hx : x.2.isdAs ∉ (r.ases s).tail) :
    (along s { r with start := x.1 }).bare = (along s r).bare := by
  obtain rfl := SegmentRange.eq_nil_of_not_mem_tail hvisited hx
  exact bare_along_congr rfl ((hr.start_at hvisited).2.trans hvisited.symm)

end Leg

instance (s : PathSegment μ) (r : SegmentRange) (a : IsdAs) : Decidable (Meets s r a) :=
  inferInstanceAs (Decidable (_ ∧ _))

instance (s t : PathSegment μ) (r q : SegmentRange) : Decidable (Apart s t r q) :=
  inferInstanceAs (Decidable (_ → _ → _))

/-- The ranges of a chain that a path from a source to a destination keeps. -/
def kept (source destination : IsdAs) (pairs : List (PathSegment μ × SegmentRange)) :
    List (PathSegment μ × SegmentRange) :=
  match pairs.head?, pairs.getLast? with
  | some (s, r), some (t, q) =>
    if pairs.length < 2 then pairs
    else if Meets s r destination then [(s, r)]
    else if Meets t q source then [(t, q)]
    else if Apart s t r q then pairs
    else [(s, r), (t, q)]
  | _, _ => []

section Kept

variable {source destination : IsdAs} {s t : PathSegment μ} {r q : SegmentRange}
  {middle : List (PathSegment μ × SegmentRange)}

theorem kept_concat :
    kept source destination ((s, r) :: (middle ++ [(t, q)]))
      = if Meets s r destination then [(s, r)]
        else if Meets t q source then [(t, q)]
        else if Apart s t r q then (s, r) :: (middle ++ [(t, q)])
        else [(s, r), (t, q)] := by
  have hlast : ((s, r) :: (middle ++ [(t, q)])).getLast? = some (t, q) := by
    rw [← List.cons_append, List.getLast?_concat]
  have hlength : ¬ ((s, r) :: (middle ++ [(t, q)])).length < 2 := by simp
  rw [kept, hlast, List.head?_cons]
  exact if_neg hlength

theorem kept_of_meets {rest : List (PathSegment μ × SegmentRange)} (h : Meets s r destination) :
    kept source destination ((s, r) :: rest) = [(s, r)] := by
  rcases List.eq_nil_or_concat rest with rfl | ⟨middle, ⟨t, q⟩, rfl⟩
  · rfl
  · rw [List.concat_eq_append, kept_concat, if_pos h]

end Kept

theorem zip_concat {α β : Type} {R : α → β → Prop} {a a' : α} {b b' : β} {between : List α}
    {middle : List β} (h : List.Forall₂ R (a :: (between ++ [a'])) (b :: (middle ++ [b']))) :
    (a :: (between ++ [a'])).zip (b :: (middle ++ [b']))
      = (a, b) :: (between.zip middle ++ [(a', b')]) := by
  rw [List.zip_cons_cons, List.zip_append (length_between h)]
  rfl

section Ends

variable {a b c : IsdAs} {s t : PathSegment μ} {r q : SegmentRange}
  {middle : List (PathSegment μ × SegmentRange)}
  (hleads : Leads a ((s, r) :: (middle ++ [(t, q)])) b)
  (hroute : (route a ((s, r) :: (middle ++ [(t, q)]))).Nodup) (hc : c ∈ r.ases s)
include hleads hroute hc

/-- What the first range visits, the last one visits only where it is entered. -/
theorem not_mem_tail_last : c ∉ (q.ases t).tail :=
  not_mem_tail_ases hroute hleads.entryAs_head
    (List.mem_append_right _ (List.mem_singleton_self (t, q))) hc

theorem entryAs_last (hq : c ∈ q.ases t) : q.entryAs t = some c := by
  have htail := not_mem_tail_last hleads hroute hc
  rw [← SegmentRange.head?_ases]
  cases hases : q.ases t with
  | nil =>
      rw [hases] at hq
      cases hq
  | cons d rest =>
      rw [hases] at hq htail
      rw [(List.mem_cons.1 hq).resolve_right htail]
      rfl

/-- If the first and the last range have an AS in common, the first one is left there. -/
theorem exitAs_head (hq : c ∈ q.ases t) : r.exitAs s = some c := by
  have hentry := entryAs_last hleads hroute hc hq
  cases hleads with
  | cons hstart hexit hrest =>
      obtain ⟨m, hmiddle, hlast⟩ := hrest.exists_append
      obtain rfl : m = c := Option.some.inj (hlast.entryAs_head.symm.trans hentry)
      have hadded : added middle ⊆ added (middle ++ [(t, q)]) := by
        rw [added, added, List.flatMap_append]
        exact List.subset_append_left _ _
      rw [← exitAs_eq_of_mem_ases hroute hstart hmiddle hadded hc]
      exact hexit

end Ends

/-- On a route without repetition a truncation keeps whole ranges. -/
theorem Truncates.bare_legs_eq {source destination : IsdAs}
    {segments segments' : List (PathSegment μ)} {ranges ranges' : List SegmentRange}
    (h : Truncates source destination segments ranges segments' ranges')
    (hfits : List.Forall₂ SegmentRange.Fits segments ranges)
    (hleads : Leads source (segments.zip ranges) destination)
    (hroute : (route source (segments.zip ranges)).Nodup) :
    (Leg.alongAll segments' ranges').map Leg.bare
      = (kept source destination (segments.zip ranges)).map fun (s, r) => (Leg.along s r).bare := by
  cases h with
  | @untilDestination s r others tail before after x hvisit =>
      rw [List.zip_cons_cons] at hleads hroute ⊢
      cases hleads with
      | @cons _ b _ _ _ _ hentry hexit hrest =>
          have hmem : destination ∈ r.ases s := SegmentRange.mem_ases_iff.2 hvisit.meets.2
          -- the chain stops on the first range already, so that this range is left there
          obtain rfl := exitAs_eq_of_mem_ases hroute hentry hrest (List.Subset.refl _) hmem
          rw [← hvisit.isdAs] at hexit
          rw [kept_of_meets hvisit.meets]
          exact congrArg (fun leg => [leg]) (Leg.bare_along_stop (List.forall₂_cons.1 hfits).1
            hvisit.visited hexit (nodup_ases hroute hentry))
  | alone havoids => rfl
  | @fromSource s t r q between middle before after x havoids hvisit =>
      rw [zip_concat hfits] at hleads hroute ⊢
      have hsource : source ∈ r.ases s := by
        rw [SegmentRange.ases_eq_cons hleads.entryAs_head]
        exact List.mem_cons_self
      have htail := not_mem_tail_last hleads hroute hsource
      rw [← hvisit.isdAs] at htail
      rw [kept_concat, if_neg havoids, if_pos hvisit.meets]
      exact congrArg (fun leg => [leg])
        (Leg.bare_along_start (forall₂_last hfits) hvisit.visited htail)
  | @shortcut s t r q between middle before after lead rest x y havoids haway hcrossing =>
      rw [zip_concat hfits] at hleads hroute ⊢
      have hmem : y.2.isdAs ∈ r.ases s := SegmentRange.mem_ases_iff.2 hcrossing.up.meets.2
      have htail := not_mem_tail_last hleads hroute hmem
      have hy : y ∈ q.visited t := by
        rw [hcrossing.down]
        exact List.mem_append_right _ List.mem_cons_self
      -- the crossing is where the first range is left and the last one is entered
      have hexit := exitAs_head hleads hroute hmem (List.mem_map_of_mem hy)
      rw [← hcrossing.up.isdAs] at hexit
      have hcrosses : ¬ Apart s t r q := by
        intro hapart
        obtain ⟨z, hz, hisdAs⟩ := hcrossing.up.meets.2
        exact hapart hcrossing.up.noncore hcrossing.noncore z hz y hy hisdAs
      rw [kept_concat, if_neg havoids, if_neg haway, if_neg hcrosses]
      exact congrArg₂ (fun leg leg' => [leg, leg'])
        (Leg.bare_along_stop (List.forall₂_cons.1 hfits).1 hcrossing.up.visited hexit
          (nodup_ases hroute hleads.entryAs_head))
        (Leg.bare_along_start (forall₂_last hfits) hcrossing.down htail)
  | @whole s t r q between middle havoids haway hapart =>
      rw [Leg.alongAll, zip_concat hfits, kept_concat, if_neg havoids, if_neg haway,
        if_pos hapart, List.map_map]
      rfl

/-- A candidate leads to its destination along ranges and visits no AS twice. -/
structure Candidate.Straight (c : Candidate μ) (ranges : List SegmentRange) : Prop where
  oriented : PathSegment.orient c.source c.segments = some ranges
  leads : Leads c.source (c.segments.zip ranges) c.destination
  nodup : (route c.source (c.segments.zip ranges)).Nodup

namespace Candidate.Straight

variable {c : Candidate μ} {ranges : List SegmentRange}

theorem segments_ne_nil (h : c.Straight ranges) (hne : c.source ≠ c.destination) :
    c.segments ≠ [] := by
  intro hnil
  have hleads := h.leads
  rw [hnil, List.zip_nil_left] at hleads
  exact hne ((Leads.nil c.source).unique hleads)

/-- The path is made of the legs of the ranges that are kept. -/
theorem parts_of_build {topology : Topology} {now : Int} {path : BuiltPath Unit}
    (h : c.Straight ranges) (hne : c.source ≠ c.destination) (hlocal : topology.isdAs = c.source)
    (hbuild : (c.build topology now).result = .ok (some path)) :
    path.interfaces = ((kept c.source c.destination (c.segments.zip ranges)).flatMap fun p =>
        (Leg.along p.1 p.2).interfaces) ∧
      path.mtu = ((kept c.source c.destination (c.segments.zip ranges)).flatMap fun p =>
        (Leg.along p.1 p.2).mtus).foldl min topology.mtu ∧
      path.expiration = ((kept c.source c.destination (c.segments.zip ranges)).flatMap fun p =>
        (Leg.along p.1 p.2).expirations).min?.getD 0 := by
  obtain ⟨ranges', used, hused⟩ := assembles_of_build (h.segments_ne_nil hne) hbuild
  have hsame := hused.oriented
  rw [hlocal, h.oriented] at hsame
  cases hsame
  have hfits := PathSegment.forall₂_fits_orientFrom h.oriented
  have hlegs := hused.truncates.bare_legs_eq hfits h.leads h.nodup
  obtain ⟨_, hinterfaces, hmtu, hexpiration, _⟩ := BuiltPath.ofRanges_eq_ok hused.fits hused.built
  have hparts : ∀ {α : Type} (f : Leg → List α), (∀ leg, f leg.bare = f leg) →
      (Leg.alongAll used.segments used.ranges).flatMap f
        = (kept c.source c.destination (c.segments.zip ranges)).flatMap fun p =>
          f (Leg.along p.1 p.2) := by
    intro α f hf
    have hmap := congrArg (List.flatMap f) hlegs
    rw [List.flatMap_map, List.flatMap_map] at hmap
    simpa only [hf] using hmap
  rw [hinterfaces, hmtu, hexpiration, hparts _ Leg.interfaces_bare, hparts _ Leg.mtus_bare,
    hparts _ Leg.expirations_bare]
  exact ⟨rfl, rfl, rfl⟩

end Candidate.Straight

end PathAssembly

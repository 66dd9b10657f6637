import Mathlib.Data.List.Perm.Basic
import PathAssembly.Proofs.Path.Crossing
import PathAssembly.Proofs.Path.Route

/-!
# The way back

The mirror of a candidate leads back from its destination to its source along the same segments.
On a route without repetition its path is the mirror of the path. Orientation turns every segment
round, but for one of a single entry, which is traversed in construction direction both ways. The
rules of truncation are not symmetric, since the destination is looked for first; but the rule that
asks for the destination on the way there asks for the source on the way back, and both cannot apply
to one chain.
-/

namespace PathAssembly

variable {μ : Type}

def Candidate.mirror (c : Candidate μ) : Candidate μ where
  source := c.destination
  destination := c.source
  segments := c.segments.reverse

/-- A range of the same segment that visits the same entries the other way round. -/
structure Turned (p p' : PathSegment μ × SegmentRange) : Prop where
  segment_eq : p'.1 = p.1
  visited_eq : p'.2.visited p'.1 = (p.2.visited p.1).reverse
  reversed_eq : 1 < (p.2.visited p.1).length → p'.2.reversed = !p.2.reversed

namespace Turned

variable {p p' q q' : PathSegment μ × SegmentRange}

theorem ases_eq (h : Turned p p') : p'.2.ases p'.1 = (p.2.ases p.1).reverse := by
  rw [SegmentRange.ases, h.visited_eq, List.map_reverse]
  rfl

theorem mem_visited_iff (h : Turned p p') {x : Int × AsEntry} :
    x ∈ p'.2.visited p'.1 ↔ x ∈ p.2.visited p.1 := by
  rw [h.visited_eq, List.mem_reverse]

theorem meets_iff (h : Turned p p') {a : IsdAs} : Meets p'.1 p'.2 a ↔ Meets p.1 p.2 a := by
  rw [Meets, Meets]
  simp only [h.mem_visited_iff]
  rw [h.segment_eq]

theorem apart_iff (h : Turned p p') (hq : Turned q q') :
    Apart q'.1 p'.1 q'.2 p'.2 ↔ Apart p.1 q.1 p.2 q.2 := by
  rw [Apart, Apart]
  simp only [h.mem_visited_iff, hq.mem_visited_iff]
  rw [h.segment_eq, hq.segment_eq]
  constructor
  · intro hapart hp hq x hx y hy heq
    exact hapart hq hp y hy x hx heq.symm
  · intro hapart hq hp y hy x hx heq
    exact hapart hp hq x hx y hy heq.symm

end Turned

/-- The ASes of the way back are those of the way there, the other way round. -/
theorem route_turned {a b : IsdAs} {pairs turned : List (PathSegment μ × SegmentRange)}
    (hleads : Leads a pairs b) (h : List.Forall₂ Turned pairs turned) :
    route b turned.reverse = (route a pairs).reverse := by
  induction hleads generalizing turned with
  | nil a =>
      rw [List.forall₂_nil_left_iff.1 h]
      rfl
  | @cons a m b s r rest hentry hexit hrest ih =>
      obtain ⟨p', turned, hp, hturned, rfl⟩ := List.forall₂_cons_left_iff.1 h
      have hback : route b (turned.reverse ++ [p'])
          = route b turned.reverse ++ (p'.2.ases p'.1).tail := by
        rw [route, added, List.flatMap_append, List.flatMap_singleton]
        rfl
      rw [List.reverse_cons, hback, ih hturned, hp.ases_eq, List.tail_reverse,
        route_cons_eq_append hentry hexit, List.reverse_append]

namespace PathSegment

/-- The two ends of segments see each other. -/
theorem farEnd_reverse {start stop : IsdAs} {segments : List (PathSegment μ)}
    (h : farEnd start segments = some stop) : farEnd stop segments.reverse = some start := by
  induction segments generalizing start with
  | nil => exact h.symm
  | cons s segments ih =>
      obtain ⟨middle, hother, hfar⟩ := Option.bind_eq_some_iff.1 h
      rw [List.reverse_cons, farEnd_append, ih hfar, Option.bind_some, farEnd, otherEnd_symm hother]
      rfl

/-- A segment with the same AS at both ends and no AS twice has a single entry. -/
theorem exists_numbered_eq {s : PathSegment μ} (hends : s.first = s.last)
    (hnodup : (s.numbered.map (·.2.isdAs)).Nodup) : ∃ x, s.numbered = [x] := by
  have hases : (s.forwardRange 0).ases s = s.numbered.map (·.2.isdAs) := by
    rw [SegmentRange.ases, visited_forwardRange]
  have hentry := s.entryAs_forwardRange 0
  have hexit := s.exitAs_forwardRange 0
  obtain ⟨x, rest, hx⟩ : ∃ x rest, s.numbered = x :: rest :=
    List.exists_cons_of_length_pos (by rw [length_numbered]; exact s.length_pos)
  rw [← hases] at hnodup
  have hvisited : (s.forwardRange 0).visited s = [] ++ x :: rest := by
    rw [visited_forwardRange, hx, List.nil_append]
  rw [SegmentRange.entryAs, visited_forwardRange, hx, hends] at hentry
  rw [← hentry] at hexit
  exact ⟨x, by rw [hx, SegmentRange.eq_nil_of_exitAs hvisited hexit hnodup]⟩

/-- The whole of a segment that is traversed without repetition is turned round by an orientation
from its other end. -/
theorem exists_turned {s : PathSegment μ} {r : SegmentRange} {stop : IsdAs} (hr : s.Whole r)
    (hexit : r.exitAs s = some stop) (hnodup : (r.ases s).Nodup) (index : Nat) :
    ∃ r', orientFrom index stop [s] = some [r'] ∧ Turned (s, r) (s, r') := by
  cases hr with
  | forward i =>
      rw [exitAs_forwardRange] at hexit
      cases hexit
      rw [SegmentRange.ases, visited_forwardRange] at hnodup
      -- from the far end an orientation goes against the construction direction, unless this is
      -- the near end too
      by_cases hends : s.first = s.last
      · obtain ⟨x, hx⟩ := exists_numbered_eq hends hnodup
        refine ⟨s.forwardRange index, by rw [orientFrom, if_pos hends]; rfl, rfl, ?_, ?_⟩
        · rw [visited_forwardRange, visited_forwardRange, hx]
          rfl
        · intro hlength
          rw [visited_forwardRange, hx] at hlength
          exact absurd hlength (Nat.lt_irrefl 1)
      · refine ⟨s.reverseRange index, by rw [orientFrom, if_neg hends, if_pos rfl]; rfl, rfl, ?_,
          fun _ => rfl⟩
        rw [visited_reverseRange, visited_forwardRange]
  | reverse i =>
      rw [exitAs_reverseRange] at hexit
      cases hexit
      refine ⟨s.forwardRange index, by rw [orientFrom, if_pos rfl]; rfl, rfl, ?_, fun _ => rfl⟩
      rw [visited_forwardRange, visited_reverseRange, List.reverse_reverse]

/-- Segments that are traversed without repetition are all turned round by an orientation of the way
back. -/
theorem exists_orientFrom_reverse {start stop : IsdAs} {segments : List (PathSegment μ)}
    {index : Nat} {ranges : List SegmentRange} (h : orientFrom index start segments = some ranges)
    (hfar : farEnd start segments = some stop) (hroute : (route start (segments.zip ranges)).Nodup)
    (index' : Nat) :
    ∃ ranges', orientFrom index' stop segments.reverse = some ranges' ∧
      List.Forall₂ Turned (segments.zip ranges) (segments.reverse.zip ranges').reverse := by
  induction segments generalizing index start ranges with
  | nil => exact ⟨[], rfl, .nil⟩
  | cons s segments ih =>
      obtain ⟨middle, r, tail, rfl, hother, hwhole, hentry, hexit, htail⟩ := orientFrom_cons h
      rw [farEnd, hother, Option.bind_some] at hfar
      rw [List.zip_cons_cons] at hroute
      obtain ⟨back, hback, hturned⟩ := ih htail hfar (nodup_route_rest hroute hentry hexit)
      -- the first segment comes last on the way back, entered where the others stop
      obtain ⟨r', hlast, hturn⟩ := exists_turned hwhole hexit (nodup_ases hroute hentry)
        (index' + segments.reverse.length)
      refine ⟨back ++ [r'], ?_, ?_⟩
      · rw [List.reverse_cons]
        exact orientFrom_append hback (farEnd_reverse hfar) hlast
      · rw [List.reverse_cons, List.zip_append (length_orientFrom hback).symm, List.zip_cons_cons,
          List.zip_cons_cons, List.reverse_append]
        exact .cons hturn hturned

end PathSegment

section Kept

variable {a b : IsdAs} {pairs turned : List (PathSegment μ × SegmentRange)}

/-- On a route without repetition not both the destination is met on the first range and the source
on the last one. -/
theorem not_meets_both {s t : PathSegment μ} {r q : SegmentRange}
    {middle : List (PathSegment μ × SegmentRange)}
    (hleads : Leads a ((s, r) :: (middle ++ [(t, q)])) b)
    (hroute : (route a ((s, r) :: (middle ++ [(t, q)]))).Nodup) (hne : a ≠ b)
    (hmeets : Meets s r b) : ¬ Meets t q a := by
  intro hback
  have hsource : a ∈ r.ases s := by
    rw [SegmentRange.ases_eq_cons hleads.entryAs_head]
    exact List.mem_cons_self
  have hstop : b ∈ q.ases t := by
    have hchain := hleads
    rw [← List.cons_append] at hchain
    rw [SegmentRange.ases_eq_concat hchain.exitAs_last]
    exact List.mem_append_right _ (List.mem_singleton_self b)
  -- what both ranges visit is the AS at which the last one is entered
  have ha := entryAs_last hleads hroute hsource (SegmentRange.mem_ases_iff.2 hback.2)
  have hb := entryAs_last hleads hroute (SegmentRange.mem_ases_iff.2 hmeets.2) hstop
  exact hne (Option.some.inj (ha.symm.trans hb))

/-- The way back keeps the ranges that the way there keeps. -/
theorem kept_turned (hleads : Leads a pairs b) (hroute : (route a pairs).Nodup) (hne : a ≠ b)
    (h : List.Forall₂ Turned pairs turned) :
    List.Forall₂ Turned (kept a b pairs) (kept b a turned.reverse).reverse := by
  cases h with
  | nil =>
      cases hleads
      exact absurd rfl hne
  | @cons p p' rest rest' hp hrest =>
      obtain ⟨s, r⟩ := p
      obtain ⟨s', r'⟩ := p'
      rcases List.eq_nil_or_concat rest with rfl | ⟨middle, ⟨t, q⟩, rfl⟩
      · rw [List.forall₂_nil_left_iff.1 hrest]
        exact .cons hp .nil
      · rw [List.concat_eq_append] at hleads hroute hrest ⊢
        have hall := List.Forall₂.cons hp hrest
        have hback := List.forall₂_reverse_iff.2 hrest
        rw [List.reverse_concat] at hback
        obtain ⟨⟨t', q'⟩, back, hlast, -, hrest'⟩ := List.forall₂_cons_left_iff.1 hback
        rw [List.reverse_cons, hrest', List.cons_append, kept_concat, kept_concat]
        have hmeets : Meets s' r' b ↔ Meets s r b := hp.meets_iff
        have hmeets' : Meets t' q' a ↔ Meets t q a := hlast.meets_iff
        have hapart : Apart t' s' q' r' ↔ Apart s t r q := hp.apart_iff hlast
        -- the rules for the destination and for the source change places
        by_cases hdestination : Meets s r b
        · rw [if_pos hdestination,
            if_neg (mt hmeets'.1 (not_meets_both hleads hroute hne hdestination)),
            if_pos (hmeets.2 hdestination)]
          exact .cons hp .nil
        · rw [if_neg hdestination]
          by_cases hsource : Meets t q a
          · rw [if_pos hsource, if_pos (hmeets'.2 hsource)]
            exact .cons hlast .nil
          · rw [if_neg hsource, if_neg (mt hmeets'.1 hsource), if_neg (mt hmeets.1 hdestination)]
            by_cases haway : Apart s t r q
            · have hwhole : (s', r') :: rest' = ((t', q') :: (back ++ [(s', r')])).reverse := by
                rw [← List.cons_append, ← hrest', ← List.reverse_cons, List.reverse_reverse]
              rw [if_pos haway, if_pos (hapart.2 haway), ← hwhole]
              exact hall
            · rw [if_neg haway, if_neg (mt hapart.1 haway)]
              exact .cons hp (.cons hlast .nil)

end Kept

namespace Leg

theorem link_not (reversed : Bool) (here there : AsEntry) :
    link (!reversed) there here = (link reversed here there).reverse := by
  cases reversed <;> rfl

theorem links_concat (reversed : Bool) (before : List AsEntry) (here there : AsEntry) :
    links reversed (before ++ [here, there])
      = links reversed (before ++ [here]) ++ link reversed here there := by
  induction before with
  | nil => exact List.append_nil _
  | cons entry before ih =>
      cases before with
      | nil =>
          rw [List.singleton_append, List.singleton_append, links_cons_cons, links_cons_cons,
            links_cons_cons, List.append_assoc]
          exact congrArg (link reversed entry here ++ ·) (List.append_nil _)
      | cons next before =>
          rw [List.cons_append, List.cons_append, List.cons_append, List.cons_append,
            links_cons_cons, links_cons_cons, List.append_assoc]
          exact congrArg _ ih

theorem links_eq_nil (reversed : Bool) {entries : List AsEntry} (h : entries.length ≤ 1) :
    links reversed entries = [] := by
  rcases entries with _ | ⟨here, _ | ⟨there, rest⟩⟩
  · rfl
  · rfl
  · rw [List.length_cons, List.length_cons] at h
    omega

/-- The links between entries are crossed the other way round on the way back. -/
theorem links_reverse (reversed : Bool) (entries : List AsEntry) :
    links (!reversed) entries.reverse = (links reversed entries).reverse := by
  induction entries with
  | nil => rfl
  | cons here rest ih =>
      cases rest with
      | nil => rfl
      | cons there rest =>
          have hends : (here :: there :: rest).reverse = rest.reverse ++ [there, here] := by
            rw [List.reverse_cons, List.reverse_cons, List.append_assoc, List.singleton_append]
          rw [hends, links_concat, ← List.reverse_cons, ih, links_cons_cons, List.reverse_append,
            link_not]

end Leg

namespace Turned

variable {p p' : PathSegment μ × SegmentRange}

theorem entries_along (h : Turned p p') :
    (Leg.along p'.1 p'.2).entries = (Leg.along p.1 p.2).entries.reverse := by
  rw [Leg.along, h.visited_eq, List.map_reverse]
  rfl

theorem interfaces_along (h : Turned p p') :
    (Leg.along p'.1 p'.2).interfaces = (Leg.along p.1 p.2).interfaces.reverse := by
  change Leg.links p'.2.reversed (Leg.along p'.1 p'.2).entries
    = (Leg.links p.2.reversed (Leg.along p.1 p.2).entries).reverse
  rw [h.entries_along]
  rcases Nat.lt_or_ge 1 (p.2.visited p.1).length with hlong | hshort
  · rw [h.reversed_eq hlong, Leg.links_reverse]
  · -- a single entry has no links, whatever the direction
    have hentries : (Leg.along p.1 p.2).entries.length ≤ 1 := by
      rw [Leg.along, List.length_map]
      exact hshort
    rw [Leg.links_eq_nil _ hentries, Leg.links_eq_nil _ (by rwa [List.length_reverse])]
    rfl

theorem mtus_along (h : Turned p p') :
    (Leg.along p'.1 p'.2).mtus.Perm (Leg.along p.1 p.2).mtus := by
  rw [Leg.mtus, Leg.mtus, h.entries_along]
  exact (List.reverse_perm _).flatMap_right _

theorem expirations_along (h : Turned p p') :
    (Leg.along p'.1 p'.2).expirations.Perm (Leg.along p.1 p.2).expirations := by
  have hinfo : (Leg.along p'.1 p'.2).info = (Leg.along p.1 p.2).info :=
    congrArg PathSegment.info h.segment_eq
  rw [Leg.expirations, Leg.expirations, h.entries_along, hinfo]
  exact (List.reverse_perm _).map _

end Turned

theorem min?_eq_of_perm {xs ys : List Int} (h : xs.Perm ys) : xs.min? = ys.min? := by
  cases hmin : ys.min? with
  | none =>
      rw [List.min?_eq_none_iff] at hmin ⊢
      rw [hmin] at h
      exact h.eq_nil
  | some least =>
      rw [List.min?_eq_some_iff] at hmin ⊢
      exact ⟨h.mem_iff.2 hmin.1, fun x hx => hmin.2 x (h.mem_iff.1 hx)⟩

theorem flatMap_reverse_of_turned {α : Type} {f : Leg → List α}
    {pairs turned : List (PathSegment μ × SegmentRange)} (h : List.Forall₂ Turned pairs turned)
    (hf : ∀ p p' : PathSegment μ × SegmentRange, Turned p p' →
      f (Leg.along p'.1 p'.2) = (f (Leg.along p.1 p.2)).reverse) :
    (turned.reverse.flatMap fun p => f (Leg.along p.1 p.2))
      = (pairs.flatMap fun p => f (Leg.along p.1 p.2)).reverse := by
  induction h with
  | nil => rfl
  | @cons p p' pairs turned hp _ ih =>
      rw [List.reverse_cons, List.flatMap_append, ih, List.flatMap_singleton, hf p p' hp,
        List.flatMap_cons, List.reverse_append]

/-- What turned legs contribute together, if each contributes the same in some order. -/
theorem flatMap_perm_of_turned {α : Type} {f : Leg → List α}
    {pairs turned : List (PathSegment μ × SegmentRange)} (h : List.Forall₂ Turned pairs turned)
    (hf : ∀ p p' : PathSegment μ × SegmentRange, Turned p p' →
      (f (Leg.along p'.1 p'.2)).Perm (f (Leg.along p.1 p.2))) :
    (turned.reverse.flatMap fun p => f (Leg.along p.1 p.2)).Perm
      (pairs.flatMap fun p => f (Leg.along p.1 p.2)) := by
  refine ((List.reverse_perm turned).flatMap_right _).trans ?_
  induction h with
  | nil => exact .nil
  | @cons p p' pairs turned hp _ ih => exact (hf p p' hp).append ih

namespace Candidate

variable {c : Candidate μ} {ranges : List SegmentRange}

/-- The way back is straight too, and turns all ranges round. -/
theorem Straight.exists_mirror (h : c.Straight ranges) :
    ∃ ranges', c.mirror.Straight ranges' ∧
      List.Forall₂ Turned (c.segments.zip ranges) (c.mirror.segments.zip ranges').reverse := by
  obtain ⟨stop, hfar, hstop⟩ := PathSegment.leads_orientFrom h.oriented
  cases h.leads.unique hstop
  obtain ⟨ranges', hback, hturned⟩ :=
    PathSegment.exists_orientFrom_reverse h.oriented hfar h.nodup 0
  obtain ⟨stop', hfar', hleads'⟩ := PathSegment.leads_orientFrom hback
  cases Option.some.inj (hfar'.symm.trans (PathSegment.farEnd_reverse hfar))
  refine ⟨ranges', ⟨hback, hleads', ?_⟩, hturned⟩
  have hroute := route_turned h.leads hturned
  rw [List.reverse_reverse] at hroute
  rw [mirror, hroute]
  exact List.nodup_reverse.2 h.nodup

/-- Where a candidate leads to its destination without visiting an AS twice, the path of the way
back is the mirror of its path. -/
theorem build_mirror {topology topology' : Topology} {now now' : Int}
    {built built' : Option (BuiltPath Unit)} (h : c.Straight ranges)
    (hne : c.source ≠ c.destination) (hlocal : topology.isdAs = c.source)
    (hlocal' : topology'.isdAs = c.destination) (hmtu : topology'.mtu = topology.mtu)
    (hbuilt : (c.build topology now).result = .ok built)
    (hbuilt' : (c.mirror.build topology' now').result = .ok built') :
    ∃ path path', built = some path ∧ built' = some path' ∧
      path'.interfaces = path.interfaces.reverse ∧ path'.mtu = path.mtu ∧
      path'.expiration = path.expiration := by
  obtain ⟨ranges', h', hturned⟩ := h.exists_mirror
  have horient := h.oriented
  have horient' := h'.oriented
  rw [← hlocal] at horient
  change PathSegment.orient c.destination c.mirror.segments = some ranges' at horient'
  rw [← hlocal'] at horient'
  obtain ⟨path, rfl⟩ := exists_path_of_build horient hbuilt
  obtain ⟨path', rfl⟩ := exists_path_of_build horient' hbuilt'
  obtain ⟨hinterfaces, hleast, hexpiration⟩ := h.parts_of_build hne hlocal hbuilt
  obtain ⟨hinterfaces', hleast', hexpiration'⟩ := h'.parts_of_build hne.symm hlocal' hbuilt'
  have hkept := kept_turned h.leads h.nodup hne hturned
  rw [List.reverse_reverse] at hkept
  have hpart := flatMap_reverse_of_turned hkept fun _ _ => Turned.interfaces_along
  have hmtus := flatMap_perm_of_turned hkept fun _ _ => Turned.mtus_along
  have hexpirations := flatMap_perm_of_turned hkept fun _ _ => Turned.expirations_along
  rw [List.reverse_reverse] at hpart hmtus hexpirations
  refine ⟨path, path', rfl, rfl, ?_, ?_, ?_⟩
  · rw [hinterfaces, hinterfaces']
    exact hpart
  · rw [hleast, hleast', hmtu]
    exact hmtus.foldl_eq _
  · rw [hexpiration, hexpiration']
    exact congrArg (·.getD 0) (min?_eq_of_perm hexpirations)

def farLeafTopology : Topology :=
  { isdAs := .plain 1 113, borderRouters := .ofList [(8, "br8")] }

/-- A candidate whose segment in the middle does not leave the core AS. -/
def overCore : Candidate Unit where
  source := .plain 1 112
  destination := .plain 1 113
  segments := [.plain .up (.plain 1 110 0 1) [.plain 1 111 2 3, .plain 1 112 4 0],
    .plain .core (.plain 1 110 0 0) [], .plain .down (.plain 1 110 0 5) [.plain 1 113 8 0]]

theorem build_mirror_overCore :
    ∃ ranges path path', overCore.Straight ranges ∧
      (overCore.build leafTopology 0).result = .ok (some path) ∧
      (overCore.mirror.build farLeafTopology 0).result = .ok (some path') ∧
      path'.interfaces = path.interfaces.reverse ∧ path'.mtu = path.mtu ∧
      path'.expiration = path.expiration := by
  obtain ⟨built, hbuilt⟩ : ∃ built, (overCore.build leafTopology 0).result = .ok built := ⟨_, rfl⟩
  obtain ⟨built', hbuilt'⟩ : ∃ built,
      (overCore.mirror.build farLeafTopology 0).result = .ok built := ⟨_, rfl⟩
  obtain ⟨ranges, horient, hroute⟩ : ∃ ranges,
      PathSegment.orient overCore.source overCore.segments = some ranges ∧
        (route overCore.source (overCore.segments.zip ranges)).Nodup := ⟨_, rfl, by decide⟩
  obtain ⟨stop, hfar, hleads⟩ := PathSegment.leads_orientFrom horient
  obtain rfl : overCore.destination = stop := Option.some.inj hfar
  have hstraight : overCore.Straight ranges := ⟨horient, hleads, hroute⟩
  have hlocal : leafTopology.isdAs = overCore.source := rfl
  have hlocal' : farLeafTopology.isdAs = overCore.destination := rfl
  have hmtu : farLeafTopology.mtu = leafTopology.mtu := rfl
  obtain ⟨path, path', rfl, rfl, hmirror⟩ :=
    build_mirror hstraight (by decide) hlocal hlocal' hmtu hbuilt hbuilt'
  exact ⟨ranges, path, path', hstraight, hbuilt, hbuilt', hmirror⟩

end Candidate

end PathAssembly

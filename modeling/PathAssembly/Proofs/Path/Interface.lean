import PathAssembly.Proofs.Path.Assembly

/-!
# The walk along the interface list

`Walks a interfaces b` says that interfaces lead from the AS `a` to the AS `b`: they come in pairs,
the interface of exit of one AS and that of entry of the next, and each pair leaves the AS that the
pair before it entered. The interfaces of a leg are a walk between the ASes of its first and its
last entry, and those of a chain of legs are one between the ends of the chain. An assembled path
therefore leads where its used ranges lead.
-/

namespace PathAssembly

/-- Interfaces lead from one AS to another, link by link. -/
inductive Walks : IsdAs → List PathInterface → IsdAs → Prop
  | nil (a : IsdAs) : Walks a [] a
  | cons {a b c : IsdAs} {rest : List PathInterface} (out into : Int) (hrest : Walks b rest c) :
      Walks a (⟨a, out⟩ :: ⟨b, into⟩ :: rest) c

namespace Walks

variable {a b c : IsdAs} {interfaces more : List PathInterface}

theorem ne_nil (h : Walks a interfaces b) (hne : a ≠ b) : interfaces ≠ [] := by
  rintro rfl
  cases h
  exact hne rfl

theorem head (h : Walks a interfaces b) (hne : interfaces ≠ []) :
    interfaces.head?.map (·.isdAs) = some a := by
  cases h with
  | nil _ => exact absurd rfl hne
  | cons out into _ => rfl

theorem last (h : Walks a interfaces b) (hne : interfaces ≠ []) :
    interfaces.getLast?.map (·.isdAs) = some b := by
  induction h with
  | nil _ => exact absurd rfl hne
  | @cons _ b c rest out into hrest ih =>
      cases hrest with
      | nil _ => rfl
      | cons out' into' hrest' =>
          rw [List.getLast?_cons_cons, List.getLast?_cons_cons]
          exact ih (List.cons_ne_nil _ _)

theorem append (h : Walks a interfaces b) (hmore : Walks b more c) :
    Walks a (interfaces ++ more) c := by
  induction h with
  | nil _ => exact hmore
  | cons out into _ ih => exact .cons out into (ih hmore)

end Walks

namespace Leg

def links (reversed : Bool) (entries : List AsEntry) : List PathInterface :=
  (entries.zip entries.tail).flatMap fun (here, there) => link reversed here there

theorem links_cons_cons (reversed : Bool) (here there : AsEntry) (rest : List AsEntry) :
    links reversed (here :: there :: rest)
      = link reversed here there ++ links reversed (there :: rest) := rfl

theorem walks_link (reversed : Bool) (here there : AsEntry) :
    Walks here.isdAs (link reversed here there) there.isdAs := by
  cases reversed <;> exact .cons _ _ (.nil _)

theorem walks_links (reversed : Bool) (here : AsEntry) (rest : List AsEntry) {b : IsdAs}
    (h : (here :: rest).getLast?.map (·.isdAs) = some b) :
    Walks here.isdAs (links reversed (here :: rest)) b := by
  induction rest generalizing here with
  | nil =>
      obtain rfl : here.isdAs = b := Option.some.inj h
      exact .nil here.isdAs
  | cons there rest ih =>
      rw [List.getLast?_cons_cons] at h
      rw [links_cons_cons]
      exact (walks_link reversed here there).append (ih there h)

theorem links_ne_nil (reversed : Bool) {entries : List AsEntry} (h : 1 < entries.length) :
    links reversed entries ≠ [] := by
  match entries, h with
  | here :: there :: rest, _ =>
      rw [links_cons_cons]
      cases reversed <;> exact List.cons_ne_nil _ _

variable {μ : Type}

theorem walks_along {s : PathSegment μ} {r : SegmentRange} {a b : IsdAs}
    (hentry : r.entryAs s = some a) (hexit : r.exitAs s = some b) :
    Walks a (along s r).interfaces b := by
  unfold SegmentRange.entryAs at hentry
  unfold SegmentRange.exitAs at hexit
  change Walks a (links r.reversed ((r.visited s).map Prod.snd)) b
  cases hvisited : r.visited s with
  | nil =>
      rw [hvisited] at hentry
      cases hentry
  | cons x rest =>
      rw [hvisited] at hentry hexit
      cases hentry
      have hlast : ((x :: rest).map Prod.snd).getLast?.map (·.isdAs) = some b := by
        rw [List.getLast?_map, Option.map_map]
        exact hexit
      exact walks_links r.reversed x.2 (rest.map Prod.snd) hlast

/-- The interfaces of a chain of legs are a walk between its ends. -/
theorem walks_of_leads {a b : IsdAs} {pairs : List (PathSegment μ × SegmentRange)}
    (h : Leads a pairs b) :
    Walks a ((pairs.map fun (s, r) => along s r).flatMap interfaces) b := by
  induction h with
  | nil a => exact .nil a
  | cons hentry hexit _ ih => exact (walks_along hentry hexit).append ih

end Leg

namespace Candidate.Assembles

variable {μ : Type} {c : Candidate μ} {topology : Topology} {ranges : List SegmentRange}
  {used : Truncated μ} {path : BuiltPath Unit}

theorem interfaces_eq (h : c.Assembles topology ranges used path) :
    path.interfaces = ((used.segments.zip used.ranges).map fun (s, r) => Leg.along s r).flatMap
      Leg.interfaces :=
  (BuiltPath.ofRanges_eq_ok h.fits h.built).2.1

/-- A path along a single core segment has interfaces if there are two ASes on it. -/
theorem interfaces_ne_nil (h : c.Assembles topology ranges used path) {s : PathSegment μ}
    (hsegments : c.segments = [s]) (hcore : s.isCore = true) (hlength : 1 < s.length) :
    path.interfaces ≠ [] := by
  have horient := h.oriented
  have htruncates := h.truncates
  rw [hsegments] at horient htruncates
  obtain ⟨r, rest, hwhole, hrest, rfl⟩ :=
    List.forall₂_cons_left_iff.1 (PathSegment.forall₂_whole_orientFrom horient)
  rw [List.forall₂_nil_left_iff.1 hrest] at htruncates
  obtain ⟨hsegments', hranges'⟩ := htruncates.eq_of_avoids (not_meets_of_isCore hcore)
  rw [h.interfaces_eq, hsegments', hranges']
  intro hnil
  have hlinks : Leg.links r.reversed ((r.visited s).map Prod.snd) = [] :=
    (List.append_eq_nil_iff.1 hnil).1
  refine Leg.links_ne_nil r.reversed ?_ hlinks
  rw [List.length_map, hwhole.length_visited]
  exact hlength

theorem walks (h : c.Assembles topology ranges used path) {a b : IsdAs}
    (hleads : Leads a (used.segments.zip used.ranges) b) : Walks a path.interfaces b := by
  rw [h.interfaces_eq]
  exact Leg.walks_of_leads hleads

/-- The used ranges lead to the destination if it is met on the first segment, and to the far end of
the segments otherwise. -/
theorem leads (h : c.Assembles topology ranges used path) {s : PathSegment μ}
    {others : List (PathSegment μ)} (hsegments : c.segments = s :: others)
    (hsource : topology.isdAs = c.source) :
    ∃ r stop, s.Whole r ∧ PathSegment.farEnd c.source c.segments = some stop ∧
      (Meets s r c.destination →
        Leads c.source (used.segments.zip used.ranges) c.destination) ∧
      (¬ Meets s r c.destination → Leads c.source (used.segments.zip used.ranges) stop) := by
  have horient := h.oriented
  have htruncates := h.truncates
  rw [hsource, hsegments] at horient
  rw [hsegments] at htruncates ⊢
  have hwhole := PathSegment.forall₂_whole_orientFrom horient
  have hfits := PathSegment.forall₂_fits_orientFrom horient
  obtain ⟨stop, hfar, hleads⟩ := PathSegment.leads_orientFrom horient
  cases hwhole with
  | cons hr _ =>
      refine ⟨_, stop, hr, hfar, ?_, ?_⟩
      · exact htruncates.leads_destination hr.fits hleads.entryAs_head
      · exact htruncates.leads_stop hfits hleads

end Candidate.Assembles

/-- The path of segments that reach the destination from end to end leads from the source to the
destination, however it is truncated. -/
theorem Candidate.ends_of_farEnd {μ : Type} {c : Candidate μ} {topology : Topology} {now : Int}
    {path : BuiltPath Unit} (hfar : PathSegment.farEnd c.source c.segments = some c.destination)
    (hne : c.source ≠ c.destination) (hlocal : topology.isdAs = c.source)
    (hbuild : (c.build topology now).result = .ok (some path)) :
    path.interfaces ≠ [] ∧ path.interfaces.head?.map (·.isdAs) = some c.source ∧
      path.interfaces.getLast?.map (·.isdAs) = some c.destination := by
  cases hsegments : c.segments with
  | nil =>
      rw [hsegments] at hfar
      exact absurd (Option.some.inj hfar) hne
  | cons s others =>
      have hsome : c.segments ≠ [] := by
        rw [hsegments]
        exact List.cons_ne_nil s others
      obtain ⟨ranges, used, hused⟩ := assembles_of_build hsome hbuild
      obtain ⟨r, stop, _, hstop, hmeets, havoids⟩ := hused.leads hsegments hlocal
      rw [← Option.some.inj (hfar.symm.trans hstop)] at havoids
      have hleads : Leads c.source (used.segments.zip used.ranges) c.destination := by
        by_cases h : Meets s r c.destination
        · exact hmeets h
        · exact havoids h
      have hwalks := hused.walks hleads
      have hinterfaces := hwalks.ne_nil hne
      exact ⟨hinterfaces, hwalks.head hinterfaces, hwalks.last hinterfaces⟩

end PathAssembly

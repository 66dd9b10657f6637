import PathAssembly.Proofs.Resolver
import PathAssembly.Proofs.Retention

/-!
# Fewer lookups

A request that makes few lookups stops at segments up that have the destination on them, each of
which is a candidate alone. A request that makes all lookups proposes such a segment in company: any
candidate that begins with it is cut at the destination and gives the same path. It abandons the
segment where it proposes no candidate that begins with it, which happens in two ways: there is no
way between the isolation domains, or there are segments down of which none joins it.
-/

namespace PathAssembly

variable {μ : Type}

/-- A segment with both ends on it gives a path alone. -/
structure GivesAlone (topology : Topology) (now : Int) (source destination : IsdAs)
    (s : PathSegment μ) (path : BuiltPath Unit) : Prop where
  contains_source : s.contains source = true
  contains_destination : s.contains destination = true
  built : (({ source, destination, segments := [s] } : Candidate μ).build topology now).result
    = .ok (some path)

namespace GivesAlone

variable {topology : Topology} {now : Int} {source destination stop : IsdAs} {s : PathSegment μ}
  {more : List (PathSegment μ)} {path : BuiltPath Unit}

/-- Segments behind one that has the destination on it do not change its path. -/
theorem eq_of_build {built : Option (BuiltPath Unit)}
    (h : GivesAlone topology now source destination s path) (hlocal : topology.isdAs = source)
    (hcore : s.isCore = false) (hfar : PathSegment.farEnd source (s :: more) = some stop)
    (hbuilt : (({ source, destination, segments := s :: more } : Candidate μ).build topology
      now).result = .ok built) : built = some path := by
  obtain ⟨ranges, used, hused⟩ := Candidate.assembles_of_build (List.cons_ne_nil _ _) h.built
  have hsingle : PathSegment.orientFrom 0 source [s] = some ranges := by
    rw [← hlocal]
    exact hused.oriented
  obtain ⟨middle, r, _, rfl, hother, hwhole, _, _, hnil⟩ := PathSegment.orientFrom_cons hsingle
  cases hnil
  -- the range of the segment is the same in company, and so is the place at which it is cut
  rw [PathSegment.farEnd, hother, Option.bind_some] at hfar
  obtain ⟨rest, hrest⟩ := PathSegment.exists_orientFrom hfar 1
  have hnear : PathSegment.farEnd source [s] = some middle := by
    rw [PathSegment.farEnd, hother]
    rfl
  have hall : PathSegment.orient topology.isdAs (s :: more) = some (r :: rest) := by
    rw [hlocal]
    exact PathSegment.orientFrom_append hsingle hnear hrest
  obtain ⟨path', rfl⟩ := Candidate.exists_path_of_build hall hbuilt
  obtain ⟨ranges', used', hused'⟩ := Candidate.assembles_of_build (List.cons_ne_nil _ _) hbuilt
  cases hall.symm.trans hused'.oriented
  obtain ⟨hsegments, hranges⟩ := hused.truncates.eq_of_meets hused'.truncates
    (hwhole.meets hcore h.contains_destination)
  have hpath := hused.built
  rw [hsegments, hranges, hused'.built] at hpath
  rw [Except.ok.inj hpath]

/-- A candidate that begins with the segment gives its path, if it is not refused. -/
theorem exists_candidate {candidates : List (Candidate μ)}
    (h : GivesAlone topology now source destination s path) (hlocal : topology.isdAs = source)
    (hcore : s.isCore = false)
    (hbuilds : ∀ c ∈ candidates, ∃ built, (c.build topology now).result = .ok built)
    (hfar : PathSegment.farEnd source (s :: more) = some stop)
    (hmem : { source, destination, segments := s :: more } ∈ candidates) :
    ∃ c ∈ candidates, (c.build topology now).result = .ok (some path) := by
  obtain ⟨built, hbuilt⟩ := hbuilds _ hmem
  rw [h.eq_of_build hlocal hcore hfar hbuilt] at hbuilt
  exact ⟨_, hmem, hbuilt⟩

end GivesAlone

namespace Candidate

variable {up core down : List (PathSegment μ)} {source destination : IsdAs} {u d : PathSegment μ}

theorem mem_ofSets_of_contains (hu : u ∈ up) (hsource : u.contains source = true)
    (hdestination : u.contains destination = true) :
    ({ source, destination, segments := [u] } : Candidate μ)
      ∈ ofSets up core [] source destination := by
  cases up with
  | nil => cases hu
  | cons v up =>
      cases core with
      | nil => exact mem_single_iff.2 ⟨u, hu, hsource, hdestination, rfl⟩
      | cons c core =>
          have hdirect : u ∈ containing (v :: up) destination :=
            List.mem_filter.2 ⟨hu, hdestination⟩
          exact List.mem_append_right _ (mem_single_iff.2 ⟨u, hdirect, hsource, hdestination, rfl⟩)

theorem mem_ofSets_of_otherEnd (hsame : source.isd = destination.isd) (hu : u ∈ up) (hd : d ∈ down)
    {middle : IsdAs} (hup : u.otherEnd source = some middle)
    (hdown : d.otherEnd destination = some middle) :
    ({ source, destination, segments := [u, d] } : Candidate μ)
      ∈ ofSets up core down source destination := by
  have hpair := mem_joinTwo_iff.2 ⟨u, hu, d, hd, middle, hup, hdown, rfl⟩
  cases up with
  | nil => cases hu
  | cons v up =>
      cases down with
      | nil => cases hd
      | cons e down =>
          cases core with
          | nil => exact hpair
          | cons c core =>
              refine List.mem_append_right _ ?_
              rw [if_pos hsame]
              exact hpair

end Candidate

namespace Answers

variable {answers : Answers μ} {source destination : IsdAs} {u : PathSegment μ}

/-- A request that makes all lookups proposes no candidate that begins with a segment up: there is
no way between the isolation domains, or there are segments down and none of them joins it. -/
inductive Abandons (answers : Answers μ) (source destination : IsdAs) (u : PathSegment μ) : Prop
  | guarded (hforeign : source.isd ≠ destination.isd) (hcore : answers.core = [])
  | unjoined (hdown : answers.downBeyond destination answers.core ≠ [])
      (hpair : source.isd = destination.isd → ∀ d ∈ answers.downBeyond destination answers.core,
        ∀ middle, u.otherEnd source = some middle → d.otherEnd destination ≠ some middle)
      (hthree : ∀ c ∈ answers.core, ∀ d ∈ answers.downBeyond destination answers.core,
        ¬ Candidate.Joined answers.up (answers.downBeyond destination answers.core) source
          destination u c d)

theorem beyond_eq_ofSets (hopen : source.isd ≠ destination.isd → answers.core ≠ [])
    (up : List (PathSegment μ)) :
    answers.beyond source destination false up = Candidate.ofSets up answers.core
      (answers.downBeyond destination answers.core) source destination :=
  if_neg fun hguard => hopen hguard.1 (List.isEmpty_iff.1 hguard.2)

variable {topology : Topology} {now : Int} {path : BuiltPath Unit}

/-- A segment up that is not abandoned is proposed in company, which gives its path. -/
theorem abandons_or_exists (hlocal : topology.isdAs = source) (hu : u ∈ answers.up)
    (hcore : u.isCore = false) (h : GivesAlone topology now source destination u path)
    (hbuilds : ∀ c ∈ answers.beyond source destination false answers.up,
      ∃ built, (c.build topology now).result = .ok built) :
    answers.Abandons source destination u ∨
      ∃ c ∈ answers.beyond source destination false answers.up,
        (c.build topology now).result = .ok (some path) := by
  by_cases hguard : source.isd ≠ destination.isd ∧ answers.core = []
  · exact Or.inl (.guarded hguard.1 hguard.2)
  rw [beyond_eq_ofSets fun hforeign hnone => hguard ⟨hforeign, hnone⟩] at hbuilds ⊢
  by_cases hdown : answers.downBeyond destination answers.core = []
  · rw [hdown]
    exact Or.inr ⟨_, Candidate.mem_ofSets_of_contains hu h.contains_source h.contains_destination,
      h.built⟩
  by_cases hpair : source.isd = destination.isd ∧
      ∃ d ∈ answers.downBeyond destination answers.core, ∃ middle,
        u.otherEnd source = some middle ∧ d.otherEnd destination = some middle
  · obtain ⟨hsame, d, hd, middle, hup, hdown⟩ := hpair
    exact Or.inr (h.exists_candidate hlocal hcore hbuilds (Candidate.farEnd_pair hup hdown)
      (Candidate.mem_ofSets_of_otherEnd hsame hu hd hup hdown))
  by_cases hthree : ∃ c ∈ answers.core, ∃ d ∈ answers.downBeyond destination answers.core,
      Candidate.Joined answers.up (answers.downBeyond destination answers.core) source
        destination u c d
  · obtain ⟨c, hc, d, hd, hjoined⟩ := hthree
    have hmem := Candidate.mem_joinThree_iff.2 ⟨u, hu, c, hc, d, hd, hjoined, rfl⟩
    exact Or.inr (h.exists_candidate hlocal hcore hbuilds (Candidate.farEnd_of_joined hjoined)
      ((Candidate.mem_ofSets_three_iff rfl).2 hmem))
  refine Or.inl (.unjoined hdown ?_ ?_)
  · intro hsame d hd middle hup hother
    exact hpair ⟨hsame, d, hd, middle, hup, hother⟩
  · intro c hc d hd hjoined
    exact hthree ⟨c, hc, d, hd, hjoined⟩

/-- Fewer lookups make a difference only if they stop at segments up. -/
theorem candidates_eq_or (answers : Answers μ) (source destination : IsdAs) (localIsCore : Bool) :
    answers.candidates source destination localIsCore true
        = answers.candidates source destination localIsCore false ∨
      localIsCore = false ∧
        answers.candidates source destination localIsCore true
          = Candidate.single (containing answers.up destination) source destination ∧
        answers.candidates source destination localIsCore false
          = answers.beyond source destination false answers.up := by
  rw [candidates, candidates]
  by_cases hsame : source = destination
  · exact Or.inl (by rw [if_pos hsame, if_pos hsame])
  rw [if_neg hsame, if_neg hsame]
  cases localIsCore with
  | true => exact Or.inl rfl
  | false =>
      rw [if_neg Bool.false_ne_true, if_neg Bool.false_ne_true, fromLeaf, fromLeaf]
      by_cases hup : answers.up.isEmpty = true
      · exact Or.inl (by rw [if_pos hup, if_pos hup])
      rw [if_neg hup, if_neg hup, Bool.true_and, Bool.false_and, if_neg Bool.false_ne_true]
      by_cases hdirect : (!(containing answers.up destination).isEmpty) = true
      · rw [if_pos hdirect]
        exact Or.inr ⟨rfl, rfl, rfl⟩
      · rw [if_neg hdirect]
        exact Or.inl rfl

end Answers

theorem Service.noncore_up (service : Service μ) {source destination : IsdAs} {u : PathSegment μ}
    (hu : u ∈ (service.answers source destination).up) : u.isCore = false := by
  obtain ⟨s, _, rfl⟩ := List.mem_map.1 hu
  rfl

/-- A path of few lookups is matched by one of all lookups that crosses the same links and lasts as
long, unless all segments up that give it alone are abandoned. -/
theorem resolvePaths_narrows {service : Service μ} (hsteady : service.Steady)
    {source destination : IsdAs} {topology : Topology} {now : Int}
    {few all : List (BuiltPath Unit)} (hlocal : topology.isdAs = source)
    (hfew : (resolvePaths service source destination topology { minimizeRequests := true }
      now).outcome.result = .ok few)
    (hall : (resolvePaths service source destination topology { minimizeRequests := false }
      now).outcome.result = .ok all) :
    ∀ p ∈ few, ∃ links, interfacePairs p.raw = .ok links ∧
      ((∃ q ∈ all, interfacePairs q.raw = .ok links ∧ p.expiration ≤ q.expiration) ∨
      topology.core = false ∧
        (∃ u ∈ (service.answers source destination).up,
          GivesAlone topology now source destination u p) ∧
        ∀ u ∈ (service.answers source destination).up,
          GivesAlone topology now source destination u p →
            (service.answers source destination).Abandons source destination u) := by
  intro p hp
  obtain ⟨c, hc, hbuild⟩ := (retains_of_steady hsteady hfew).built p hp
  obtain ⟨links, hlinks⟩ := (retains_of_steady hsteady hfew).readable p hp
  refine ⟨links, hlinks, ?_⟩
  rw [← hlinks]
  have houtlasts := (retains_of_steady hsteady hall).outlasts
  obtain ⟨_, _, hbuilds, _⟩ := (gives_resolvePaths_iff_of_steady hsteady).1 hall
  rcases (service.answers source destination).candidates_eq_or source destination topology.core with
    hsame | ⟨hcore, hsingle, hbeyond⟩
  · exact Or.inl (houtlasts c (hsame ▸ hc) p hbuild)
  · by_cases hmatched : ∃ q ∈ all,
        interfacePairs q.raw = interfacePairs p.raw ∧ p.expiration ≤ q.expiration
    · exact Or.inl hmatched
    rw [hsingle] at hc
    rw [hbeyond] at hbuilds houtlasts
    obtain ⟨u, hu, hsource, hdestination, rfl⟩ := Candidate.mem_single_iff.1 hc
    refine Or.inr ⟨hcore, ⟨u, (List.mem_filter.1 hu).1, hsource, hdestination, hbuild⟩, ?_⟩
    intro v hv halone
    refine (Answers.abandons_or_exists hlocal hv (service.noncore_up hv) halone
      hbuilds).resolve_right ?_
    rintro ⟨d, hd, hpath⟩
    exact hmatched (houtlasts d hd p hpath)

/-- A way up through an AS, and a way down to this AS from the same core AS. -/
def throughStore : SegmentStore Unit :=
  leafStore.add ⟨.plain 1 0, .plain 1 111⟩
    [.plain .down (.plain 1 110 0 1) [.plain 1 111 2 0]]

def upAndDown : Candidate Unit where
  source := .plain 1 112
  destination := .plain 1 111
  segments := [.plain .up (.plain 1 110 0 1) [.plain 1 111 2 3, .plain 1 112 4 0],
    .plain .down (.plain 1 110 0 1) [.plain 1 111 2 0]]

theorem resolvePaths_narrows_through :
    ∃ p all, (resolvePaths throughStore.service (.plain 1 112) (.plain 1 111) leafTopology
        { minimizeRequests := true } 0).outcome.result = .ok [p] ∧
      (resolvePaths throughStore.service (.plain 1 112) (.plain 1 111) leafTopology
        { minimizeRequests := false } 0).outcome.result = .ok all ∧
      ∃ links, interfacePairs p.raw = .ok links ∧
        ∃ q ∈ all, interfacePairs q.raw = .ok links ∧ p.expiration ≤ q.expiration := by
  obtain ⟨start, hstart⟩ : ∃ start, IsdAs.format (.plain 1 112) = .ok start := ⟨_, rfl⟩
  obtain ⟨goal, hgoal⟩ : ∃ goal, IsdAs.format (.plain 1 111) = .ok goal := ⟨_, rfl⟩
  obtain ⟨p, hp⟩ : ∃ p, (upOnPath.build leafTopology 0).result = .ok (some p) := ⟨_, rfl⟩
  obtain ⟨q, hq⟩ : ∃ q, (upAndDown.build leafTopology 0).result = .ok (some q) := ⟨_, rfl⟩
  have hone : (Candidate.combine throughStore.service (.plain 1 112) (.plain 1 111) false
      true).Gives [] [upOnPath] := rfl
  have htwo : (Candidate.combine throughStore.service (.plain 1 112) (.plain 1 111) false
      false).Gives [] [upAndDown] := rfl
  have hfew : (resolvePaths throughStore.service (.plain 1 112) (.plain 1 111) leafTopology
      { minimizeRequests := true } 0).Gives [] [p] :=
    gives_resolvePaths_singleton hone hp hstart hgoal
  have hall : (resolvePaths throughStore.service (.plain 1 112) (.plain 1 111) leafTopology
      { minimizeRequests := false } 0).Gives [] [q] :=
    gives_resolvePaths_singleton htwo hq hstart hgoal
  have hlocal : leafTopology.isdAs = .plain 1 112 := rfl
  obtain ⟨links, hlinks, hnarrows⟩ := resolvePaths_narrows throughStore.steady_service hlocal hfew
    hall p (List.mem_singleton_self p)
  refine ⟨p, [q], hfew, hall, links, hlinks, hnarrows.resolve_right ?_⟩
  rintro ⟨-, ⟨u, hu, halone⟩, habandons⟩
  have hanswer : (throughStore.service.answers (.plain 1 112) (.plain 1 111)).up
      = upOnPath.segments := by decide +kernel
  have hdown : (throughStore.service.answers (.plain 1 112) (.plain 1 111)).downBeyond
      (.plain 1 111) (throughStore.service.answers (.plain 1 112) (.plain 1 111)).core
        = upAndDown.segments.tail := by decide +kernel
  rw [hanswer] at hu
  rcases habandons u hu halone with ⟨hforeign, _⟩ | ⟨_, hpair, _⟩
  · exact hforeign rfl
  · rw [hdown, List.mem_singleton.1 hu] at hpair
    exact hpair rfl _ (List.mem_singleton_self _) (.plain 1 110) rfl rfl

/-- A way up through an AS, and a way down to this AS from another core AS. -/
def strayStore : SegmentStore Unit :=
  leafStore.add ⟨.plain 1 0, .plain 1 111⟩
    [.plain .down (.plain 1 120 0 1) [.plain 1 111 4 0]]

/-- A way up through an AS of another isolation domain. -/
def foreignStore : SegmentStore Unit :=
  SegmentStore.add {} ⟨.plain 1 112, .plain 1 0⟩
    [.plain .up (.plain 1 110 0 1) [.plain 2 111 2 3, .plain 1 112 4 0]]

def upForeign : Candidate Unit where
  source := .plain 1 112
  destination := .plain 2 111
  segments := [.plain .up (.plain 1 110 0 1) [.plain 2 111 2 3, .plain 1 112 4 0]]

/-- In both ways of being abandoned, the only path of few lookups is lost. -/
theorem resolvePaths_loses :
    (strayStore.service.Steady ∧
      ∃ p, (resolvePaths strayStore.service (.plain 1 112) (.plain 1 111) leafTopology
          { minimizeRequests := true } 0).outcome.result = .ok [p] ∧
        (resolvePaths strayStore.service (.plain 1 112) (.plain 1 111) leafTopology
          { minimizeRequests := false } 0).outcome.result = .ok []) ∧
    foreignStore.service.Steady ∧
      ∃ p, (resolvePaths foreignStore.service (.plain 1 112) (.plain 2 111) leafTopology
          { minimizeRequests := true } 0).outcome.result = .ok [p] ∧
        (resolvePaths foreignStore.service (.plain 1 112) (.plain 2 111) leafTopology
          { minimizeRequests := false } 0).outcome.result = .ok [] := by
  obtain ⟨start, hstart⟩ : ∃ start, IsdAs.format (.plain 1 112) = .ok start := ⟨_, rfl⟩
  obtain ⟨goal, hgoal⟩ : ∃ goal, IsdAs.format (.plain 1 111) = .ok goal := ⟨_, rfl⟩
  obtain ⟨goal', hgoal'⟩ : ∃ goal, IsdAs.format (.plain 2 111) = .ok goal := ⟨_, rfl⟩
  obtain ⟨p, hp⟩ : ∃ p, (upOnPath.build leafTopology 0).result = .ok (some p) := ⟨_, rfl⟩
  obtain ⟨p', hp'⟩ : ∃ p, (upForeign.build leafTopology 0).result = .ok (some p) := ⟨_, rfl⟩
  refine ⟨⟨strayStore.steady_service, p, ?_, ?_⟩, foreignStore.steady_service, p', ?_, ?_⟩
  · exact gives_resolvePaths_singleton rfl hp hstart hgoal
  · exact gives_resolvePaths_nil rfl hstart hgoal
  · exact gives_resolvePaths_singleton rfl hp' hstart hgoal'
  · exact gives_resolvePaths_nil rfl hstart hgoal'

end PathAssembly

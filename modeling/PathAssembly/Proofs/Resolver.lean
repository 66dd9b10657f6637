import PathAssembly.Proofs.Resolution

/-!
# Where resolved paths lead

Every path of a request is built from one of its candidates, and leads from the source to where the
used ranges of the candidate lead. That is the destination, with one exception: a core segment is
proposed alone for every AS on it, but it is never cut, so that a path along it ends at its other
end whether or not the destination is there.
-/

namespace PathAssembly

variable {μ : Type}

/-- A core segment alone that does not end at the destination. -/
def Candidate.Overshoots (c : Candidate μ) : Prop :=
  ∃ s, c.segments = [s] ∧ s.isCore = true ∧ s.otherEnd c.source ≠ some c.destination

/-- The path of a proposal leads from the source to the destination, unless the proposal is a core
segment that goes on beyond it. -/
theorem Candidate.Proposes.ends_of_build {source destination : IsdAs} {localIsCore : Bool}
    {c : Candidate μ} {topology : Topology} {now : Int} {path : BuiltPath Unit}
    (hproposes : Proposes source destination localIsCore c) (hne : source ≠ destination)
    (hlocal : topology.isdAs = source)
    (hbuild : (c.build topology now).result = .ok (some path)) :
    path.interfaces ≠ [] ∧ path.interfaces.head?.map (·.isdAs) = some source ∧
      (path.interfaces.getLast?.map (·.isdAs) = some destination ↔ ¬ c.Overshoots) := by
  cases hproposes with
  | @joined segments hstages hfar =>
      obtain ⟨hinterfaces, hhead, hlast⟩ := ends_of_farEnd hfar hne hlocal hbuild
      refine ⟨hinterfaces, hhead, iff_of_true hlast ?_⟩
      rintro ⟨s, rfl, _⟩
      cases hstages
  | @onPath s hcore _ hdestination =>
      obtain ⟨ranges, used, hused⟩ := assembles_of_build (List.cons_ne_nil _ _) hbuild
      obtain ⟨r, _, hwhole, _, hmeets, _⟩ := hused.leads rfl hlocal
      have hwalks := hused.walks (hmeets (hwhole.meets hcore hdestination))
      have hinterfaces := hwalks.ne_nil hne
      refine ⟨hinterfaces, hwalks.head hinterfaces, iff_of_true (hwalks.last hinterfaces) ?_⟩
      rintro ⟨t, hsingle, hcore', _⟩
      cases hsingle
      rw [hcore] at hcore'
      cases hcore'
  | @onCore s hcore _ hlast hdestination =>
      obtain ⟨ranges, used, hused⟩ := assembles_of_build (List.cons_ne_nil _ _) hbuild
      obtain ⟨r, stop, _, hstop, _, havoids⟩ := hused.leads rfl hlocal
      have hother : s.otherEnd source = some stop := by
        rw [← hstop, PathSegment.farEnd]
        cases s.otherEnd source <;> rfl
      have hsource : s.contains source = true := by
        rw [← hlast]
        exact s.contains_last
      have hinterfaces := hused.interfaces_ne_nil rfl hcore
        (PathSegment.one_lt_length hsource hdestination hne)
      -- the truncation does not ask a core segment for the destination
      have hwalks := hused.walks (havoids (not_meets_of_isCore hcore))
      refine ⟨hinterfaces, hwalks.head hinterfaces, ?_⟩
      rw [hwalks.last hinterfaces, ← hother]
      constructor
      · rintro hreaches ⟨t, hsingle, _, hbeyond⟩
        cases hsingle
        exact hbeyond hreaches
      · intro hstays
        by_contra hbeyond
        exact hstays ⟨s, rfl, hcore, hbeyond⟩

theorem exists_candidate_of_gives_resolvePaths {service : Service μ} {source destination : IsdAs}
    {topology : Topology} {settings : Settings} {now : Int} {asked : List Query}
    {paths : List (BuiltPath Unit)}
    (h : (resolvePaths service source destination topology settings now).Gives asked paths) :
    ∃ candidates, (Candidate.combine service source destination topology.core
        settings.minimizeRequests).Gives asked candidates ∧
      ∀ path ∈ paths, ∃ c ∈ candidates, (c.build topology now).result = .ok (some path) := by
  obtain ⟨_, _, candidates, hcandidates, _, rfl⟩ := gives_resolvePaths_iff.1 h
  refine ⟨candidates, hcandidates, ?_⟩
  intro path hpath
  obtain ⟨links, hget⟩ := OrderedMap.mem_values_iff.1 (List.mem_mergeSort.1 hpath)
  exact (Candidate.of_get?_ledger hget).2

theorem gives_resolvePaths_singleton {service : Service μ} {source destination : IsdAs}
    {topology : Topology} {settings : Settings} {now : Int} {asked : List Query}
    {c : Candidate μ} {path : BuiltPath Unit} {start goal : String}
    (hcandidates : (Candidate.combine service source destination topology.core
        settings.minimizeRequests).Gives asked [c])
    (hbuild : (c.build topology now).result = .ok (some path))
    (hstart : source.format = .ok start) (hgoal : destination.format = .ok goal) :
    (resolvePaths service source destination topology settings now).Gives asked [path] := by
  obtain ⟨links, hlinks⟩ := Candidate.exists_interfacePairs_of_build hbuild
  have hledger : (Candidate.ledger topology now [c]).values = [path] := by
    have hoffer := Candidate.offer?_eq_some_iff.2 ⟨hbuild, hlinks⟩
    rw [Candidate.ledger, List.filterMap_cons_some hoffer]
    rfl
  refine gives_resolvePaths_iff.2 ⟨⟨start, hstart⟩, ⟨goal, hgoal⟩, [c], hcandidates, ?_, ?_⟩
  · intro c' hc'
    rw [List.mem_singleton.1 hc']
    exact ⟨some path, hbuild⟩
  · rw [hledger, List.mergeSort_singleton]

theorem gives_resolvePaths_nil {service : Service μ} {source destination : IsdAs}
    {topology : Topology} {settings : Settings} {now : Int} {asked : List Query}
    {start goal : String}
    (hcandidates : (Candidate.combine service source destination topology.core
        settings.minimizeRequests).Gives asked [])
    (hstart : source.format = .ok start) (hgoal : destination.format = .ok goal) :
    (resolvePaths service source destination topology settings now).Gives asked [] :=
  gives_resolvePaths_iff.2 ⟨⟨start, hstart⟩, ⟨goal, hgoal⟩, [], hcandidates,
    fun _ hc => absurd hc List.not_mem_nil, List.mergeSort_nil.symm⟩

theorem Candidate.Proposes.localIsCore_of_overshoots {source destination : IsdAs}
    {localIsCore : Bool} {c : Candidate μ} (hproposes : Proposes source destination localIsCore c)
    (h : c.Overshoots) : localIsCore = true := by
  obtain ⟨t, hsingle, hcore, _⟩ := h
  cases hproposes with
  | joined hstages _ =>
      cases hsingle
      cases hstages
  | onPath hnoncore _ _ =>
      cases hsingle
      rw [hnoncore] at hcore
      cases hcore
  | onCore _ hlocal _ _ => exact hlocal

/-- Every path of a request between different ASes starts in the source. It ends in the destination
exactly if it is not that of a core segment alone which goes on beyond the destination; only a core
AS uses such segments. -/
theorem resolvePaths_ends {service : Service μ} {source destination : IsdAs} {topology : Topology}
    {settings : Settings} {now : Int} {paths : List (BuiltPath Unit)} (hne : source ≠ destination)
    (hlocal : topology.isdAs = source)
    (h : (resolvePaths service source destination topology settings now).outcome.result
      = .ok paths) :
    ∃ candidates, (Candidate.combine service source destination topology.core
        settings.minimizeRequests).outcome.result = .ok candidates ∧
      ∀ path ∈ paths, path.interfaces ≠ [] ∧
        path.interfaces.head?.map (·.isdAs) = some source ∧
        ∃ c ∈ candidates, (c.build topology now).result = .ok (some path) ∧
          (path.interfaces.getLast?.map (·.isdAs) = some destination ↔
            ¬ (topology.core = true ∧ ∃ s, c.segments = [s] ∧ s.isCore = true ∧
              s.otherEnd source ≠ some destination)) := by
  obtain ⟨candidates, hcandidates, hpaths⟩ := exists_candidate_of_gives_resolvePaths h
  refine ⟨candidates, hcandidates, ?_⟩
  intro path hpath
  obtain ⟨c, hc, hbuild⟩ := hpaths path hpath
  have hproposes := Candidate.proposes_of_gives_combine hne hcandidates c hc
  obtain ⟨hinterfaces, hhead, hlast⟩ := hproposes.ends_of_build hne hlocal hbuild
  refine ⟨hinterfaces, hhead, c, hc, hbuild, hlast.trans (not_congr ?_)⟩
  constructor
  · intro hover
    refine ⟨hproposes.localIsCore_of_overshoots hover, ?_⟩
    cases hproposes <;> exact hover
  · rintro ⟨_, hover⟩
    cases hproposes <;> exact hover

def leafStore : SegmentStore Unit :=
  SegmentStore.add {} ⟨.plain 1 112, .plain 1 0⟩
    [.plain .up (.plain 1 110 0 1) [.plain 1 111 2 3, .plain 1 112 4 0]]

def upOnPath : Candidate Unit where
  source := .plain 1 112
  destination := .plain 1 111
  segments := [.plain .up (.plain 1 110 0 1) [.plain 1 111 2 3, .plain 1 112 4 0]]

theorem resolvePaths_ends_upOnPath :
    ∃ paths, paths ≠ [] ∧
      (resolvePaths leafStore.service upOnPath.source upOnPath.destination leafTopology {}
        0).outcome.result = .ok paths ∧
      ∃ candidates, (Candidate.combine leafStore.service upOnPath.source upOnPath.destination
          leafTopology.core false).outcome.result = .ok candidates ∧
        ∀ path ∈ paths, path.interfaces ≠ [] ∧
          path.interfaces.head?.map (·.isdAs) = some upOnPath.source ∧
          ∃ c ∈ candidates, (c.build leafTopology 0).result = .ok (some path) ∧
            (path.interfaces.getLast?.map (·.isdAs) = some upOnPath.destination ↔
              ¬ (leafTopology.core = true ∧ ∃ s, c.segments = [s] ∧ s.isCore = true ∧
                s.otherEnd upOnPath.source ≠ some upOnPath.destination)) := by
  obtain ⟨path, hbuild⟩ : ∃ path, (upOnPath.build leafTopology 0).result = .ok (some path) :=
    ⟨_, rfl⟩
  obtain ⟨start, hstart⟩ : ∃ start, upOnPath.source.format = .ok start := ⟨_, rfl⟩
  obtain ⟨goal, hgoal⟩ : ∃ goal, upOnPath.destination.format = .ok goal := ⟨_, rfl⟩
  have hcombine : (Candidate.combine leafStore.service upOnPath.source upOnPath.destination
      leafTopology.core false).Gives [] [upOnPath] := rfl
  have hpaths : (resolvePaths leafStore.service upOnPath.source upOnPath.destination leafTopology {}
      0).Gives [] [path] :=
    gives_resolvePaths_singleton hcombine hbuild hstart hgoal
  exact ⟨[path], List.cons_ne_nil _ _, hpaths, resolvePaths_ends (by decide) rfl hpaths⟩

def coreTopology : Topology :=
  { isdAs := .plain 1 110, core := true, borderRouters := .ofList [(4, "br4")] }

def coreStore : SegmentStore Unit :=
  SegmentStore.add {} ⟨.plain 1 0, .plain 1 0⟩
    [.plain .core (.plain 1 130 0 1) [.plain 1 120 2 3, .plain 1 110 4 0]]

def coreBeyond : Candidate Unit where
  source := .plain 1 110
  destination := .plain 1 120
  segments := [.plain .core (.plain 1 130 0 1) [.plain 1 120 2 3, .plain 1 110 4 0]]

/-- A path along a core segment goes on beyond the destination. -/
theorem resolvePaths_overshoots :
    ∃ path, (resolvePaths coreStore.service coreBeyond.source coreBeyond.destination coreTopology {}
        0).outcome.result = .ok [path] ∧
      path.interfaces.getLast?.map (·.isdAs) = some (.plain 1 130) ∧
      IsdAs.plain 1 130 ≠ coreBeyond.destination := by
  obtain ⟨path, hbuild, hlast⟩ :
      ∃ path, (coreBeyond.build coreTopology 0).result = .ok (some path) ∧
        path.interfaces.getLast?.map (·.isdAs) = some (.plain 1 130) := ⟨_, rfl, rfl⟩
  obtain ⟨start, hstart⟩ : ∃ start, coreBeyond.source.format = .ok start := ⟨_, rfl⟩
  obtain ⟨goal, hgoal⟩ : ∃ goal, coreBeyond.destination.format = .ok goal := ⟨_, rfl⟩
  have hcombine : (Candidate.combine coreStore.service coreBeyond.source coreBeyond.destination
      coreTopology.core false).Gives [] [coreBeyond] := rfl
  exact ⟨path, gives_resolvePaths_singleton hcombine hbuild hstart hgoal,
    hlast, by decide⟩

end PathAssembly

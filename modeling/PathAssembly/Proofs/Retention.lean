import PathAssembly.Proofs.Lookup.Answers
import PathAssembly.Proofs.Resolution
import PathAssembly.Proofs.Sorting

/-!
# What a request retains

A request gives up a path only for one that crosses the same links and lasts as long. What it
retains is sorted by the number of interfaces, and where this number does not decide, by the first
candidate that crosses the links of a path. The replacement of a path by one that lasts longer does
not change its place, and sorting does not exchange paths of the same length.
-/

namespace PathAssembly

variable {μ : Type}

namespace Candidate

/-- Whether a candidate gives a path that crosses some links. -/
def crosses (topology : Topology) (now : Int) (links : List Crossing) (c : Candidate μ) : Bool :=
  (c.offer? topology now).any (·.1 == links)

/-- The place of the first candidate that crosses some links. -/
def discovery (topology : Topology) (now : Int) (candidates : List (Candidate μ))
    (links : List Crossing) : Nat :=
  candidates.findIdx (crosses topology now links)

/-- Links that are offered sooner are discovered sooner. -/
theorem discovery_lt {topology : Topology} {now : Int} {candidates : List (Candidate μ)}
    {links links' : List Crossing}
    (h : Ledger.firstOffer (candidates.filterMap (offer? topology now)) links
      < Ledger.firstOffer (candidates.filterMap (offer? topology now)) links') :
    discovery topology now candidates links < discovery topology now candidates links' := by
  induction candidates with
  | nil => exact absurd h (Nat.lt_irrefl 0)
  | cons c rest ih =>
      rw [discovery, discovery, List.findIdx_cons, List.findIdx_cons, crosses, crosses]
      cases hoffer : c.offer? topology now with
      | none =>
          rw [List.filterMap_cons_none hoffer] at h
          exact Nat.succ_lt_succ (ih h)
      | some offer =>
          rw [List.filterMap_cons_some hoffer, Ledger.firstOffer, Ledger.firstOffer, List.map_cons,
            List.idxOf_cons, List.idxOf_cons] at h
          rw [Option.any_some, Option.any_some]
          cases hlater : offer.1 == links' with
          | true =>
              rw [hlater] at h
              exact absurd h (Nat.not_lt_zero _)
          | false =>
              rw [hlater] at h
              cases hsooner : offer.1 == links with
              | true => exact Nat.succ_pos _
              | false =>
                  rw [hsooner] at h
                  exact Nat.succ_lt_succ (ih (Nat.lt_of_succ_lt_succ h))

end Candidate

/-- What the paths of a request owe to its candidates. -/
structure Retains (topology : Topology) (now : Int) (candidates : List (Candidate μ))
    (paths : List (BuiltPath Unit)) : Prop where
  built : ∀ p ∈ paths, ∃ c ∈ candidates, (c.build topology now).result = .ok (some p)
  readable : ∀ p ∈ paths, ∃ links, interfacePairs p.raw = .ok links
  outlasts : ∀ c ∈ candidates, ∀ q, (c.build topology now).result = .ok (some q) →
    ∃ p ∈ paths, interfacePairs p.raw = interfacePairs q.raw ∧ q.expiration ≤ p.expiration
  apart : paths.Pairwise fun p q => interfacePairs p.raw ≠ interfacePairs q.raw
  shortestFirst : paths.Pairwise fun p q => p.interfaces.length ≤ q.interfaces.length
  inOrder : paths.Pairwise fun p q => p.interfaces.length = q.interfaces.length →
    ∀ links links', interfacePairs p.raw = .ok links → interfacePairs q.raw = .ok links' →
      Candidate.discovery topology now candidates links
        < Candidate.discovery topology now candidates links'

namespace Candidate

variable {topology : Topology} {now : Int} {candidates : List (Candidate μ)}

theorem interfacePairs_of_mem_entries {entry : List Crossing × BuiltPath Unit}
    (h : entry ∈ (ledger topology now candidates).entries) :
    interfacePairs entry.2.raw = .ok entry.1 :=
  (of_get?_ledger (OrderedMap.get?_eq_some_iff.2 h)).1

theorem pairwise_discovery (topology : Topology) (now : Int) (candidates : List (Candidate μ)) :
    (ledger topology now candidates).values.Pairwise fun p q =>
      ∀ links links', interfacePairs p.raw = .ok links → interfacePairs q.raw = .ok links' →
        discovery topology now candidates links < discovery topology now candidates links' := by
  have horder := (Ledger.keeps_recordAll (candidates.filterMap (offer? topology now))).inOrder
  refine List.pairwise_map.2 ((List.pairwise_map.1 horder).imp_of_mem ?_)
  intro entry entry' hentry hentry' hlt links links' hlinks hlinks'
  rw [interfacePairs_of_mem_entries hentry] at hlinks
  rw [interfacePairs_of_mem_entries hentry'] at hlinks'
  cases hlinks
  cases hlinks'
  exact discovery_lt hlt

theorem pairwise_interfacePairs (topology : Topology) (now : Int)
    (candidates : List (Candidate μ)) :
    (ledger topology now candidates).values.Pairwise fun p q =>
      interfacePairs p.raw ≠ interfacePairs q.raw := by
  have hnodup := (ledger topology now candidates).keys_nodup
  refine List.pairwise_map.2 ((List.pairwise_map.1 hnodup).imp_of_mem ?_)
  intro entry entry' hentry hentry' hne hsame
  rw [interfacePairs_of_mem_entries hentry, interfacePairs_of_mem_entries hentry'] at hsame
  exact hne (Except.ok.inj hsame)

theorem retains_ledger (topology : Topology) (now : Int) (candidates : List (Candidate μ)) :
    Retains topology now candidates ((ledger topology now candidates).values.mergeSort
      fun p q => p.interfaces.length ≤ q.interfaces.length) where
  built := by
    intro p hp
    obtain ⟨links, hget⟩ := OrderedMap.mem_values_iff.1 (List.mem_mergeSort.1 hp)
    exact (of_get?_ledger hget).2
  readable := by
    intro p hp
    obtain ⟨links, hget⟩ := OrderedMap.mem_values_iff.1 (List.mem_mergeSort.1 hp)
    exact ⟨links, (of_get?_ledger hget).1⟩
  outlasts := by
    intro c hc q hbuild
    obtain ⟨links, hlinks⟩ := exists_interfacePairs_of_build hbuild
    obtain ⟨p, hget, hle⟩ := exists_get?_ledger hc hbuild hlinks
    refine ⟨p, List.mem_mergeSort.2 (OrderedMap.mem_values_iff.2 ⟨links, hget⟩), ?_, hle⟩
    rw [(of_get?_ledger hget).1, hlinks]
  apart := ((List.mergeSort_perm _ _).pairwise_iff Ne.symm).2
    (pairwise_interfacePairs topology now candidates)
  shortestFirst := Sorting.pairwise_mergeSort (fun p : BuiltPath Unit => p.interfaces.length) _
  inOrder := Sorting.pairwise_of_eq (fun p : BuiltPath Unit => p.interfaces.length)
    (pairwise_discovery topology now candidates)

end Candidate

/-- A request loses nothing but duplicates. -/
theorem resolvePaths_retains {service : Service μ} {source destination : IsdAs}
    {topology : Topology} {settings : Settings} {now : Int} {paths : List (BuiltPath Unit)}
    (h : (resolvePaths service source destination topology settings now).outcome.result
      = .ok paths) :
    ∃ candidates, (Candidate.combine service source destination topology.core
        settings.minimizeRequests).outcome.result = .ok candidates ∧
      Retains topology now candidates paths := by
  obtain ⟨_, _, candidates, hcandidates, _, rfl⟩ := gives_resolvePaths_iff.1 h
  exact ⟨candidates, hcandidates, Candidate.retains_ledger topology now candidates⟩

section Steady

variable {service : Service μ} {source destination : IsdAs} {topology : Topology}
  {settings : Settings} {now : Int} {asked : List Query}

/-- A request to a steady service is answered from the candidates of its answers. -/
theorem gives_resolvePaths_iff_of_steady (hsteady : service.Steady)
    {paths : List (BuiltPath Unit)} :
    (resolvePaths service source destination topology settings now).Gives asked paths ↔
      source.InRange ∧ destination.InRange ∧
      (∀ c ∈ (service.answers source destination).candidates source destination topology.core
          settings.minimizeRequests, ∃ built, (c.build topology now).result = .ok built) ∧
      paths = (Candidate.ledger topology now ((service.answers source destination).candidates
          source destination topology.core settings.minimizeRequests)).values.mergeSort
        fun p q => p.interfaces.length ≤ q.interfaces.length := by
  rw [gives_resolvePaths_iff, IsdAs.exists_format_iff, IsdAs.exists_format_iff]
  refine and_congr_right fun hsource => and_congr_right fun hdestination => ?_
  have hgives : (Candidate.combine service source destination topology.core
      settings.minimizeRequests).Gives asked _ :=
    Candidate.gives_combine hsteady hsource hdestination topology.core settings.minimizeRequests
  constructor
  · rintro ⟨candidates, hcandidates, h⟩
    cases Except.ok.inj (hgives.symm.trans hcandidates)
    exact h
  · intro h
    exact ⟨_, hgives, h⟩

theorem exists_resolvePaths_iff (hsteady : service.Steady) :
    (∃ paths, (resolvePaths service source destination topology settings now).outcome.result
        = .ok paths) ↔
      source.InRange ∧ destination.InRange ∧
      ∀ c ∈ (service.answers source destination).candidates source destination topology.core
          settings.minimizeRequests, ∃ built, (c.build topology now).result = .ok built := by
  constructor
  · rintro ⟨paths, h⟩
    obtain ⟨hsource, hdestination, hbuilds, _⟩ := (gives_resolvePaths_iff_of_steady hsteady).1 h
    exact ⟨hsource, hdestination, hbuilds⟩
  · rintro ⟨hsource, hdestination, hbuilds⟩
    exact ⟨_, (gives_resolvePaths_iff_of_steady hsteady).2 ⟨hsource, hdestination, hbuilds, rfl⟩⟩

theorem retains_of_steady (hsteady : service.Steady) {paths : List (BuiltPath Unit)}
    (h : (resolvePaths service source destination topology settings now).outcome.result
      = .ok paths) :
    Retains topology now ((service.answers source destination).candidates source destination
      topology.core settings.minimizeRequests) paths := by
  obtain ⟨_, _, _, rfl⟩ := (gives_resolvePaths_iff_of_steady hsteady).1 h
  exact Candidate.retains_ledger topology now _

end Steady

/-- A way up to the AS in front of a leaf AS, with the time of its creation and the interface by
which that AS is left. -/
def upFrom (timestamp : UInt32) (egress : UInt16) : PathSegment Unit :=
  { PathSegment.plain .up (.plain 1 110 0 1) [.plain 1 111 2 egress, .plain 1 112 4 0] with
    info := ⟨0, timestamp, true⟩ }

/-- Two links to the AS in front of a leaf AS, of which one was announced twice. -/
def twoLinkStore : SegmentStore Unit :=
  SegmentStore.add {} ⟨.plain 1 112, .plain 1 0⟩ [upFrom 0 3, upFrom 0 5, upFrom 60 3]

theorem resolvePaths_retains_twoLinks :
    ∃ paths, paths.length = 2 ∧
      (resolvePaths twoLinkStore.service (.plain 1 112) (.plain 1 111) leafTopology {}
        0).outcome.result = .ok paths ∧
      ∃ candidates, (Candidate.combine twoLinkStore.service (.plain 1 112) (.plain 1 111)
          leafTopology.core false).outcome.result = .ok candidates ∧
        Retains leafTopology 0 candidates paths := by
  obtain ⟨candidates, hcombine, hcandidates⟩ : ∃ candidates,
      (Candidate.combine twoLinkStore.service (.plain 1 112) (.plain 1 111) leafTopology.core
        false).Gives [] candidates ∧
      candidates = [upFrom 0 3, upFrom 0 5, upFrom 60 3].map
        fun s => ⟨.plain 1 112, .plain 1 111, [s]⟩ := ⟨_, rfl, rfl⟩
  have hbuilds : ∀ c ∈ candidates, ∃ built, (c.build leafTopology 0).result = .ok built := by
    rw [hcandidates]
    simp only [List.map_cons, List.map_nil, List.forall_mem_cons]
    exact ⟨⟨_, rfl⟩, ⟨_, rfl⟩, ⟨_, rfl⟩, fun _ h => absurd h List.not_mem_nil⟩
  have hpaths := gives_resolvePaths_iff.2
    ⟨⟨_, rfl⟩, ⟨_, rfl⟩, candidates, hcombine, hbuilds, rfl⟩
  refine ⟨_, ?_, hpaths, resolvePaths_retains hpaths⟩
  rw [List.length_mergeSort, hcandidates]
  rfl

end PathAssembly

import PathAssembly.Proofs.Lookup.Protocol
import PathAssembly.Proofs.Path.Crossing
import PathAssembly.Proofs.Path.Distinct
import PathAssembly.Resolver

/-!
# The paths of candidates

A request is answered from the ledger of its candidates: each candidate that gives a path offers it
under the links that it crosses, and the paths of the ledger are sorted by the number of their
interfaces. There is an answer exactly if the lookup ends with candidates of which none is refused,
and both ends have a notation.
-/

namespace PathAssembly

variable {μ : Type}

namespace Candidate

/-- The path that a candidate gives, if it gives one, with the links that it crosses. -/
def offer? (topology : Topology) (now : Int) (c : Candidate μ) :
    Option (List Crossing × BuiltPath Unit) :=
  match (c.build topology now).result with
  | .ok (some path) =>
    match interfacePairs path.raw with
    | .ok links => some (links, path)
    | .error _ => none
  | _ => none

def ledger (topology : Topology) (now : Int) (candidates : List (Candidate μ)) : Ledger Unit :=
  .recordAll .empty (candidates.filterMap (offer? topology now))

variable {topology : Topology} {now : Int} {c : Candidate μ} {path : BuiltPath Unit}

theorem exists_interfacePairs_of_build (h : (c.build topology now).result = .ok (some path)) :
    ∃ links, interfacePairs path.raw = .ok links := ⟨_, interfacePairs_of_build h⟩

theorem offer?_eq_some_iff {links : List Crossing} :
    c.offer? topology now = some (links, path) ↔
      (c.build topology now).result = .ok (some path) ∧ interfacePairs path.raw = .ok links := by
  constructor
  · intro h
    rw [offer?] at h
    split at h
    next given hgiven =>
      split at h
      next crossed hcrossed =>
        cases h
        exact ⟨hgiven, hcrossed⟩
      next => cases h
    next => cases h
  · rintro ⟨hbuild, hlinks⟩
    simp only [offer?, hbuild, hlinks]

theorem offer?_eq_none (h : (c.build topology now).result = .ok none) :
    c.offer? topology now = none := by
  rw [offer?, h]

variable {candidates : List (Candidate μ)} {links : List Crossing}

/-- A path in the ledger comes from a candidate and crosses the links it stands under. -/
theorem of_get?_ledger (h : (ledger topology now candidates).get? links = some path) :
    interfacePairs path.raw = .ok links ∧
      ∃ c ∈ candidates, (c.build topology now).result = .ok (some path) := by
  have hmem := ((Ledger.keeps_recordAll _).best h).mem
  obtain ⟨c, hc, hoffer⟩ := List.mem_filterMap.1 hmem
  obtain ⟨hbuild, hlinks⟩ := offer?_eq_some_iff.1 hoffer
  exact ⟨hlinks, c, hc, hbuild⟩

/-- Under the links that a candidate crosses stands a path that lasts as long. -/
theorem exists_get?_ledger (hc : c ∈ candidates)
    (hbuild : (c.build topology now).result = .ok (some path))
    (hlinks : interfacePairs path.raw = .ok links) :
    ∃ kept, (ledger topology now candidates).get? links = some kept ∧
      path.expiration ≤ kept.expiration := by
  have hkeeps := Ledger.keeps_recordAll (candidates.filterMap (offer? topology now))
  have hoffer : (links, path) ∈ candidates.filterMap (offer? topology now) :=
    List.mem_filterMap.2 ⟨c, hc, offer?_eq_some_iff.2 ⟨hbuild, hlinks⟩⟩
  cases hget : (ledger topology now candidates).get? links with
  | none => exact absurd (List.mem_map_of_mem hoffer) (hkeeps.complete hget)
  | some kept => exact ⟨kept, rfl, (hkeeps.best hget).expiration_le hoffer⟩

end Candidate

namespace Resolution

variable {topology : Topology} {now : Int} {r : Resolution} {m : Ledger Unit} {c : Candidate μ}
  {candidates : List (Candidate μ)}

theorem exists_build_of_addCandidate {next : Resolution}
    (h : (addCandidate topology now r c).result = .ok next) :
    ∃ built, (c.build topology now).result = .ok built := by
  rw [addCandidate, Logged.result_bind] at h
  obtain ⟨built, hbuilt, _⟩ := Outcome.bind_eq_ok_iff.1 h
  exact ⟨built, hbuilt⟩

theorem exists_build_of_foldlM {final : Resolution}
    (h : (candidates.foldlM (addCandidate topology now) r).result = .ok final) :
    ∀ c ∈ candidates, ∃ built, (c.build topology now).result = .ok built := by
  induction candidates generalizing r with
  | nil => exact fun c hc => absurd hc List.not_mem_nil
  | cons c rest ih =>
      rw [List.foldlM_cons, Logged.result_bind] at h
      obtain ⟨next, hnext, h⟩ := Outcome.bind_eq_ok_iff.1 h
      exact List.forall_mem_cons.2 ⟨exists_build_of_addCandidate hnext, ih h⟩

/-- A candidate that is not refused offers its path to the ledger. -/
theorem exists_addCandidate (hrepresents : r.distinct.Represents hash m)
    {built : Option (BuiltPath Unit)} (h : (c.build topology now).result = .ok built) :
    ∃ next, (addCandidate topology now r c).result = .ok next ∧
      next.distinct.Represents hash (m.recordAll (c.offer? topology now).toList) := by
  rw [addCandidate, Logged.result_bind, h, Outcome.ok_bind]
  cases built with
  | none =>
      rw [Candidate.offer?_eq_none h]
      exact ⟨_, rfl, hrepresents⟩
  | some path =>
      obtain ⟨links, hlinks⟩ := Candidate.exists_interfacePairs_of_build h
      rw [Candidate.offer?_eq_some_iff.2 ⟨h, hlinks⟩, Logged.result_bind,
        DistinctPaths.result_addLogged hlinks]
      exact ⟨_, rfl, hrepresents.addCrossing links path⟩

theorem exists_foldlM (hrepresents : r.distinct.Represents hash m)
    (h : ∀ c ∈ candidates, ∃ built, (c.build topology now).result = .ok built) :
    ∃ final, (candidates.foldlM (addCandidate topology now) r).result = .ok final ∧
      final.distinct.Represents hash
        (m.recordAll (candidates.filterMap (Candidate.offer? topology now))) := by
  induction candidates generalizing r m with
  | nil => exact ⟨r, rfl, hrepresents⟩
  | cons c rest ih =>
      obtain ⟨⟨built, hbuilt⟩, hrest⟩ := List.forall_mem_cons.1 h
      obtain ⟨next, hnext, hrepresents⟩ := exists_addCandidate hrepresents hbuilt
      obtain ⟨final, hfinal, hrepresents⟩ := ih hrepresents hrest
      refine ⟨final, ?_, ?_⟩
      · rw [List.foldlM_cons, Logged.result_bind, hnext, Outcome.ok_bind, hfinal]
      · cases hoffer : c.offer? topology now with
        | none =>
            rw [hoffer] at hrepresents
            rw [List.filterMap_cons_none hoffer]
            exact hrepresents
        | some offer =>
            rw [hoffer] at hrepresents
            rw [List.filterMap_cons_some hoffer]
            exact hrepresents

theorem exists_paths (h : ∀ c ∈ candidates, ∃ built, (c.build topology now).result = .ok built) :
    ∃ final, (ofCandidates topology now candidates).result = .ok final ∧
      final.paths = (Candidate.ledger topology now candidates).values.mergeSort
        fun p q => p.interfaces.length ≤ q.interfaces.length := by
  obtain ⟨final, hfinal, hrepresents⟩ := exists_foldlM (r := {})
    (DistinctPaths.represents_empty hash) h
  refine ⟨final, hfinal, ?_⟩
  rw [paths, hrepresents.paths_eq]
  rfl

end Resolution

theorem gives_resolvePaths_iff {service : Service μ} {source destination : IsdAs}
    {topology : Topology} {settings : Settings} {now : Int} {asked : List Query}
    {paths : List (BuiltPath Unit)} :
    (resolvePaths service source destination topology settings now).Gives asked paths ↔
      (∃ start, source.format = .ok start) ∧ (∃ goal, destination.format = .ok goal) ∧
      ∃ candidates, (Candidate.combine service source destination topology.core
          settings.minimizeRequests).Gives asked candidates ∧
        (∀ c ∈ candidates, ∃ built, (c.build topology now).result = .ok built) ∧
        paths = (Candidate.ledger topology now candidates).values.mergeSort
          fun p q => p.interfaces.length ≤ q.interfaces.length := by
  unfold resolvePaths
  constructor
  · intro h
    obtain ⟨candidates, hcandidates, h⟩ := Inquiry.gives_bind_iff.1 h
    obtain ⟨resolution, hresolution, h⟩ := Inquiry.gives_bind_iff.1 h
    obtain ⟨start, hstart, h⟩ := Inquiry.gives_bind_iff.1 h
    obtain ⟨goal, hgoal, h⟩ := Inquiry.gives_bind_iff.1 h
    obtain ⟨_, _, h⟩ := Inquiry.gives_bind_iff.1 h
    rw [Inquiry.gives_pure_iff] at h
    have hbuilds := Resolution.exists_build_of_foldlM hresolution
    obtain ⟨final, hfinal, hpaths⟩ := Resolution.exists_paths hbuilds
    cases hresolution.symm.trans hfinal
    exact ⟨⟨start, hstart⟩, ⟨goal, hgoal⟩, candidates, hcandidates, hbuilds, h.symm.trans hpaths⟩
  · rintro ⟨⟨start, hstart⟩, ⟨goal, hgoal⟩, candidates, hcandidates, hbuilds, rfl⟩
    obtain ⟨final, hfinal, hpaths⟩ := Resolution.exists_paths hbuilds
    refine Inquiry.gives_bind_iff.2 ⟨candidates, hcandidates, Inquiry.gives_bind_iff.2
      ⟨final, hfinal, Inquiry.gives_bind_iff.2 ⟨start, hstart, Inquiry.gives_bind_iff.2
        ⟨goal, hgoal, Inquiry.gives_bind_iff.2 ⟨(), rfl, ?_⟩⟩⟩⟩⟩
    exact Inquiry.gives_pure_iff.2 hpaths

end PathAssembly

import PathAssembly.Proofs.Lookup.Protocol
import PathAssembly.Proofs.Path.Interface

/-!
# Attachment of joined segments

A candidate of two or three segments takes them from different sets, in the order up, core, down.
The join looks at the two ends of each segment only, and the orientation chooses directions from the
source on without looking at the join; both agree, since the other end of the other end of a segment
is the end at which one started. The segments therefore attach to each other and reach the
destination, and a path along them ends there however it is truncated.
-/

namespace PathAssembly

variable {μ : Type}

namespace Candidate

/-- The segments of a candidate come from different sets, in order, and reach from the source to the
destination from end to end. -/
structure Attaches (up core down : List (PathSegment μ)) (source destination : IsdAs)
    (c : Candidate μ) : Prop where
  source_eq : c.source = source
  destination_eq : c.destination = destination
  taken : ∃ sets, sets.Sublist [up, core, down] ∧ List.Forall₂ (· ∈ ·) c.segments sets
  farEnd_eq : PathSegment.farEnd source c.segments = some destination

variable {up core down first second : List (PathSegment μ)} {source destination : IsdAs}
  {c : Candidate μ}

theorem attaches_of_mem_joinTwo (hsets : [first, second].Sublist [up, core, down])
    (h : c ∈ joinTwo first second source destination) :
    Attaches up core down source destination c := by
  obtain ⟨s, hs, t, ht, middle, hmiddle, hother, rfl⟩ := mem_joinTwo_iff.1 h
  exact
    { source_eq := rfl
      destination_eq := rfl
      taken := ⟨[first, second], hsets, .cons hs (.cons ht .nil)⟩
      farEnd_eq := farEnd_pair hmiddle hother }

theorem attaches_of_mem_joinThree (h : c ∈ joinThree up core down source destination) :
    Attaches up core down source destination c := by
  obtain ⟨u, hu, m, hm, d, hd, hjoined, rfl⟩ := mem_joinThree_iff.1 h
  exact
    { source_eq := rfl
      destination_eq := rfl
      taken := ⟨[up, core, down], List.Sublist.refl _, .cons hu (.cons hm (.cons hd .nil))⟩
      farEnd_eq := farEnd_of_joined hjoined }

theorem not_mem_single (hlength : 2 ≤ c.segments.length) {segments : List (PathSegment μ)} :
    c ∉ single segments source destination := by
  intro h
  rw [length_of_mem_single h] at hlength
  exact absurd hlength (by decide)

/-- Candidates of more than one segment are joined. -/
theorem attaches_of_mem_ofSets (hlength : 2 ≤ c.segments.length)
    (h : c ∈ ofSets up core down source destination) :
    Attaches up core down source destination c := by
  unfold ofSets at h
  split at h
  · rcases List.mem_append.1 h with hmem | hmem
    · exact attaches_of_mem_joinThree hmem
    · split_ifs at hmem
      · exact attaches_of_mem_joinTwo (.cons_cons up (.cons core (.refl [down]))) hmem
      · cases hmem
  · rcases List.mem_append.1 h with hmem | hmem
    · exact attaches_of_mem_joinTwo (.cons_cons up (.cons_cons core (List.nil_sublist [down]))) hmem
    · exact absurd hmem (not_mem_single hlength)
  · exact attaches_of_mem_joinTwo (.cons_cons up (.cons core (.refl [down]))) h
  · rcases List.mem_append.1 h with hmem | hmem
    · exact attaches_of_mem_joinTwo (.cons up (.refl [core, down])) hmem
    · exact absurd hmem (not_mem_single hlength)
  · exact absurd h (not_mem_single hlength)
  · exact absurd h (not_mem_single hlength)
  · exact absurd h (not_mem_single hlength)
  · cases h

/-- Attached segments are oriented from the source on, and are a chain to the destination. -/
theorem Attaches.exists_orient (h : Attaches up core down source destination c) :
    ∃ ranges, PathSegment.orient source c.segments = some ranges ∧
      List.Forall₂ PathSegment.Whole c.segments ranges ∧
      Leads source (c.segments.zip ranges) destination := by
  obtain ⟨ranges, hranges⟩ := PathSegment.exists_orientFrom h.farEnd_eq 0
  obtain ⟨stop, hstop, hleads⟩ := PathSegment.leads_orientFrom hranges
  rw [← Option.some.inj (h.farEnd_eq.symm.trans hstop)] at hleads
  exact ⟨ranges, hranges, PathSegment.forall₂_whole_orientFrom hranges, hleads⟩

/-- Every candidate of several segments attaches: its segments come from different sets in order,
they are oriented as a chain of whole segments from the source to the destination, and a path along
them ends in the destination. -/
theorem combineSets_attaches (up core down : List (PathSegment μ)) (source destination : IsdAs) :
    ∃ candidates, (combineSets up core down source destination).result = .ok candidates ∧
      ∀ c ∈ candidates, 2 ≤ c.segments.length →
        (∃ sets, sets.Sublist [up, core, down] ∧ List.Forall₂ (· ∈ ·) c.segments sets) ∧
        (∃ ranges, PathSegment.orient source c.segments = some ranges ∧
          List.Forall₂ PathSegment.Whole c.segments ranges ∧
          Leads source (c.segments.zip ranges) destination) ∧
        ∀ (topology : Topology) (now : Int) (path : BuiltPath Unit), source ≠ destination →
          topology.isdAs = source → (c.build topology now).result = .ok (some path) →
            path.interfaces ≠ [] ∧ path.interfaces.getLast?.map (·.isdAs) = some destination := by
  refine ⟨ofSets up core down source destination, rfl, ?_⟩
  intro c hc hlength
  have hattaches := attaches_of_mem_ofSets hlength hc
  refine ⟨hattaches.taken, hattaches.exists_orient, ?_⟩
  intro topology now path hne hlocal hbuild
  obtain rfl := hattaches.source_eq
  obtain rfl := hattaches.destination_eq
  obtain ⟨hinterfaces, _, hlast⟩ := ends_of_farEnd hattaches.farEnd_eq hne hlocal hbuild
  exact ⟨hinterfaces, hlast⟩

def lowerTopology : Topology :=
  { isdAs := lowerSource, borderRouters := .ofList [(4, "br4")] }

/-- A candidate whose core segment is traversed against its direction. -/
def acrossCore : Candidate Unit where
  source := lowerSource
  destination := lowerDestination
  segments := [endToSource, originToEnd, originToDestination]

theorem combineSets_attaches_acrossCore :
    ∃ candidates, (combineSets [endToSource] [originToEnd] [originToDestination] lowerSource
        lowerDestination).result = .ok candidates ∧
      acrossCore ∈ candidates ∧ 2 ≤ acrossCore.segments.length ∧
      (∃ sets, sets.Sublist [[endToSource], [originToEnd], [originToDestination]] ∧
        List.Forall₂ (· ∈ ·) acrossCore.segments sets) ∧
      (∃ ranges, PathSegment.orient lowerSource acrossCore.segments = some ranges ∧
        List.Forall₂ PathSegment.Whole acrossCore.segments ranges ∧
        Leads lowerSource (acrossCore.segments.zip ranges) lowerDestination) ∧
      ∃ path, (acrossCore.build lowerTopology 0).result = .ok (some path) ∧
        path.interfaces ≠ [] ∧
        path.interfaces.getLast?.map (·.isdAs) = some lowerDestination := by
  obtain ⟨candidates, hcandidates, hattaches⟩ :=
    combineSets_attaches [endToSource] [originToEnd] [originToDestination] lowerSource
      lowerDestination
  have hmem : acrossCore ∈ candidates := by
    rw [← Except.ok.inj hcandidates]
    decide +kernel
  obtain ⟨htaken, horiented, hends⟩ := hattaches acrossCore hmem (by decide)
  obtain ⟨path, hpath⟩ :
      ∃ path, (acrossCore.build lowerTopology 0).result = .ok (some path) := ⟨_, rfl⟩
  exact ⟨candidates, hcandidates, hmem, by decide, htaken, horiented, path, hpath,
    hends lowerTopology 0 path (by decide) rfl hpath⟩

end Candidate

end PathAssembly

import PathAssembly.Lookup.Protocol
import PathAssembly.Proofs.Lookup.Join
import PathAssembly.Proofs.Outcome
import PathAssembly.Proofs.Path.Orientation

/-!
# Where candidates lead

An inquiry that composes others succeeds when they do, each asking behind the queries of those
before it. Candidates of two or three segments are joined end to end, so that they lead from the
source to the destination; a candidate of one segment only has both on it. Single core segments are
proposed in a core AS alone, which uses those that end at it.
-/

namespace PathAssembly

variable {μ : Type}

namespace Inquiry

variable {α β : Type}

/-- The value of an inquiry behind some queries. -/
def Gives (x : Inquiry α) (asked : List Query) (a : α) : Prop := (x asked).2.result = .ok a

theorem gives_pure_iff {a b : α} {asked : List Query} :
    Gives (pure a) asked b ↔ a = b := by
  constructor
  · intro h
    exact Except.ok.inj h
  · rintro rfl
    rfl

theorem gives_bind_iff {x : Inquiry α} {f : α → Inquiry β} {asked : List Query} {b : β} :
    Gives (x >>= f) asked b ↔ ∃ a, Gives x asked a ∧ Gives (f a) (x asked).1 b := by
  change (bind x f asked).2.result = .ok b ↔ _
  unfold Gives bind
  rcases x asked with ⟨queries, notes, result⟩
  cases result with
  | error fault =>
      constructor
      · intro h
        cases h
      · rintro ⟨a, ha, _⟩
        cases ha
  | ok a =>
      constructor
      · intro h
        exact ⟨a, rfl, h⟩
      · rintro ⟨a', ha, h⟩
        cases ha
        exact h

theorem type_of_gives_fetchAs {service : Service μ} {role : SegmentType}
    {source destination : IsdAs} {asked : List Query} {segments : List (PathSegment μ)}
    (h : Gives (fetchAs service role source destination) asked segments) :
    ∀ s ∈ segments, s.type = role := by
  obtain ⟨found, _, h⟩ := gives_bind_iff.1 h
  rw [gives_pure_iff] at h
  intro s hs
  rw [← h] at hs
  obtain ⟨t, _, rfl⟩ := List.mem_map.1 hs
  rfl

end Inquiry

namespace Candidate

/-- Segments that are joined to each other: two of them, of which the first one does not reach the
destination if it is a core segment, or one up, one between and one down. -/
inductive Stages (destination : IsdAs) : List (PathSegment μ) → Prop
  | two {s t : PathSegment μ} (hcore : s.isCore = true → s.hasEnd destination = false) :
      Stages destination [s, t]
  | three {u c d : PathSegment μ} (hup : u.isCore = false) (hdown : d.isCore = false) :
      Stages destination [u, c, d]

/-- A candidate between two ASes whose segments join them end to end, or whose one segment has both
of them on it. -/
inductive Proposes (source destination : IsdAs) (localIsCore : Bool) : Candidate μ → Prop
  | joined {segments : List (PathSegment μ)} (hstages : Stages destination segments)
      (hfar : PathSegment.farEnd source segments = some destination) :
      Proposes source destination localIsCore { source, destination, segments }
  | onPath {s : PathSegment μ} (hcore : s.isCore = false) (hsource : s.contains source = true)
      (hdestination : s.contains destination = true) :
      Proposes source destination localIsCore { source, destination, segments := [s] }
  | onCore {s : PathSegment μ} (hcore : s.isCore = true) (hlocal : localIsCore = true)
      (hlast : s.last = source) (hdestination : s.contains destination = true) :
      Proposes source destination localIsCore { source, destination, segments := [s] }

theorem farEnd_pair {source destination middle : IsdAs} {s t : PathSegment μ}
    (hs : s.otherEnd source = some middle) (ht : t.otherEnd destination = some middle) :
    PathSegment.farEnd source [s, t] = some destination := by
  rw [PathSegment.farEnd, hs, Option.bind_some, PathSegment.farEnd,
    PathSegment.otherEnd_symm ht]
  rfl

theorem farEnd_of_joined {up down : List (PathSegment μ)} {source destination : IsdAs}
    {u c d : PathSegment μ} (h : Joined up down source destination u c d) :
    PathSegment.farEnd source [u, c, d] = some destination := by
  rcases h with ⟨hu, hd⟩ | ⟨hu, hd, _⟩
  · rw [PathSegment.farEnd, hu, Option.bind_some]
    exact farEnd_pair c.otherEnd_first hd
  · rw [PathSegment.farEnd, hu, Option.bind_some]
    exact farEnd_pair c.otherEnd_last hd

theorem proposes_of_mem_single {segments : List (PathSegment μ)} {source destination : IsdAs}
    {localIsCore : Bool} {candidate : Candidate μ} (hnoncore : ∀ s ∈ segments, s.isCore = false)
    (h : candidate ∈ single segments source destination) :
    Proposes source destination localIsCore candidate := by
  obtain ⟨s, hs, hsource, hdestination, rfl⟩ := mem_single_iff.1 h
  exact .onPath (hnoncore s hs) hsource hdestination

theorem noncore_containing {segments : List (PathSegment μ)} {a : IsdAs}
    (hnoncore : ∀ s ∈ segments, s.isCore = false) :
    ∀ s ∈ containing segments a, s.isCore = false := by
  intro s hs
  exact hnoncore s (List.mem_filter.1 hs).1

/-- The candidates of sets of segments join them end to end, or are single segments of one set; a
core segment is single only without the other sets. -/
theorem proposes_of_mem_ofSets {up core down : List (PathSegment μ)} {source destination : IsdAs}
    {localIsCore : Bool} {candidate : Candidate μ} (hup : ∀ s ∈ up, s.isCore = false)
    (hdown : ∀ s ∈ down, s.isCore = false)
    (hcore : up = [] → ∀ s ∈ core, s.isCore = true ∧ localIsCore = true ∧ s.last = source)
    (hends : down ≠ [] → ∀ s ∈ core, s.hasEnd destination = false)
    (h : candidate ∈ ofSets up core down source destination) :
    Proposes source destination localIsCore candidate := by
  have hjoin : ∀ {first second : List (PathSegment μ)},
      (∀ s ∈ first, s.isCore = true → s.hasEnd destination = false) →
        candidate ∈ joinTwo first second source destination →
          Proposes source destination localIsCore candidate := by
    intro first second hfirst hmem
    obtain ⟨s, hsfirst, t, _, middle, hs, ht, rfl⟩ := mem_joinTwo_iff.1 hmem
    exact .joined (.two (hfirst s hsfirst)) (farEnd_pair hs ht)
  have hfirst : ∀ s ∈ up, s.isCore = true → s.hasEnd destination = false := by
    intro s hs hscore
    rw [hup s hs] at hscore
    cases hscore
  have hthree : candidate ∈ joinThree up core down source destination →
      Proposes source destination localIsCore candidate := by
    intro hmem
    obtain ⟨u, hu, c, _, d, hd, hjoined, rfl⟩ := mem_joinThree_iff.1 hmem
    exact .joined (.three (hup u hu) (hdown d hd)) (farEnd_of_joined hjoined)
  unfold ofSets at h
  split at h
  · rcases List.mem_append.1 h with hmem | hmem
    · exact hthree hmem
    · split_ifs at hmem
      · exact hjoin hfirst hmem
      · cases hmem
  · rcases List.mem_append.1 h with hmem | hmem
    · exact hjoin hfirst hmem
    · exact proposes_of_mem_single (noncore_containing hup) hmem
  · exact hjoin hfirst h
  · rename_i hsome
    rcases List.mem_append.1 h with hmem | hmem
    · have hne : down ≠ [] := fun hnone => Bool.eq_false_iff.1 hsome (List.isEmpty_iff.2 hnone)
      exact hjoin (fun s hs _ => hends hne s hs) hmem
    · exact proposes_of_mem_single (noncore_containing hdown) hmem
  · exact proposes_of_mem_single hup h
  · rename_i hempty _ _
    obtain ⟨s, hs, _, hdestination, rfl⟩ := mem_single_iff.1 h
    obtain ⟨hscore, hlocal, hlast⟩ := hcore (List.isEmpty_iff.1 hempty) s hs
    exact .onCore hscore hlocal hlast hdestination
  · exact proposes_of_mem_single hdown h
  · cases h

theorem isCore_eq_false_of_gives_fetchAs {service : Service μ} {role : SegmentType}
    {source destination : IsdAs} {asked : List Query} {segments : List (PathSegment μ)}
    (hrole : role ≠ .core)
    (h : (Inquiry.fetchAs service role source destination).Gives asked segments) :
    ∀ s ∈ segments, s.isCore = false := by
  intro s hs
  rw [PathSegment.isCore, Inquiry.type_of_gives_fetchAs h s hs]
  exact beq_eq_false_iff_ne.2 hrole

theorem usableCore_spec {localIsCore : Bool} {source : IsdAs} {core : List (PathSegment μ)}
    (hcore : ∀ s ∈ core, s.type = .core) (hlocal : localIsCore = true) :
    ∀ s ∈ usableCore localIsCore source core,
      s.isCore = true ∧ localIsCore = true ∧ s.last = source := by
  intro s hs
  rw [usableCore, if_pos hlocal, List.mem_filter] at hs
  obtain ⟨hmem, hlast⟩ := hs
  refine ⟨?_, hlocal, beq_iff_eq.1 hlast⟩
  rw [PathSegment.isCore, hcore s hmem]
  rfl

/-- The candidates beyond segments up lead to the destination; without segments up the source is a
core AS. -/
theorem proposes_of_gives_combineBeyond {service : Service μ} {source destination : IsdAs}
    {localIsCore : Bool} {up : List (PathSegment μ)} {asked : List Query}
    {candidates : List (Candidate μ)} (hup : ∀ s ∈ up, s.isCore = false)
    (hlocal : up = [] → localIsCore = true)
    (h : (combineBeyond service source destination localIsCore up).Gives asked candidates) :
    ∀ candidate ∈ candidates, Proposes source destination localIsCore candidate := by
  unfold combineBeyond at h
  obtain ⟨core, hcore, h⟩ := Inquiry.gives_bind_iff.1 h
  have husable : up = [] → ∀ s ∈ usableCore localIsCore source core,
      s.isCore = true ∧ localIsCore = true ∧ s.last = source := fun hnone =>
    usableCore_spec (Inquiry.type_of_gives_fetchAs hcore) (hlocal hnone)
  intro candidate hmem
  split_ifs at h with hforeign
  · rw [Inquiry.gives_pure_iff] at h
    rw [← h] at hmem
    cases hmem
  · dsimp only at h
    split_ifs at h
    · have hresult : ofSets up (usableCore localIsCore source core) [] source destination
          = candidates := Except.ok.inj h
      rw [← hresult] at hmem
      refine proposes_of_mem_ofSets hup ?_ husable (fun hne => absurd rfl hne) hmem
      intro s hs
      cases hs
    · rename_i hreached
      obtain ⟨down, hdown, h⟩ := Inquiry.gives_bind_iff.1 h
      have hresult : ofSets up (usableCore localIsCore source core) down source destination
          = candidates := Except.ok.inj h
      rw [← hresult] at hmem
      have hnoncore := isCore_eq_false_of_gives_fetchAs (by decide) hdown
      refine proposes_of_mem_ofSets hup hnoncore husable ?_ hmem
      intro _ s hs
      exact Bool.eq_false_iff.2 fun hend => hreached (List.any_eq_true.2 ⟨s, hs, hend⟩)

theorem proposes_of_gives_combineFromLeaf {service : Service μ} {source destination : IsdAs}
    {minimize : Bool} {asked : List Query} {candidates : List (Candidate μ)}
    (h : (combineFromLeaf service source destination minimize).Gives asked candidates) :
    ∀ candidate ∈ candidates, Proposes source destination false candidate := by
  unfold combineFromLeaf at h
  obtain ⟨up, hup, h⟩ := Inquiry.gives_bind_iff.1 h
  have hnoncore := isCore_eq_false_of_gives_fetchAs (by decide) hup
  intro candidate hmem
  split_ifs at h with hempty
  · rw [Inquiry.gives_pure_iff] at h
    rw [← h] at hmem
    cases hmem
  · have hnone : up = [] → false = true := by
      rintro rfl
      exact absurd rfl hempty
    dsimp only at h
    split_ifs at h
    · obtain ⟨_, _, h⟩ := Inquiry.gives_bind_iff.1 h
      obtain ⟨_, _, h⟩ := Inquiry.gives_bind_iff.1 h
      rw [Inquiry.gives_pure_iff] at h
      rw [← h] at hmem
      exact proposes_of_mem_single (noncore_containing hnoncore) hmem
    · exact proposes_of_gives_combineBeyond hnoncore hnone h candidate hmem

/-- Every candidate between two different ASes leads from one to the other, unless it is a single
core segment that ends at the source. -/
theorem proposes_of_gives_combine {service : Service μ} {source destination : IsdAs}
    {localIsCore minimize : Bool} {asked : List Query} {candidates : List (Candidate μ)}
    (hne : source ≠ destination)
    (h : (combine service source destination localIsCore minimize).Gives asked candidates) :
    ∀ candidate ∈ candidates, Proposes source destination localIsCore candidate := by
  unfold combine at h
  rw [if_neg hne] at h
  split_ifs at h with hlocal
  · rw [hlocal]
    refine proposes_of_gives_combineBeyond ?_ (fun _ => rfl) h
    intro s hs
    cases hs
  · rw [Bool.eq_false_iff.2 hlocal]
    exact proposes_of_gives_combineFromLeaf h

end Candidate

end PathAssembly

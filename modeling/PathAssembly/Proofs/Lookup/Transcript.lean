import PathAssembly.Proofs.Lookup.Answers

/-!
# Transcripts of requests

A service may answer a query by all that it was asked before, and it may fail in the middle of an
answer. A request makes the lookups that its answers call for, whatever they are. Every segment of a
candidate comes from one of these lookups, which gives it its role and leaves the rest of it alone,
and nothing that is asked or found depends on whether a lookup fails or finds nothing.
-/

namespace PathAssembly

variable {μ : Type}

namespace Candidate

variable {up core down first second segments : List (PathSegment μ)} {source destination : IsdAs}
  {c : Candidate μ}

theorem subset_of_mem_joinTwo (h : c ∈ joinTwo first second source destination) :
    ∀ s ∈ c.segments, s ∈ first ∨ s ∈ second := by
  obtain ⟨s, hs, t, ht, _, _, _, rfl⟩ := mem_joinTwo_iff.1 h
  simp [hs, ht]

theorem subset_of_mem_joinThree (h : c ∈ joinThree up core down source destination) :
    ∀ s ∈ c.segments, s ∈ up ∨ s ∈ core ∨ s ∈ down := by
  obtain ⟨u, hu, m, hm, d, hd, _, rfl⟩ := mem_joinThree_iff.1 h
  simp [hu, hm, hd]

theorem subset_of_mem_single (h : c ∈ single segments source destination) :
    ∀ s ∈ c.segments, s ∈ segments := by
  obtain ⟨s, hs, _, _, rfl⟩ := mem_single_iff.1 h
  simp [hs]

theorem subset_of_mem_ofSets (h : c ∈ ofSets up core down source destination) :
    ∀ s ∈ c.segments, s ∈ up ∨ s ∈ core ∨ s ∈ down := by
  intro s hs
  unfold ofSets at h
  split at h
  · rcases List.mem_append.1 h with hmem | hmem
    · exact subset_of_mem_joinThree hmem s hs
    · split_ifs at hmem
      · exact (subset_of_mem_joinTwo hmem s hs).imp_right Or.inr
      · cases hmem
  · rcases List.mem_append.1 h with hmem | hmem
    · exact (subset_of_mem_joinTwo hmem s hs).imp_right Or.inl
    · exact Or.inl (List.mem_filter.1 (subset_of_mem_single hmem s hs)).1
  · exact (subset_of_mem_joinTwo h s hs).imp_right Or.inr
  · rcases List.mem_append.1 h with hmem | hmem
    · exact Or.inr (subset_of_mem_joinTwo hmem s hs)
    · exact Or.inr (Or.inr (List.mem_filter.1 (subset_of_mem_single hmem s hs)).1)
  · exact Or.inl (subset_of_mem_single h s hs)
  · exact Or.inr (Or.inl (subset_of_mem_single h s hs))
  · exact Or.inr (Or.inr (subset_of_mem_single h s hs))
  · cases h

end Candidate

namespace Answers

def ofRole (answers : Answers μ) : SegmentType → List (PathSegment μ)
  | .up => answers.up
  | .core => answers.core
  | .down => answers.down
  | .unspecified => []

variable {answers : Answers μ} {source destination : IsdAs} {localIsCore minimize : Bool}
  {c : Candidate μ}

theorem mem_of_mem_usableCore {core : List (PathSegment μ)} {s : PathSegment μ}
    (h : s ∈ Candidate.usableCore localIsCore source core) : s ∈ core := by
  unfold Candidate.usableCore at h
  split_ifs at h
  · exact (List.mem_filter.1 h).1
  · exact h

/-- Beyond segments up, segments between core ASes are used, and segments down if they are looked
up. -/
theorem subset_of_mem_beyond {up : List (PathSegment μ)}
    (h : c ∈ answers.beyond source destination localIsCore up) :
    ∀ s ∈ c.segments, s ∈ up ∨ s ∈ answers.core ∨
      answers.NeedsDown source destination localIsCore ∧ s ∈ answers.down := by
  intro s hs
  unfold beyond at h
  split_ifs at h with hguard
  · cases h
  · rcases Candidate.subset_of_mem_ofSets h s hs with hup | hcore | hdown
    · exact Or.inl hup
    · exact Or.inr (Or.inl (mem_of_mem_usableCore hcore))
    · unfold downBeyond at hdown
      split_ifs at hdown with hreached
      · cases hdown
      · exact Or.inr (Or.inr ⟨needsDown_iff.2 ⟨hguard, hreached⟩, hdown⟩)

/-- Every segment of a candidate is in the answer to a lookup that is made. -/
theorem exists_lookup_of_mem_candidates
    (h : c ∈ answers.candidates source destination localIsCore minimize) :
    ∀ s ∈ c.segments, ∃ role query,
      (role, query) ∈ answers.lookups source destination localIsCore minimize ∧
        s ∈ answers.ofRole role := by
  intro s hs
  unfold candidates at h
  unfold lookups
  split_ifs at h with hsame hlocal
  · rw [List.mem_singleton.1 h] at hs
    cases hs
  · have hneeded : answers.NeedsCore destination localIsCore minimize := Or.inl hlocal
    rw [if_neg hsame, if_pos hneeded]
    rw [← hlocal] at h
    rcases subset_of_mem_beyond h s hs with hnone | hcore | ⟨hdown, hmem⟩
    · cases hnone
    · exact ⟨.core, _, List.mem_append_right _ List.mem_cons_self, hcore⟩
    · rw [if_pos hdown]
      exact ⟨.down, _, List.mem_append_right _ (List.mem_cons_of_mem _ List.mem_cons_self), hmem⟩
  · rw [if_neg hsame, if_neg hlocal]
    have hfirst : (SegmentType.up, Query.up source) ∈ [(SegmentType.up, Query.up source)] :=
      List.mem_cons_self
    unfold fromLeaf at h
    split_ifs at h with hempty hdirect
    · cases h
    · have hup := (List.mem_filter.1 (Candidate.subset_of_mem_single h s hs)).1
      exact ⟨.up, _, List.mem_append_left _ hfirst, hup⟩
    · have hneeded : answers.NeedsCore destination localIsCore minimize := by
        rw [Bool.eq_false_iff.2 hlocal]
        exact needsCore_iff_of_leaf.2 ⟨hempty, hdirect⟩
      rw [if_pos hneeded]
      rw [← Bool.eq_false_iff.2 hlocal] at h
      rcases subset_of_mem_beyond h s hs with hup | hcore | ⟨hdown, hmem⟩
      · exact ⟨.up, _, List.mem_append_left _ hfirst, hup⟩
      · exact ⟨.core, _, List.mem_append_right _ List.mem_cons_self, hcore⟩
      · rw [if_pos hdown]
        exact ⟨.down, _, List.mem_append_right _ (List.mem_cons_of_mem _ List.mem_cons_self), hmem⟩

/-- Lookups are made in one order, from which those at the end may be missing. -/
theorem lookups_prefix (answers : Answers μ) (source destination : IsdAs)
    (localIsCore minimize : Bool) : answers.lookups source destination localIsCore minimize <+:
      (if localIsCore then [] else [(.up, .up source)])
        ++ [(.core, .core source destination), (.down, .down destination)] := by
  unfold lookups
  split_ifs <;> simp

end Answers

namespace Service

variable {service other : Service μ} {source destination : IsdAs} {localIsCore minimize : Bool}
  {asked : List Query} {answers : Answers μ}

/-- The answer to a lookup is what the service finds behind the lookups before it. -/
theorem ofRole_answersBehind {before after : List (SegmentType × Query)} {role : SegmentType}
    {query : Query} (h : answers.lookups source destination localIsCore minimize
      = before ++ (role, query) :: after) :
    (service.answersBehind asked source destination localIsCore).ofRole role
      = (service (asked ++ before.map Prod.snd) query).found.map (·.withType role) := by
  have hprefix := answers.lookups_prefix source destination localIsCore minimize
  rw [h] at hprefix
  -- The position of a lookup says which one it is: the first is up in a leaf AS, else core.
  cases localIsCore with
  | true =>
      rcases before with _ | ⟨x, _ | ⟨y, _ | ⟨z, rest⟩⟩⟩
      · obtain ⟨⟨rfl, rfl⟩, -⟩ := by simpa using hprefix
        simp [answersBehind, Answers.ofRole, Query.beforeCore]
      · obtain ⟨rfl, ⟨rfl, rfl⟩, -⟩ := by simpa using hprefix
        simp [answersBehind, Answers.ofRole, Query.beforeCore]
      · simp at hprefix
      · simp at hprefix
  | false =>
      rcases before with _ | ⟨x, _ | ⟨y, _ | ⟨z, rest⟩⟩⟩
      · obtain ⟨⟨rfl, rfl⟩, -⟩ := by simpa using hprefix
        simp [answersBehind, Answers.ofRole, Query.beforeCore]
      · obtain ⟨rfl, ⟨rfl, rfl⟩, -⟩ := by simpa using hprefix
        simp [answersBehind, Answers.ofRole, Query.beforeCore]
      · obtain ⟨rfl, rfl, ⟨rfl, rfl⟩, -⟩ := by simpa using hprefix
        simp [answersBehind, Answers.ofRole, Query.beforeCore]
      · simp at hprefix

/-- Answers depend on what the service finds alone. -/
theorem answersBehind_congr
    (h : ∀ asked query, (other asked query).found = (service asked query).found) :
    other.answersBehind asked source destination localIsCore
      = service.answersBehind asked source destination localIsCore := by
  unfold answersBehind
  rw [h, h, h]

/-- The lookups of a request that is the first to ask: those that its answers call for. -/
def transcript (service : Service μ) (source destination : IsdAs) (localIsCore minimize : Bool) :
    List (SegmentType × Query) :=
  (service.answersBehind [] source destination localIsCore).lookups source destination localIsCore
    minimize

end Service

namespace Candidate

variable {source destination : IsdAs}

/-- A request between ASes that exist makes the queries of its transcript, and no other, and it
succeeds. Every segment of a candidate was found by a lookup of the transcript, behind those before
it, and differs from what was found in its role only. A service that finds the same is asked the
same and gives the same: a failure, with whatever it delivers before, is an empty answer. -/
theorem combine_transcript (service : Service μ) (hsource : source.InRange)
    (hdestination : destination.InRange) (localIsCore minimize : Bool) :
    (combine service source destination localIsCore minimize).queries
        = (service.transcript source destination localIsCore minimize).map Prod.snd ∧
      (∃ candidates,
        (combine service source destination localIsCore minimize).outcome.result = .ok candidates ∧
        ∀ c ∈ candidates, ∀ s ∈ c.segments, ∃ before role query after,
          service.transcript source destination localIsCore minimize
              = before ++ (role, query) :: after ∧
            ∃ t ∈ (service (before.map Prod.snd) query).found, s = { t with type := role }) ∧
      ∀ other : Service μ,
        (∀ asked query, (other asked query).found = (service asked query).found) →
          (combine other source destination localIsCore minimize).queries
              = (combine service source destination localIsCore minimize).queries ∧
            (combine other source destination localIsCore minimize).outcome.result
              = (combine service source destination localIsCore minimize).outcome.result := by
  have hruns (service : Service μ) :=
    runs_combine service hsource hdestination [] localIsCore minimize
  refine ⟨(hruns service).asked_eq, ⟨_, (hruns service).gives, ?_⟩, ?_⟩
  · intro c hc s hs
    obtain ⟨role, query, hlookup, hmem⟩ := Answers.exists_lookup_of_mem_candidates hc s hs
    obtain ⟨before, after, hsplit⟩ := List.append_of_mem hlookup
    rw [Service.ofRole_answersBehind hsplit, List.mem_map] at hmem
    obtain ⟨t, ht, rfl⟩ := hmem
    exact ⟨before, role, query, after, hsplit, t, ht, rfl⟩
  · intro other hfound
    have hother := hruns other
    rw [Service.answersBehind_congr hfound] at hother
    exact ⟨hother.asked_eq.trans (hruns service).asked_eq.symm,
      hother.gives.trans (hruns service).gives.symm⟩

/-- A service that answers by how often it was asked, and fails the second time after it has
delivered a segment. -/
def failingSecond : Service Unit
  | [], _ => .segments [.plain .unspecified (.plain 1 110 0 1) [.plain 1 112 2 0]]
  | [_], _ => .failure "timeout" [.plain .unspecified (.plain 1 110 0 3) [.plain 1 120 4 0]]
  | _, _ => .segments [.plain .unspecified (.plain 1 110 0 5) [.plain 1 111 6 0]]

/-- The failure in the middle is passed over, and the ways up and down are joined. -/
theorem combine_transcript_failingSecond :
    (combine failingSecond (.plain 1 112) (.plain 1 111) false false).queries
        = [.up (.plain 1 112), .core (.plain 1 112) (.plain 1 111), .down (.plain 1 111)] ∧
      (combine failingSecond (.plain 1 112) (.plain 1 111) false false).outcome.result
        = .ok [⟨.plain 1 112, .plain 1 111,
            [.plain .up (.plain 1 110 0 1) [.plain 1 112 2 0],
              .plain .down (.plain 1 110 0 5) [.plain 1 111 6 0]]⟩] ∧
      ∀ other : Service Unit,
        (∀ asked query, (other asked query).found = (failingSecond asked query).found) →
          (combine other (.plain 1 112) (.plain 1 111) false false).outcome.result
            = (combine failingSecond (.plain 1 112) (.plain 1 111) false false).outcome.result := by
  have hsource : (IsdAs.plain 1 112).InRange := by decide
  have hdestination : (IsdAs.plain 1 111).InRange := by decide
  obtain ⟨hqueries, _, hother⟩ := combine_transcript failingSecond hsource hdestination false false
  exact ⟨hqueries.trans (by decide), rfl, fun other hfound => (hother other hfound).2⟩

end Candidate

end PathAssembly

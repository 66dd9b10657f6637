import PathAssembly.Proofs.IsdAs.Notation
import PathAssembly.Proofs.Lookup.Protocol

/-!
# Answers to a request

A request reads at most three answers of its service: the segments up, between core ASes and down.
`Answers.candidates` says which candidates they give and `Answers.lookups` which queries are made
for them; `runs_combine` says that the protocol makes these queries and finds these candidates, of
whatever the service makes of the queries before. Which of the three queries is made does not show
in the candidates: an answer that is not asked for is not used.

A steady service answers a query in the same way whatever it was asked before, so that it is a table
of answers, of which a request reads three entries.
-/

namespace PathAssembly

variable {μ : Type}

namespace IsdAs

variable {a : IsdAs}

theorem InRange.wildcard (h : a.InRange) : a.wildcard.InRange := by
  have hsplit := a.isd_mul_add_asNumber
  have hnonneg := a.asNumber_nonneg
  have hlt := a.asNumber_lt
  unfold InRange at h ⊢
  unfold IsdAs.wildcard
  simp only [asLimit] at *
  omega

end IsdAs

/-- The segments that a reply comes down to. A failure counts as an empty answer. -/
def Reply.found : Reply μ → List (PathSegment μ)
  | .segments found => found
  | .failure _ _ => []

namespace Service

def find (service : Service μ) (query : Query) : List (PathSegment μ) := (service [] query).found

/-- A service that finds the same whatever it was asked before. -/
def Steady (service : Service μ) : Prop :=
  ∀ asked query, (service asked query).found = service.find query

end Service

theorem SegmentStore.steady_service (store : SegmentStore μ) : store.service.Steady :=
  fun _ _ => rfl

namespace Inquiry

variable {α β : Type}

/-- An inquiry behind some queries makes more of them and has a value. -/
structure Runs (x : Inquiry α) (asked : List Query) (a : α) (more : List Query) : Prop where
  asked_eq : (x asked).1 = asked ++ more
  gives : x.Gives asked a

variable {x : Inquiry α} {f : α → Inquiry β} {a : α} {asked more : List Query}

theorem runs_pure (a : α) (asked : List Query) : Runs (pure a) asked a [] :=
  ⟨(List.append_nil asked).symm, rfl⟩

theorem runs_ofLogged {x : Logged α} (h : x.result = .ok a) (asked : List Query) :
    Runs (ofLogged x) asked a [] :=
  ⟨(List.append_nil asked).symm, h⟩

theorem runs_ask (service : Service μ) (query : Query) (asked : List Query) :
    Runs (ask service query) asked (service asked query) [query] := ⟨rfl, rfl⟩

theorem fst_bind (h : x.Gives asked a) : ((x >>= f) asked).1 = (f a (x asked).1).1 := by
  change (bind x f asked).1 = _
  unfold Gives at h
  unfold bind
  rcases hx : x asked with ⟨queries, notes, result⟩
  rw [hx] at h
  dsimp only at h
  subst h
  rfl

/-- An inquiry that composes two others makes the queries of both. -/
theorem Runs.bind {more' : List Query} {b : β} (h : Runs x asked a more)
    (h' : Runs (f a) (asked ++ more) b more') : Runs (x >>= f) asked b (more ++ more') where
  asked_eq := by rw [fst_bind h.gives, h.asked_eq, h'.asked_eq, List.append_assoc]
  gives := gives_bind_iff.2 ⟨a, h.gives, h.asked_eq ▸ h'.gives⟩

variable {source destination : IsdAs}

/-- One query is made, and what it finds is the value. -/
theorem runs_fetch (service : Service μ) (hsource : source.InRange)
    (hdestination : destination.InRange) (asked : List Query) :
    Runs (fetch service source destination) asked (service asked ⟨source, destination⟩).found
      [⟨source, destination⟩] := by
  obtain ⟨start, hstart⟩ := IsdAs.exists_format_iff.2 hsource
  obtain ⟨goal, hgoal⟩ := IsdAs.exists_format_iff.2 hdestination
  refine (runs_ofLogged hstart asked).bind ?_
  refine (runs_ofLogged hgoal _).bind ?_
  refine (runs_ofLogged rfl _).bind ?_
  rw [List.append_nil, List.append_nil, List.append_nil]
  refine (runs_ask service _ asked).bind ?_
  cases service asked ⟨source, destination⟩ with
  | segments found => exact (runs_ofLogged rfl _).bind (runs_pure found _)
  | failure reason delivered => exact (runs_ofLogged rfl _).bind (runs_pure [] _)

theorem runs_fetchAs (service : Service μ) (role : SegmentType) (hsource : source.InRange)
    (hdestination : destination.InRange) (asked : List Query) :
    Runs (fetchAs service role source destination) asked
      ((service asked ⟨source, destination⟩).found.map (·.withType role))
      [⟨source, destination⟩] :=
  (runs_fetch service hsource hdestination asked).bind (runs_pure _ _)

end Inquiry

namespace Query

def up (source : IsdAs) : Query := ⟨source, source.wildcard⟩

def core (source destination : IsdAs) : Query := ⟨source.wildcard, destination.wildcard⟩

def down (destination : IsdAs) : Query := ⟨destination.wildcard, destination⟩

def beforeCore (source : IsdAs) (localIsCore : Bool) : List Query :=
  if localIsCore then [] else [up source]

end Query

/-- What a service answers to the queries of a request, each segment in its role. -/
structure Answers (μ : Type) where
  up : List (PathSegment μ)
  core : List (PathSegment μ)
  down : List (PathSegment μ)

namespace Answers

/-- The segments down that are looked up once the usable core segments are known. -/
def downBeyond (answers : Answers μ) (destination : IsdAs) (core : List (PathSegment μ)) :
    List (PathSegment μ) :=
  if core.any (·.hasEnd destination) then [] else answers.down

def beyond (answers : Answers μ) (source destination : IsdAs) (localIsCore : Bool)
    (up : List (PathSegment μ)) : List (Candidate μ) :=
  if source.isd ≠ destination.isd ∧ answers.core.isEmpty then []
  else
    let core := Candidate.usableCore localIsCore source answers.core
    Candidate.ofSets up core (answers.downBeyond destination core) source destination

def fromLeaf (answers : Answers μ) (source destination : IsdAs) (minimize : Bool) :
    List (Candidate μ) :=
  if answers.up.isEmpty then []
  else if minimize && !(containing answers.up destination).isEmpty then
    Candidate.single (containing answers.up destination) source destination
  else answers.beyond source destination false answers.up

def candidates (answers : Answers μ) (source destination : IsdAs) (localIsCore minimize : Bool) :
    List (Candidate μ) :=
  if source = destination then [{ source, destination }]
  else if localIsCore then answers.beyond source destination true []
  else answers.fromLeaf source destination minimize

/-- Segments between core ASes are looked up: by a core source, and beyond segments up unless few
lookups stop at one that contains the destination. -/
def NeedsCore (answers : Answers μ) (destination : IsdAs) (localIsCore minimize : Bool) : Prop :=
  localIsCore = true ∨ answers.up ≠ [] ∧
    ¬ (minimize = true ∧ ∃ s ∈ answers.up, s.contains destination = true)

/-- Segments down are looked up: unless there is no way between the isolation domains, or a core
segment that the source can use ends at the destination. -/
def NeedsDown (answers : Answers μ) (source destination : IsdAs) (localIsCore : Bool) : Prop :=
  ¬ (source.isd ≠ destination.isd ∧ answers.core = []) ∧
    ¬ ∃ s ∈ answers.core, (localIsCore = true → s.last = source) ∧ s.hasEnd destination = true

instance (answers : Answers μ) (destination : IsdAs) (localIsCore minimize : Bool) :
    Decidable (answers.NeedsCore destination localIsCore minimize) :=
  inferInstanceAs (Decidable (_ ∨ _ ∧ ¬ (_ ∧ _)))

instance (answers : Answers μ) (source destination : IsdAs) (localIsCore : Bool) :
    Decidable (answers.NeedsDown source destination localIsCore) :=
  inferInstanceAs (Decidable (¬ (_ ∧ _) ∧ ¬ _))

/-- The queries that a request makes, each with the role of what it returns. Inside one AS nothing
is looked up. -/
def lookups (answers : Answers μ) (source destination : IsdAs) (localIsCore minimize : Bool) :
    List (SegmentType × Query) :=
  if source = destination then []
  else
    (if localIsCore then [] else [(.up, .up source)]) ++
      if answers.NeedsCore destination localIsCore minimize then
        (.core, .core source destination) ::
          if answers.NeedsDown source destination localIsCore then [(.down, .down destination)]
          else []
      else []

variable {answers : Answers μ} {source destination : IsdAs}

theorem needsDown_iff {localIsCore : Bool} : answers.NeedsDown source destination localIsCore ↔
    ¬ (source.isd ≠ destination.isd ∧ answers.core.isEmpty = true) ∧
      ¬ (Candidate.usableCore localIsCore source answers.core).any (·.hasEnd destination)
          = true := by
  unfold NeedsDown Candidate.usableCore
  rw [List.isEmpty_iff, List.any_eq_true]
  cases localIsCore with
  | false => simp
  | true => simp [and_assoc]

theorem map_snd_lookups (localIsCore minimize : Bool) :
    (answers.lookups source destination localIsCore minimize).map Prod.snd
      = if source = destination then []
        else Query.beforeCore source localIsCore ++
          if answers.NeedsCore destination localIsCore minimize then
            .core source destination ::
              if answers.NeedsDown source destination localIsCore then [.down destination] else []
          else [] := by
  unfold lookups Query.beforeCore
  split_ifs <;> rfl

theorem needsCore_iff_of_leaf {minimize : Bool} : answers.NeedsCore destination false minimize ↔
    ¬ answers.up.isEmpty = true ∧
      ¬ (minimize && !(containing answers.up destination).isEmpty) = true := by
  unfold NeedsCore containing
  simp [List.filter_eq_nil_iff]

end Answers

namespace Service

/-- The answers to a request behind some queries, each of them behind the queries that the request
makes before. -/
def answersBehind (service : Service μ) (asked : List Query) (source destination : IsdAs)
    (localIsCore : Bool) : Answers μ where
  up := (service asked (.up source)).found.map (·.withType .up)
  core := (service (asked ++ Query.beforeCore source localIsCore)
    (.core source destination)).found.map (·.withType .core)
  down := (service (asked ++ Query.beforeCore source localIsCore ++ [.core source destination])
    (.down destination)).found.map (·.withType .down)

def answers (service : Service μ) (source destination : IsdAs) : Answers μ where
  up := (service.find ⟨source, source.wildcard⟩).map (·.withType .up)
  core := (service.find ⟨source.wildcard, destination.wildcard⟩).map (·.withType .core)
  down := (service.find ⟨destination.wildcard, destination⟩).map (·.withType .down)

theorem Steady.answersBehind_eq {service : Service μ} (h : service.Steady) (asked : List Query)
    (source destination : IsdAs) (localIsCore : Bool) :
    service.answersBehind asked source destination localIsCore
      = service.answers source destination := by
  unfold answersBehind answers
  rw [h, h, h]
  rfl

end Service

namespace Candidate

variable {service : Service μ} {source destination : IsdAs} {asked : List Query}

/-- Beyond segments up, one query or two are made. -/
theorem runs_combineBeyond {answers : Answers μ} (hsource : source.InRange)
    (hdestination : destination.InRange) (localIsCore : Bool) (up : List (PathSegment μ))
    (hcore : (service asked (.core source destination)).found.map (·.withType .core)
      = answers.core)
    (hdown : (service (asked ++ [.core source destination]) (.down destination)).found.map
      (·.withType .down) = answers.down) :
    (combineBeyond service source destination localIsCore up).Runs asked
      (answers.beyond source destination localIsCore up)
      (.core source destination ::
        if answers.NeedsDown source destination localIsCore then [.down destination] else []) := by
  have hfetch := Inquiry.runs_fetchAs service .core hsource.wildcard hdestination.wildcard asked
  rw [← Query.core, hcore] at hfetch
  by_cases hguard : source.isd ≠ destination.isd ∧ answers.core.isEmpty = true
  · rw [if_neg fun h => (Answers.needsDown_iff.1 h).1 hguard, Answers.beyond, if_pos hguard]
    refine hfetch.bind ?_
    rw [if_pos hguard]
    exact Inquiry.runs_pure [] _
  rw [Answers.beyond, if_neg hguard]
  by_cases hreached :
      (usableCore localIsCore source answers.core).any (·.hasEnd destination) = true
  · rw [if_neg fun h => (Answers.needsDown_iff.1 h).2 hreached]
    refine hfetch.bind ?_
    rw [if_neg hguard]
    dsimp only [Answers.downBeyond]
    rw [if_pos hreached, if_pos hreached]
    exact Inquiry.runs_ofLogged rfl _
  · rw [if_pos (Answers.needsDown_iff.2 ⟨hguard, hreached⟩)]
    refine hfetch.bind ?_
    rw [if_neg hguard]
    dsimp only [Answers.downBeyond]
    rw [if_neg hreached, if_neg hreached]
    have hfetch' := Inquiry.runs_fetchAs service .down hdestination.wildcard hdestination
      (asked ++ [.core source destination])
    rw [← Query.down, hdown] at hfetch'
    exact hfetch'.bind (Inquiry.runs_ofLogged rfl _)

/-- Segments up are looked up first, and what lies beyond only if it is needed. -/
theorem runs_combineFromLeaf {answers : Answers μ} (hsource : source.InRange)
    (hdestination : destination.InRange) (minimize : Bool)
    (hup : (service asked (.up source)).found.map (·.withType .up) = answers.up)
    (hcore : (service (asked ++ [.up source]) (.core source destination)).found.map
      (·.withType .core) = answers.core)
    (hdown : (service (asked ++ [.up source] ++ [.core source destination])
      (.down destination)).found.map (·.withType .down) = answers.down) :
    (combineFromLeaf service source destination minimize).Runs asked
      (answers.fromLeaf source destination minimize)
      ([.up source] ++
        if answers.NeedsCore destination false minimize then
          .core source destination ::
            if answers.NeedsDown source destination false then [.down destination] else []
        else []) := by
  have hfetch := Inquiry.runs_fetchAs service .up hsource hsource.wildcard asked
  rw [← Query.up, hup] at hfetch
  refine hfetch.bind ?_
  by_cases hempty : answers.up.isEmpty = true
  · rw [if_neg fun h => (Answers.needsCore_iff_of_leaf.1 h).1 hempty, Answers.fromLeaf,
      if_pos hempty, if_pos hempty]
    exact Inquiry.runs_pure [] _
  rw [Answers.fromLeaf, if_neg hempty, if_neg hempty]
  dsimp only
  by_cases hdirect : (minimize && !(containing answers.up destination).isEmpty) = true
  · rw [if_neg fun h => (Answers.needsCore_iff_of_leaf.1 h).2 hdirect, if_pos hdirect,
      if_pos hdirect]
    obtain ⟨name, hname⟩ := IsdAs.exists_format_iff.2 hdestination
    refine (Inquiry.runs_ofLogged hname _).bind ?_
    exact (Inquiry.runs_ofLogged rfl _).bind (Inquiry.runs_pure _ _)
  · rw [if_pos (Answers.needsCore_iff_of_leaf.2 ⟨hempty, hdirect⟩), if_neg hdirect, if_neg hdirect]
    exact runs_combineBeyond hsource hdestination false answers.up hcore hdown

/-- The protocol makes the lookups of the answers and finds their candidates. -/
theorem runs_combine (service : Service μ) (hsource : source.InRange)
    (hdestination : destination.InRange) (asked : List Query) (localIsCore minimize : Bool) :
    (combine service source destination localIsCore minimize).Runs asked
      ((service.answersBehind asked source destination localIsCore).candidates source destination
        localIsCore minimize)
      (((service.answersBehind asked source destination localIsCore).lookups source destination
        localIsCore minimize).map Prod.snd) := by
  rw [Answers.map_snd_lookups, combine, Answers.candidates]
  by_cases hsame : source = destination
  · rw [if_pos hsame, if_pos hsame, if_pos hsame]
    exact Inquiry.runs_pure _ asked
  rw [if_neg hsame, if_neg hsame, if_neg hsame]
  cases localIsCore with
  | true =>
      have hneeded : (service.answersBehind asked source destination true).NeedsCore destination
          true minimize := Or.inl rfl
      rw [if_pos rfl, if_pos rfl, if_pos hneeded]
      have hfirst : asked ++ Query.beforeCore source true = asked := List.append_nil asked
      refine runs_combineBeyond hsource hdestination true [] ?_ ?_
      · rw [Service.answersBehind, hfirst]
      · rw [Service.answersBehind, hfirst]
  | false => exact runs_combineFromLeaf hsource hdestination minimize rfl rfl rfl

theorem gives_combine (hsteady : service.Steady) (hsource : source.InRange)
    (hdestination : destination.InRange) (localIsCore minimize : Bool) :
    (combine service source destination localIsCore minimize).Gives asked
      ((service.answers source destination).candidates source destination localIsCore
        minimize) := by
  rw [← hsteady.answersBehind_eq asked source destination localIsCore]
  exact (runs_combine service hsource hdestination asked localIsCore minimize).gives

end Candidate

end PathAssembly

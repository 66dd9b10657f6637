import Mathlib.Data.List.Nodup
import PathAssembly.Proofs.Retention

/-!
# Answers in another order

The order in which a service returns segments, and how often it returns one, does not matter. The
candidates of two requests are the same up to order and repetition, although a join discovers them
in the order of the segments: whether a core segment is joined against its direction depends only on
which segments there are. Of the candidates that cross the same links a path that lasts longest is
retained, so that links and expirations are the same too; which of several such paths it is, and its
place, may differ.
-/

namespace PathAssembly

variable {μ : Type}

/-- Lists of the same members, in whatever order and number. -/
def Alike {α : Type} (xs ys : List α) : Prop := ∀ x, x ∈ xs ↔ x ∈ ys

namespace Alike

variable {α β : Type} {xs ys more more' : List α}

theorem refl (xs : List α) : Alike xs xs := fun _ => Iff.rfl

theorem symm (h : Alike xs ys) : Alike ys xs := fun x => (h x).symm

theorem isEmpty_eq (h : Alike xs ys) : xs.isEmpty = ys.isEmpty := by
  rw [Bool.eq_iff_iff, List.isEmpty_iff, List.isEmpty_iff, List.eq_nil_iff_forall_not_mem,
    List.eq_nil_iff_forall_not_mem]
  exact forall_congr' fun x => not_congr (h x)

theorem any_eq (h : Alike xs ys) (p : α → Bool) : xs.any p = ys.any p := by
  rw [Bool.eq_iff_iff, List.any_eq_true, List.any_eq_true]
  exact exists_congr fun x => and_congr_left' (h x)

theorem filter (h : Alike xs ys) (p : α → Bool) : Alike (xs.filter p) (ys.filter p) := by
  intro x
  rw [List.mem_filter, List.mem_filter, h x]

theorem map (h : Alike xs ys) (f : α → β) : Alike (xs.map f) (ys.map f) := by
  intro y
  rw [List.mem_map, List.mem_map]
  exact exists_congr fun x => and_congr_left' (h x)

theorem append (h : Alike xs ys) (hmore : Alike more more') :
    Alike (xs ++ more) (ys ++ more') := by
  intro x
  rw [List.mem_append, List.mem_append, h x, hmore x]

end Alike

namespace Candidate

variable {up up' core core' down down' : List (PathSegment μ)} {source destination : IsdAs}

theorem alike_joinTwo (hup : Alike up up') (hdown : Alike down down') :
    Alike (joinTwo up down source destination) (joinTwo up' down' source destination) := by
  intro c
  rw [mem_joinTwo_iff, mem_joinTwo_iff]
  simp only [hup _, hdown _]

theorem alike_single (hup : Alike up up') :
    Alike (single up source destination) (single up' source destination) := by
  intro c
  rw [mem_single_iff, mem_single_iff]
  simp only [hup _]

/-- Whether a core segment is joined against its direction depends on which segments there are. -/
theorem alike_joinThree (hup : Alike up up') (hcore : Alike core core')
    (hdown : Alike down down') :
    Alike (joinThree up core down source destination)
      (joinThree up' core' down' source destination) := by
  intro c
  rw [mem_joinThree_iff, mem_joinThree_iff]
  simp only [Joined, joinsForward_iff, hup _, hcore _, hdown _]

theorem alike_ofSets (hup : Alike up up') (hcore : Alike core core') (hdown : Alike down down') :
    Alike (ofSets up core down source destination)
      (ofSets up' core' down' source destination) := by
  rw [ofSets, ofSets, hup.isEmpty_eq, hcore.isEmpty_eq, hdown.isEmpty_eq]
  split
  · refine (alike_joinThree hup hcore hdown).append ?_
    split_ifs
    · exact alike_joinTwo hup hdown
    · exact .refl []
  · exact (alike_joinTwo hup hcore).append (alike_single (hup.filter _))
  · exact alike_joinTwo hup hdown
  · exact (alike_joinTwo hcore hdown).append (alike_single (hdown.filter _))
  · exact alike_single hup
  · exact alike_single hcore
  · exact alike_single hdown
  · exact .refl []

end Candidate

structure Answers.Resembles (answers answers' : Answers μ) : Prop where
  up : Alike answers.up answers'.up
  core : Alike answers.core answers'.core
  down : Alike answers.down answers'.down

namespace Answers.Resembles

variable {answers answers' : Answers μ} {source destination : IsdAs}

theorem usableCore (h : answers.Resembles answers') (localIsCore : Bool) (source : IsdAs) :
    Alike (Candidate.usableCore localIsCore source answers.core)
      (Candidate.usableCore localIsCore source answers'.core) := by
  rw [Candidate.usableCore, Candidate.usableCore]
  split_ifs
  · exact h.core.filter _
  · exact h.core

theorem downBeyond (h : answers.Resembles answers') {core core' : List (PathSegment μ)}
    (hcore : Alike core core') :
    Alike (answers.downBeyond destination core)
      (answers'.downBeyond destination core') := by
  rw [Answers.downBeyond, Answers.downBeyond, hcore.any_eq]
  split_ifs
  · exact .refl []
  · exact h.down

theorem beyond (h : answers.Resembles answers') (localIsCore : Bool) {up up' : List (PathSegment μ)}
    (hup : Alike up up') :
    Alike (answers.beyond source destination localIsCore up)
      (answers'.beyond source destination localIsCore up') := by
  rw [Answers.beyond, Answers.beyond, h.core.isEmpty_eq]
  split_ifs
  · exact .refl []
  · have hcore := h.usableCore localIsCore source
    exact Candidate.alike_ofSets hup hcore (h.downBeyond hcore)

theorem fromLeaf (h : answers.Resembles answers') (minimize : Bool) :
    Alike (answers.fromLeaf source destination minimize)
      (answers'.fromLeaf source destination minimize) := by
  have hdirect : Alike (containing answers.up destination)
      (containing answers'.up destination) := h.up.filter _
  rw [Answers.fromLeaf, Answers.fromLeaf, h.up.isEmpty_eq, hdirect.isEmpty_eq]
  split_ifs
  · exact .refl []
  · exact Candidate.alike_single hdirect
  · exact h.beyond false h.up

theorem candidates (h : answers.Resembles answers') (source destination : IsdAs)
    (localIsCore minimize : Bool) :
    Alike (answers.candidates source destination localIsCore minimize)
      (answers'.candidates source destination localIsCore minimize) := by
  rw [Answers.candidates, Answers.candidates]
  split_ifs
  · exact .refl _
  · exact h.beyond true (.refl [])
  · exact h.fromLeaf minimize

end Answers.Resembles

theorem Service.answers_resemble {service service' : Service μ}
    (h : ∀ query, Alike (service.find query) (service'.find query)) (source destination : IsdAs) :
    (service.answers source destination).Resembles (service'.answers source destination) where
  up := (h _).map _
  core := (h _).map _
  down := (h _).map _

/-- The links that a path crosses, and until when it can be used. -/
def BuiltPath.validity (path : BuiltPath Unit) : Except Fault (List Crossing) × Int :=
  (interfacePairs path.raw, path.expiration)

namespace Retains

variable {topology : Topology} {now : Int} {candidates candidates' : List (Candidate μ)}
  {paths paths' : List (BuiltPath Unit)}

theorem eq_of_interfacePairs_eq (h : Retains topology now candidates paths)
    {p q : BuiltPath Unit} (hp : p ∈ paths) (hq : q ∈ paths)
    (hsame : interfacePairs p.raw = interfacePairs q.raw) : p = q :=
  List.inj_on_of_nodup_map (List.pairwise_map.2 h.apart) hp hq hsame

theorem nodup_validity (h : Retains topology now candidates paths) :
    (paths.map BuiltPath.validity).Nodup :=
  List.pairwise_map.2 (h.apart.imp fun hapart hsame => hapart (congrArg Prod.fst hsame))

/-- A path that is retained of some candidates lasts as long as the one that is retained of all of
them. -/
theorem mem_validity (h : Retains topology now candidates paths)
    (h' : Retains topology now candidates' paths') (hsame : Alike candidates candidates')
    {p : BuiltPath Unit} (hp : p ∈ paths) : p.validity ∈ paths'.map BuiltPath.validity := by
  obtain ⟨c, hc, hbuild⟩ := h.built p hp
  obtain ⟨q, hq, hlinks, hle⟩ := h'.outlasts c ((hsame c).1 hc) p hbuild
  obtain ⟨c', hc', hbuild'⟩ := h'.built q hq
  obtain ⟨p', hp', hlinks', hle'⟩ := h.outlasts c' ((hsame c').2 hc') q hbuild'
  -- the path that outlasts the other one is the given one
  obtain rfl := h.eq_of_interfacePairs_eq hp' hp (hlinks'.trans hlinks)
  rw [BuiltPath.validity, ← hlinks, Int.le_antisymm hle hle']
  exact List.mem_map_of_mem hq

theorem perm_validity (h : Retains topology now candidates paths)
    (h' : Retains topology now candidates' paths') (hsame : Alike candidates candidates') :
    (paths.map BuiltPath.validity).Perm (paths'.map BuiltPath.validity) := by
  rw [List.perm_ext_iff_of_nodup h.nodup_validity h'.nodup_validity]
  intro key
  constructor
  · intro hkey
    obtain ⟨p, hp, rfl⟩ := List.mem_map.1 hkey
    exact h.mem_validity h' hsame hp
  · intro hkey
    obtain ⟨p, hp, rfl⟩ := List.mem_map.1 hkey
    exact h'.mem_validity h hsame.symm hp

end Retains

/-- Two steady services with the same segments, in whatever order and number, get the same requests
refused, and give paths that cross the same links and last equally long. -/
theorem resolvePaths_alike {service service' : Service μ} (hsteady : service.Steady)
    (hsteady' : service'.Steady)
    (hsame : ∀ query, Alike (service.find query) (service'.find query))
    (source destination : IsdAs) (topology : Topology) (settings : Settings) (now : Int) :
    ((∃ paths, (resolvePaths service source destination topology settings now).outcome.result
        = .ok paths) ↔
      ∃ paths, (resolvePaths service' source destination topology settings now).outcome.result
        = .ok paths) ∧
    ∀ paths paths',
      (resolvePaths service source destination topology settings now).outcome.result = .ok paths →
      (resolvePaths service' source destination topology settings now).outcome.result
        = .ok paths' →
      (∀ p ∈ paths ++ paths', ∃ links, interfacePairs p.raw = .ok links) ∧
        (paths.map BuiltPath.validity).Perm (paths'.map BuiltPath.validity) := by
  have hcandidates := (Service.answers_resemble hsame source destination).candidates source
    destination topology.core settings.minimizeRequests
  refine ⟨?_, fun paths paths' hpaths hpaths' => ?_⟩
  · rw [exists_resolvePaths_iff hsteady, exists_resolvePaths_iff hsteady']
    refine and_congr_right' (and_congr_right' ?_)
    exact forall_congr' fun c => imp_congr_left (hcandidates c)
  · have hretains := retains_of_steady hsteady hpaths
    have hretains' := retains_of_steady hsteady' hpaths'
    exact ⟨List.forall_mem_append.2 ⟨hretains.readable, hretains'.readable⟩,
      hretains.perm_validity hretains' hcandidates⟩

/-- The two links to the AS in front of a leaf AS, announced in another order and more often. -/
def shuffledStore : SegmentStore Unit :=
  SegmentStore.add {} ⟨.plain 1 112, .plain 1 0⟩ [upFrom 60 3, upFrom 0 5, upFrom 0 3, upFrom 0 5]

theorem resolvePaths_alike_shuffled :
    (∀ query, Alike (twoLinkStore.service.find query) (shuffledStore.service.find query)) ∧
      ∃ paths paths', paths.length = 2 ∧
        (resolvePaths twoLinkStore.service (.plain 1 112) (.plain 1 111) leafTopology {}
          0).outcome.result = .ok paths ∧
        (resolvePaths shuffledStore.service (.plain 1 112) (.plain 1 111) leafTopology {}
          0).outcome.result = .ok paths' ∧
        (paths.map BuiltPath.validity).Perm (paths'.map BuiltPath.validity) := by
  have hsame : ∀ query,
      Alike (twoLinkStore.service.find query) (shuffledStore.service.find query) := by
    intro query
    change Alike (twoLinkStore.find query) (shuffledStore.find query)
    rw [twoLinkStore, shuffledStore, SegmentStore.find_add, SegmentStore.find_add]
    split_ifs
    · intro s
      simp only [List.mem_append, List.mem_cons]
      tauto
    · exact .refl _
  have hcandidates : (twoLinkStore.service.answers (.plain 1 112) (.plain 1 111)).candidates
      (.plain 1 112) (.plain 1 111) leafTopology.core false
        = [upFrom 0 3, upFrom 0 5, upFrom 60 3].map
          fun s => ⟨.plain 1 112, .plain 1 111, [s]⟩ := by decide +kernel
  have hbuilds : ∀ c ∈ (twoLinkStore.service.answers (.plain 1 112) (.plain 1 111)).candidates
      (.plain 1 112) (.plain 1 111) leafTopology.core false,
      ∃ built, (c.build leafTopology 0).result = .ok built := by
    rw [hcandidates]
    simp only [List.map_cons, List.map_nil, List.forall_mem_cons]
    exact ⟨⟨_, rfl⟩, ⟨_, rfl⟩, ⟨_, rfl⟩, fun _ h => absurd h List.not_mem_nil⟩
  have hpaths : (resolvePaths twoLinkStore.service (.plain 1 112) (.plain 1 111) leafTopology {}
      0).Gives [] _ :=
    (gives_resolvePaths_iff_of_steady twoLinkStore.steady_service).2
      ⟨by decide, by decide, hbuilds, rfl⟩
  obtain ⟨hrefused, hperm⟩ := resolvePaths_alike twoLinkStore.steady_service
    shuffledStore.steady_service hsame (.plain 1 112) (.plain 1 111) leafTopology {} 0
  obtain ⟨paths', hpaths'⟩ := hrefused.1 ⟨_, hpaths⟩
  refine ⟨hsame, _, paths', ?_, hpaths, hpaths', (hperm _ _ hpaths hpaths').2⟩
  rw [List.length_mergeSort]
  rfl

end PathAssembly

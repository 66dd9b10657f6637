import Mathlib.Data.List.Chain
import PathAssembly.Proofs.Path.Crossing

/-!
# Paths in a wired network

A wiring says which interface is at the other end of a link. The header of a path tells only the
numbers of the crossed interfaces, neither their ASes nor where one segment ends and the next one
begins. If all segments follow one wiring this is enough: a walk starts in a known AS, the number of
exit then names an interface, and the wiring names the AS that is entered by it. The current AS is
carried along both walks, so that it does not matter how they are made of segments.
-/

namespace PathAssembly

variable {μ : Type}

/-- The interface at the other end of the link of an interface, if it has one. -/
abbrev Wiring := PathInterface → Option PathInterface

/-- The interface by which a segment enters an AS, in construction direction. -/
def AsEntry.ingress (e : AsEntry) : PathInterface := ⟨e.isdAs, e.hop.ingress.toNat⟩

/-- The interface by which a segment leaves an AS, in construction direction. -/
def AsEntry.egress (e : AsEntry) : PathInterface := ⟨e.isdAs, e.hop.egress.toNat⟩

/-- Between neighbouring entries of a segment is a link of the wiring, seen from both of its
ends. -/
def PathSegment.Follows (wiring : Wiring) (s : PathSegment μ) : Prop :=
  s.entries.IsChain fun e f =>
    wiring e.egress = some f.ingress ∧ wiring f.ingress = some e.egress

/-- Interfaces are ends of links, pair by pair. -/
inductive Wired (wiring : Wiring) : List PathInterface → Prop
  | nil : Wired wiring []
  | cons {out into : PathInterface} {rest : List PathInterface} (hlink : wiring out = some into)
      (hrest : Wired wiring rest) : Wired wiring (out :: into :: rest)

namespace Wired

variable {wiring : Wiring} {interfaces more : List PathInterface}

theorem append (h : Wired wiring interfaces) (hmore : Wired wiring more) :
    Wired wiring (interfaces ++ more) := by
  induction h with
  | nil => exact hmore
  | cons hlink _ ih => exact .cons hlink ih

theorem flatMap {α : Type} {f : α → List PathInterface} {xs : List α}
    (h : ∀ x ∈ xs, Wired wiring (f x)) : Wired wiring (xs.flatMap f) := by
  induction xs with
  | nil => exact .nil
  | cons x xs ih =>
      obtain ⟨hx, hxs⟩ := List.forall_mem_cons.1 h
      exact hx.append (ih hxs)

end Wired

/-- Walks from one AS that cross interfaces of the same numbers are the same walk. -/
theorem Walks.eq_of_pairs_eq {wiring : Wiring} {a b c : IsdAs}
    {interfaces interfaces' : List PathInterface} (h : Walks a interfaces b)
    (h' : Walks a interfaces' c) (hwired : Wired wiring interfaces)
    (hwired' : Wired wiring interfaces')
    (hpairs : PathInterface.pairs interfaces = PathInterface.pairs interfaces') :
    interfaces = interfaces' := by
  induction h generalizing interfaces' with
  | nil a =>
      cases h' with
      | nil => rfl
      | cons out into hrest => cases hpairs
  | cons out into hrest ih =>
      cases h' with
      | nil => cases hpairs
      | cons out' into' hrest' =>
          obtain ⟨hnumbers, hrestPairs⟩ := List.cons.inj hpairs
          cases hnumbers
          cases hwired with
          | cons hlink hwired =>
              cases hwired' with
              | cons hlink' hwired' =>
                  -- the same interface of exit leads to the same AS
                  cases hlink.symm.trans hlink'
                  rw [ih hrest' hwired hwired' hrestPairs]

namespace Leg

variable {wiring : Wiring} {s : PathSegment μ}

theorem wired_links (reversed : Bool) {entries : List AsEntry}
    (h : entries.IsChain fun here there => Wired wiring (link reversed here there)) :
    Wired wiring (links reversed entries) := by
  induction entries with
  | nil => exact .nil
  | cons here rest ih =>
      cases rest with
      | nil => exact .nil
      | cons there rest =>
          obtain ⟨hlink, hrest⟩ := List.isChain_cons_cons.1 h
          rw [links_cons_cons]
          exact hlink.append (ih hrest)

/-- Between the visited entries are links, in the direction in which they are visited. -/
theorem isChain_visited (h : s.Follows wiring) (r : SegmentRange) :
    ((r.visited s).map Prod.snd).IsChain fun here there =>
      Wired wiring (link r.reversed here there) := by
  have hwindow : ((s.window r.low r.high).map Prod.snd).IsChain fun e f =>
      wiring e.egress = some f.ingress ∧ wiring f.ingress = some e.egress := by
    have hpart : s.window r.low r.high <:+: s.numbered :=
      (List.drop_suffix _ _).isInfix.trans (List.take_prefix _ _).isInfix
    refine List.IsChain.infix ?_ (hpart.map Prod.snd)
    rw [s.map_snd_numbered]
    exact h
  rw [SegmentRange.visited]
  cases r.reversed with
  | false =>
      rw [if_neg Bool.false_ne_true]
      exact hwindow.imp fun _ _ hlink => .cons hlink.1 .nil
  | true =>
      rw [if_pos rfl, List.map_reverse, List.isChain_reverse]
      exact hwindow.imp fun _ _ hlink => .cons hlink.2 .nil

theorem wired_along (h : s.Follows wiring) (r : SegmentRange) :
    Wired wiring (along s r).interfaces :=
  wired_links r.reversed (isChain_visited h r)

end Leg

/-- A truncation takes no segments from elsewhere. -/
theorem Truncates.subset {source destination : IsdAs} {segments segments' : List (PathSegment μ)}
    {ranges ranges' : List SegmentRange}
    (h : Truncates source destination segments ranges segments' ranges') :
    segments' ⊆ segments := by
  cases h <;> simp

namespace Candidate

variable {topology : Topology} {now now' : Int} {c d : Candidate μ} {wiring : Wiring}
  {path path' : BuiltPath Unit}

theorem exists_walks_of_build (hlocal : c.source = topology.isdAs)
    (h : (c.build topology now).result = .ok (some path)) :
    ∃ stop, Walks topology.isdAs path.interfaces stop := by
  rcases crossesNothing_or_assembles h with ⟨hnone, _⟩ | ⟨hsegments, ranges, used, hused⟩
  · rw [hnone]
    exact ⟨topology.isdAs, .nil topology.isdAs⟩
  · obtain ⟨stop, hleads⟩ := hused.exists_leads hsegments hlocal.symm
    rw [← hlocal]
    exact ⟨stop, hused.walks hleads⟩

theorem wired_of_build (hfollows : ∀ s ∈ c.segments, s.Follows wiring)
    (h : (c.build topology now).result = .ok (some path)) : Wired wiring path.interfaces := by
  rcases crossesNothing_or_assembles h with ⟨hnone, _⟩ | ⟨_, ranges, used, hused⟩
  · rw [hnone]
    exact .nil
  · rw [hused.interfaces_eq]
    refine Wired.flatMap fun leg hleg => ?_
    obtain ⟨⟨s, r⟩, hmem, rfl⟩ := List.mem_map.1 hleg
    exact Leg.wired_along (hfollows s (hused.truncates.subset (List.of_mem_zip hmem).1)) r

/-- In a wired network two paths from the local AS that cross links of the same numbers cross the
same interfaces of the same ASes. -/
theorem interfaces_eq_of_interfacePairs_eq (hc : c.source = topology.isdAs)
    (hd : d.source = topology.isdAs) (hfollows : ∀ s ∈ c.segments ++ d.segments, s.Follows wiring)
    (hpath : (c.build topology now).result = .ok (some path))
    (hpath' : (d.build topology now').result = .ok (some path'))
    (hsame : interfacePairs path.raw = interfacePairs path'.raw) :
    path.interfaces = path'.interfaces := by
  obtain ⟨stop, hwalks⟩ := exists_walks_of_build hc hpath
  obtain ⟨stop', hwalks'⟩ := exists_walks_of_build hd hpath'
  rw [interfacePairs_of_build hpath, interfacePairs_of_build hpath'] at hsame
  have hwired : Wired wiring path.interfaces :=
    wired_of_build (fun s hs => hfollows s (List.mem_append_left _ hs)) hpath
  have hwired' : Wired wiring path'.interfaces :=
    wired_of_build (fun s hs => hfollows s (List.mem_append_right _ hs)) hpath'
  exact hwalks.eq_of_pairs_eq hwalks' hwired hwired' (Except.ok.inj hsame)

def rowWiring : Wiring := fun i =>
  if i = ⟨.plain 1 112, 4⟩ then some ⟨.plain 1 111, 3⟩
  else if i = ⟨.plain 1 111, 3⟩ then some ⟨.plain 1 112, 4⟩
  else if i = ⟨.plain 1 111, 2⟩ then some ⟨.plain 1 110, 1⟩
  else if i = ⟨.plain 1 110, 1⟩ then some ⟨.plain 1 111, 2⟩
  else none

/-- The row as one segment. -/
def alongRow : Candidate Unit where
  source := .plain 1 112
  destination := .plain 1 110
  segments := [.plain .up (.plain 1 110 0 1) [.plain 1 111 2 3, .plain 1 112 4 0]]

/-- The row as two segments that meet in its middle. -/
def alongHalves : Candidate Unit where
  source := .plain 1 112
  destination := .plain 1 110
  segments := [.plain .up (.plain 1 111 0 3) [.plain 1 112 4 0],
    .plain .core (.plain 1 110 0 1) [.plain 1 111 2 0]]

theorem interfaces_eq_of_interfacePairs_eq_row :
    alongRow.source = leafTopology.isdAs ∧ alongHalves.source = leafTopology.isdAs ∧
      (∀ s ∈ alongRow.segments ++ alongHalves.segments, s.Follows rowWiring) ∧
      ∃ path path', (alongRow.build leafTopology 0).result = .ok (some path) ∧
        (alongHalves.build leafTopology 0).result = .ok (some path') ∧
        path.raw ≠ path'.raw ∧ interfacePairs path.raw = interfacePairs path'.raw ∧
        path.interfaces = path'.interfaces := by
  have hfollows : ∀ s ∈ alongRow.segments ++ alongHalves.segments, s.Follows rowWiring := by
    simp only [alongRow, alongHalves, List.cons_append, List.nil_append, List.forall_mem_cons]
    exact ⟨.cons_cons (by decide) (.cons_cons (by decide) (.singleton _)),
      .cons_cons (by decide) (.singleton _), .cons_cons (by decide) (.singleton _),
      fun _ h => absurd h List.not_mem_nil⟩
  obtain ⟨path, path', hpath, hpath', hraw, hsame⟩ : ∃ path path',
      (alongRow.build leafTopology 0).result = .ok (some path) ∧
      (alongHalves.build leafTopology 0).result = .ok (some path') ∧
      path.raw ≠ path'.raw ∧ interfacePairs path.raw = interfacePairs path'.raw :=
    ⟨_, _, rfl, rfl, by decide +kernel, by decide +kernel⟩
  exact ⟨rfl, rfl, hfollows, path, path', hpath, hpath', hraw, hsame,
    interfaces_eq_of_interfacePairs_eq rfl rfl hfollows hpath hpath' hsame⟩

end Candidate

end PathAssembly

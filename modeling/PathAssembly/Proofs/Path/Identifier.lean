import PathAssembly.Proofs.Path.Assembly

/-!
# Segment identifiers along a path

Every entry of a segment has an identifier: that of the segment at the origin, and behind each entry
the one before with the code of that entry folded in. A router that forwards in construction
direction folds its code in when the packet leaves; against it, every router but the first one does
so when the packet comes in. The identifier in the info field is the one at which the walk over the
hop fields of a slot has to start so that every router holds that of its entry.
-/

namespace PathAssembly

variable {μ : Type}

namespace WireHop

/-- What a router folds into an identifier: the first two octets of the code, as a number. -/
def chain (hop : WireHop) : Nat := Octets.toNat (hop.mac.take 2)

/-- The identifier that a router holds, given the one of the packet that comes in. -/
def arrive (forward first : Bool) (held : Nat) (hop : WireHop) : Nat :=
  if forward || first then held else held ^^^ hop.chain

/-- The identifier of the packet that goes out, given the one that the router held. -/
def leave (forward : Bool) (held : Nat) (hop : WireHop) : Nat :=
  if forward then held ^^^ hop.chain else held

/-- The identifiers that routers hold along hop fields; `first` says that none came before. -/
def heldAlong (forward : Bool) : (first : Bool) → Nat → List WireHop → List Nat
  | _, _, [] => []
  | first, held, hop :: rest =>
    arrive forward first held hop
      :: heldAlong forward false (leave forward (arrive forward first held hop) hop) rest

end WireHop

def InfoField.heldAlong (info : InfoField) (hops : List WireHop) : List Nat :=
  WireHop.heldAlong info.constructionDirection true info.segId.toNat hops

theorem Mac.toNat_chain (mac : Mac) : mac.chain.toNat = Octets.toNat (mac.octets.take 2) := by
  obtain ⟨octets, hlength⟩ := mac
  match octets, hlength with
  | a :: b :: rest, _ =>
      have ha := a.toNat_lt
      have hb := b.toNat_lt
      have hfit : a.toNat * 256 + b.toNat < UInt16.size := by
        simp only [UInt16.size]
        omega
      change (UInt16.ofNat (a.toNat * 256 + b.toNat)).toNat = _
      rw [UInt16.toNat_ofNat_of_lt' hfit]
      simp [Octets.toNat]

namespace PathSegment

def identifierAt (s : PathSegment μ) : Nat → Nat
  | 0 => s.info.segId.toNat
  | position + 1 =>
    match s.entries[position]? with
    | some entry => s.identifierAt position ^^^ Octets.toNat (entry.hop.mac.octets.take 2)
    | none => s.identifierAt position

theorem getElem?_of_entryAt {s : PathSegment μ} {position : Nat} {entry : AsEntry}
    (h : s.entryAt position = .ok entry) : s.entries[position]? = some entry := by
  have hnonneg : ¬ (position : Int) < 0 := Int.not_lt.2 (Int.natCast_nonneg position)
  simp only [entryAt] at h
  rw [if_neg hnonneg, if_neg hnonneg, Int.toNat_natCast] at h
  cases hentry : s.entries[position]? with
  | none =>
      rw [hentry] at h
      cases h
  | some other =>
      rw [hentry] at h
      cases h
      rfl

theorem identifierAt_succ {s : PathSegment μ} {position : Nat} {entry : AsEntry}
    (h : s.entryAt position = .ok entry) :
    s.identifierAt (position + 1)
      = s.identifierAt position ^^^ (WireHop.ofHopField entry.hop).chain := by
  rw [identifierAt, getElem?_of_entryAt h]
  rfl

/-- Folding in the codes of the first entries gives the identifier behind them. -/
theorem toNat_fold_take (s : PathSegment μ) (count : Nat) :
    (Leg.fold s.info.segId (s.entries.take count)).toNat = s.identifierAt count := by
  induction count with
  | zero => rfl
  | succ count ih =>
      rw [List.take_add_one, Leg.fold_append, identifierAt]
      cases s.entries[count]? with
      | none => exact ih
      | some entry =>
          change (Leg.fold s.info.segId (s.entries.take count) ^^^ entry.hop.mac.chain).toNat = _
          rw [UInt16.toNat_xor, ih, Mac.toNat_chain]

theorem map_snd_window (s : PathSegment μ) (low high : Nat) :
    (s.window low high).map Prod.snd = (s.entries.take high).drop low := by
  rw [window, List.map_drop, List.map_take, map_snd_numbered]

end PathSegment

namespace Leg

theorem fold_reverse (segId : UInt16) (entries : List AsEntry) :
    fold segId entries.reverse = fold segId entries := by
  apply List.Perm.foldl_eq' (List.reverse_perm entries)
  intro x _ y _ held
  rw [UInt16.xor_assoc, UInt16.xor_comm x.hop.mac.chain, ← UInt16.xor_assoc]

/-- The identifier of a leg is that of the entry at which it starts. -/
theorem toNat_segId_along {s : PathSegment μ} {r : SegmentRange} (h : r.Fits s) :
    (along s r).segId.toNat = s.identifierAt r.start.toNat := by
  cases h with
  | @forward index low high hlow hhigh => exact s.toNat_fold_take low
  | @reverse index low high hlow hhigh =>
      obtain ⟨last, rfl⟩ : ∃ last, high = last + 1 := ⟨high - 1, by omega⟩
      have hle : low ≤ last := Nat.le_of_lt_succ hlow
      have hstart : (((last + 1 : Nat) : Int) - 1).toNat = last := by omega
      obtain ⟨entry, _, hlast⟩ := s.window_eq_cons (Nat.lt_succ_self last) hhigh
      have htail : ((s.window low (last + 1)).reverse.map Prod.snd).tail
          = ((s.entries.take last).drop low).reverse := by
        rw [s.window_append hle (Nat.le_succ last) hhigh, hlast, PathSegment.window_self,
          List.reverse_append, List.reverse_singleton, List.singleton_append, List.map_cons,
          List.tail_cons, List.map_reverse, PathSegment.map_snd_window]
      have hfront : s.entries.take low = (s.entries.take last).take low := by
        rw [List.take_take, Nat.min_eq_left hle]
      rw [segId, along, SegmentRange.visited_reverse, SegmentRange.low_reverse, hstart]
      change (fold (fold s.info.segId (s.entries.take low))
        ((s.window low (last + 1)).reverse.map Prod.snd).tail).toNat = _
      -- against construction direction the tail is folded in from the back, which changes nothing
      rw [htail, fold_reverse, ← fold_append, hfront, List.take_append_drop, s.toNat_fold_take]

end Leg

namespace PathSegment

def hopsOf (entries : List (Int × AsEntry)) : List WireHop :=
  entries.map fun (_, entry) => .ofHopField entry.hop

def identifiersOf (s : PathSegment μ) (entries : List (Int × AsEntry)) : List Nat :=
  entries.map fun (position, _) => s.identifierAt position.toNat

/-- In construction direction every router holds the identifier of its entry if the first one
does. -/
theorem heldAlong_window (s : PathSegment μ) (first : Bool) {low count : Nat}
    (h : low + count ≤ s.length) :
    WireHop.heldAlong true first (s.identifierAt low) (hopsOf (s.window low (low + count)))
      = s.identifiersOf (s.window low (low + count)) := by
  induction count generalizing low first with
  | zero =>
      rw [Nat.add_zero, window_self]
      rfl
  | succ count ih =>
      obtain ⟨entry, hentry, hcons⟩ := s.window_eq_cons (by omega : low < low + (count + 1)) h
      have hnext : low + (count + 1) = low + 1 + count := by omega
      have htail := ih false (by omega : low + 1 + count ≤ s.length)
      rw [identifierAt_succ hentry] at htail
      rw [hcons, hnext, hopsOf, identifiersOf, List.map_cons, List.map_cons]
      exact congrArg (s.identifierAt low :: ·) htail

/-- Against it every router comes to hold the identifier of its entry from the one behind it. -/
theorem heldAlong_window_reverse (s : PathSegment μ) {low count : Nat}
    (h : low + count ≤ s.length) :
    WireHop.heldAlong false false (s.identifierAt (low + count))
        (hopsOf (s.window low (low + count)).reverse)
      = s.identifiersOf (s.window low (low + count)).reverse := by
  induction count with
  | zero =>
      rw [Nat.add_zero, window_self]
      rfl
  | succ count ih =>
      obtain ⟨entry, hentry, hcons⟩ := s.window_eq_cons (Nat.lt_succ_self (low + count)) h
      have hsplit := s.window_append (Nat.le_add_right low count) (Nat.le_succ (low + count)) h
      have htail := ih (by omega : low + count ≤ s.length)
      have harrive : WireHop.arrive false false (s.identifierAt (low + count + 1))
          (.ofHopField entry.hop) = s.identifierAt (low + count) := by
        rw [WireHop.arrive, if_neg (by decide), identifierAt_succ hentry, Nat.xor_assoc,
          Nat.xor_self, Nat.xor_zero]
      rw [window_self] at hcons
      rw [← Nat.add_assoc, hsplit, hcons, List.reverse_append, List.reverse_singleton,
        List.singleton_append, hopsOf, identifiersOf, List.map_cons, List.map_cons]
      rw [WireHop.heldAlong, harrive]
      exact congrArg (s.identifierAt (low + count) :: ·) htail

/-- Along a leg every router holds the identifier of its entry. -/
theorem heldAlong_visited {s : PathSegment μ} {r : SegmentRange} (h : r.Fits s) :
    WireHop.heldAlong (!r.reversed) true (s.identifierAt r.start.toNat) (hopsOf (r.visited s))
      = s.identifiersOf (r.visited s) := by
  cases h with
  | @forward index low high hlow hhigh =>
      have hwindow := s.heldAlong_window true (by omega : low + (high - low) ≤ s.length)
      rw [Nat.add_sub_of_le (Nat.le_of_lt hlow)] at hwindow
      exact hwindow
  | @reverse index low high hlow hhigh =>
      obtain ⟨last, rfl⟩ : ∃ last, high = last + 1 := ⟨high - 1, by omega⟩
      have hle : low ≤ last := Nat.le_of_lt_succ hlow
      have hstart : (((last + 1 : Nat) : Int) - 1).toNat = last := by omega
      obtain ⟨entry, _, hlast⟩ := s.window_eq_cons (Nat.lt_succ_self last) hhigh
      have htail := s.heldAlong_window_reverse (by omega : low + (last - low) ≤ s.length)
      rw [Nat.add_sub_of_le hle] at htail
      -- the first router folds nothing in, and the others go on from it
      rw [SegmentRange.visited_reverse, hstart, s.window_append hle (Nat.le_succ last) hhigh, hlast,
        window_self, List.reverse_append, List.reverse_singleton, List.singleton_append, hopsOf,
        identifiersOf, List.map_cons, List.map_cons]
      exact congrArg (s.identifierAt last :: ·) htail

end PathSegment

/-- Along every slot of a path every router holds the identifier of the entry that its hop field
comes from. -/
theorem Candidate.build_heldAlong {c : Candidate μ} {topology : Topology} {now : Int}
    {path : BuiltPath Unit} (hne : c.segments ≠ [])
    (h : (c.build topology now).result = .ok (some path)) :
    ∃ ranges used header, PathSegment.orient topology.isdAs c.segments = some ranges ∧
      (truncate c.segments ranges c.source c.destination).result = .ok used ∧
      PathHeader.decode path.raw = .ok header ∧
      used.ranges.length = used.segments.length ∧ header.infos.length = used.segments.length ∧
      ∀ slot s r, used.segments[slot]? = some s → used.ranges[slot]? = some r →
        ∃ info entries, header.infos[slot]? = some info ∧ r.walk s = .ok entries ∧
          (∀ x ∈ entries, 0 ≤ x.1) ∧
          header.segmentHops slot = .ok (PathSegment.hopsOf entries) ∧
          info.heldAlong (PathSegment.hopsOf entries) = s.identifiersOf entries := by
  obtain ⟨ranges, used, hused⟩ := assembles_of_build hne h
  obtain ⟨hdecode, _, _⟩ := hused.decode_raw
  refine ⟨ranges, used, _, hused.oriented, hused.truncated, hdecode, hused.fits.length_eq.symm,
    ?_, ?_⟩
  · change ((Leg.alongAll used.segments used.ranges).map Leg.infoField).length = _
    rw [List.length_map, Leg.length_alongAll hused.fits]
  · intro slot s r hs hr
    have hpair : (used.segments.zip used.ranges)[slot]? = some (s, r) := by
      rw [List.getElem?_zip_eq_some]
      exact ⟨hs, hr⟩
    have hfits := List.forall₂_zip hused.fits (List.mem_of_getElem? hpair)
    have hleg : (Leg.alongAll used.segments used.ranges)[slot]? = some (Leg.along s r) := by
      rw [Leg.alongAll, List.getElem?_map, hpair]
      rfl
    refine ⟨(Leg.along s r).infoField, r.visited s, ?_, SegmentRange.walk_eq_ok hfits,
      fun x hx => SegmentRange.nonneg_of_mem_visited hx, ?_, ?_⟩
    · change ((Leg.alongAll used.segments used.ranges).map Leg.infoField)[slot]? = _
      rw [List.getElem?_map, hleg]
      rfl
    · rw [PathHeader.segmentHops_ofLegs hleg, Leg.hops, Leg.along, List.map_map]
      rfl
    · have hheld := PathSegment.heldAlong_visited hfits
      rw [← Leg.toNat_segId_along hfits] at hheld
      exact hheld

theorem Candidate.build_heldAlong_viaShortcut :
    ∃ path, (viaShortcut.build leafTopology 0).result = .ok (some path) ∧
      ∃ ranges used header,
        PathSegment.orient leafTopology.isdAs viaShortcut.segments = some ranges ∧
        (truncate viaShortcut.segments ranges viaShortcut.source viaShortcut.destination).result
          = .ok used ∧
        PathHeader.decode path.raw = .ok header ∧
        used.ranges.length = used.segments.length ∧ header.infos.length = used.segments.length ∧
        ∀ slot s r, used.segments[slot]? = some s → used.ranges[slot]? = some r →
          ∃ info entries, header.infos[slot]? = some info ∧ r.walk s = .ok entries ∧
            (∀ x ∈ entries, 0 ≤ x.1) ∧
            header.segmentHops slot = .ok (PathSegment.hopsOf entries) ∧
            info.heldAlong (PathSegment.hopsOf entries) = s.identifiersOf entries := by
  obtain ⟨path, hpath⟩ := exists_build_viaShortcut
  exact ⟨path, hpath, build_heldAlong (List.cons_ne_nil _ _) hpath⟩

end PathAssembly

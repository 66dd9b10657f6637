import PathAssembly.Proofs.Path.Contribution
import PathAssembly.Proofs.Segment.Window

/-!
# Metadata that stays aligned

The visits of a path are those of the places of its ranges, one for each position of a range in its
slot (`visits_of_inBounds`). Segments whose ASes say something else are visited at the same places.
The visits are then the same up to what is said, so that they contribute as much as before.
-/

namespace PathAssembly

variable {μ : Type}

namespace PathMetadata

/-- A position of the range in a slot. -/
structure Place where
  slot : Nat
  range : SegmentRange
  position : Int

def places (ranges : List SegmentRange) : List Place :=
  ranges.zipIdx.flatMap fun (r, slot) =>
    (SegmentRange.positionsFrom r.step r.count r.start).map fun position => ⟨slot, r, position⟩

def entryOf (segments : List (PathSegment μ)) (place : Place) : Option AsEntry :=
  segments[place.slot]?.bind fun s => s.entries[place.position.toNat]?

/-- What is visited at a place. -/
structure VisitAt (segments : List (PathSegment μ)) (count : Nat) (place : Place) (v : Visit) :
    Prop where
  entry_eq : entryOf segments place = some v.entry
  reversed_eq : v.reversed = place.range.reversed
  transit_eq : v.transit = isTransit place.slot count place.position place.range

end PathMetadata

def SegmentRange.InBounds (s : PathSegment μ) (r : SegmentRange) : Prop :=
  ∃ positions, r.positions = .ok positions ∧
    ∀ position ∈ positions, 0 ≤ position ∧ position < s.length

namespace SegmentRange

theorem walkFrom_of_inBounds {s : PathSegment μ} {step position : Int} {count : Nat}
    (h : ∀ p ∈ positionsFrom step count position, 0 ≤ p ∧ p < s.length) :
    ∃ walk, walkFrom s step count position = .ok walk ∧
      List.Forall₂ (fun p x => x.1 = p ∧ s.entries[p.toNat]? = some x.2)
        (positionsFrom step count position) walk := by
  induction count generalizing position with
  | zero => exact ⟨[], rfl, .nil⟩
  | succ count ih =>
      obtain ⟨⟨hlow, hhigh⟩, hrest⟩ := List.forall_mem_cons.1 h
      obtain ⟨walk, hwalk, hentries⟩ := ih hrest
      obtain ⟨i, rfl⟩ := Int.eq_ofNat_of_zero_le hlow
      have hi : i < s.entries.length := Int.ofNat_lt.1 hhigh
      have hentry := s.entryAt_natCast hi
      refine ⟨((i : Int), s.entries[i]) :: walk, ?_, .cons ⟨rfl, ?_⟩ hentries⟩
      · rw [walkFrom, hentry, Outcome.ok_bind, hwalk]
        rfl
      · exact List.getElem?_eq_getElem hi

/-- A range in bounds is walked along its positions. -/
theorem InBounds.walk_eq_ok {s : PathSegment μ} {r : SegmentRange} (h : r.InBounds s) :
    ∃ walk, r.walk s = .ok walk ∧
      List.Forall₂ (fun p x => x.1 = p ∧ s.entries[p.toNat]? = some x.2)
        (positionsFrom r.step r.count r.start) walk := by
  obtain ⟨positions, hpositions, hbounds⟩ := h
  obtain ⟨_, hcheck, hpositions⟩ := Outcome.bind_eq_ok_iff.1 hpositions
  cases hpositions
  rw [walk, hcheck, Outcome.ok_bind]
  exact walkFrom_of_inBounds hbounds

end SegmentRange

namespace PathMetadata

variable {segments segments' : List (PathSegment μ)} {ranges : List SegmentRange}

theorem slotVisits_of_inBounds {s : PathSegment μ} {r : SegmentRange} (h : r.InBounds s)
    {slot : Nat} (hslot : segments[slot]? = some s) (count : Nat) :
    ∃ vs, slotVisits slot count s r = .ok vs ∧
      List.Forall₂ (VisitAt segments count)
        ((SegmentRange.positionsFrom r.step r.count r.start).map fun position =>
          ⟨slot, r, position⟩) vs := by
  obtain ⟨walk, hwalk, hentries⟩ := h.walk_eq_ok
  refine ⟨_, by rw [slotVisits, hwalk]; rfl, ?_⟩
  rw [List.forall₂_map_left_iff, List.forall₂_map_right_iff]
  refine hentries.imp ?_
  rintro _ ⟨position, entry⟩ ⟨rfl, hentry⟩
  refine ⟨?_, rfl, rfl⟩
  rw [entryOf, hslot]
  exact hentry

theorem visits_of_inBounds (h : List.Forall₂ (fun s r => r.InBounds s) segments ranges) :
    ∃ vs, visits segments ranges = .ok vs ∧
      List.Forall₂ (VisitAt segments ranges.length) (places ranges) vs := by
  have hslots : ∀ x ∈ (segments.zip ranges).zipIdx, ∃ vs,
      slotVisits x.2 ranges.length x.1.1 x.1.2 = .ok vs ∧
      List.Forall₂ (VisitAt segments ranges.length)
        ((SegmentRange.positionsFrom x.1.2.step x.1.2.count x.1.2.start).map fun position =>
          ⟨x.2, x.1.2, position⟩) vs := by
    rintro ⟨⟨s, r⟩, slot⟩ hmem
    obtain ⟨hs, _⟩ := List.getElem?_zip_eq_some.1 (List.mem_zipIdx_iff_getElem?.1 hmem)
    exact slotVisits_of_inBounds (List.forall₂_zip h (List.fst_mem_of_mem_zipIdx hmem)) hs _
  obtain ⟨slots, hvisits, hall⟩ := Outcome.exists_mapM_eq_ok hslots
  refine ⟨slots.flatten, Outcome.bind_eq_ok_iff.2 ⟨slots, hvisits, rfl⟩, ?_⟩
  have hranges : ranges.zipIdx = (segments.zip ranges).zipIdx.map (Prod.map Prod.snd id) := by
    rw [← List.zipIdx_map, List.map_snd_zip (Nat.le_of_eq h.length_eq.symm)]
  rw [places, hranges, List.flatMap_map, List.flatMap_def]
  exact List.rel_flatten (List.forall₂_map_left_iff.2 hall)

theorem forall₂_of_common {α β γ : Type} {P : α → β → Prop} {Q : α → γ → Prop} {S : β → γ → Prop}
    {as : List α} {bs : List β} {cs : List γ} (hbs : List.Forall₂ P as bs)
    (hcs : List.Forall₂ Q as cs) (h : ∀ a b c, P a b → Q a c → S b c) : List.Forall₂ S bs cs := by
  induction hbs generalizing cs with
  | nil =>
      cases hcs
      exact .nil
  | cons hp _ ih =>
      cases hcs with
      | cons hq hcs => exact .cons (h _ _ _ hp hq) (ih hcs)

theorem exists_getElem?_of_forall₂ {α β : Type} {R : α → β → Prop} {as : List α} {bs : List β}
    (h : List.Forall₂ R as bs) {i : Nat} {a : α} (hi : as[i]? = some a) :
    ∃ b, bs[i]? = some b ∧ R a b := by
  induction h generalizing i with
  | nil => cases hi
  | @cons a' b _ _ hab _ ih =>
      cases i with
      | zero =>
          cases hi
          exact ⟨b, rfl, hab⟩
      | succ i => exact ih hi

/-- Segments whose entries are replaced by others, one by one. -/
def Restated (R : AsEntry → AsEntry → Prop) (segments segments' : List (PathSegment μ)) : Prop :=
  List.Forall₂ (fun s s' => List.Forall₂ R s.entries s'.entries) segments segments'

theorem Restated.inBounds {R : AsEntry → AsEntry → Prop} (h : Restated R segments segments')
    (hranges : List.Forall₂ (fun s r => r.InBounds s) segments ranges) :
    List.Forall₂ (fun s r => r.InBounds s) segments' ranges := by
  refine forall₂_of_common h hranges ?_
  rintro s s' r hentries ⟨positions, hpositions, hbounds⟩
  have hlength : s'.length = s.length := hentries.length_eq.symm
  refine ⟨positions, hpositions, ?_⟩
  rw [hlength]
  exact hbounds

theorem Restated.entryOf {R : AsEntry → AsEntry → Prop} (h : Restated R segments segments')
    {place : Place} {entry entry' : AsEntry}
    (hentry : PathMetadata.entryOf segments place = some entry)
    (hentry' : PathMetadata.entryOf segments' place = some entry') : R entry entry' := by
  obtain ⟨s, hs, hentry⟩ := Option.bind_eq_some_iff.1 hentry
  obtain ⟨s', hs', hentry'⟩ := Option.bind_eq_some_iff.1 hentry'
  obtain ⟨_, hsome, hentries⟩ := exists_getElem?_of_forall₂ h hs
  cases hs'.symm.trans hsome
  obtain ⟨_, hsome, hR⟩ := exists_getElem?_of_forall₂ hentries hentry
  cases hentry'.symm.trans hsome
  exact hR

theorem VisitAt.ext {count : Nat} {place : Place} {v v' : Visit}
    (h : VisitAt segments count place v) (h' : VisitAt segments' count place v')
    (hentry : v.entry = v'.entry) : v = v' := by
  have hreversed : v.reversed = v'.reversed := h.reversed_eq.trans h'.reversed_eq.symm
  have htransit : v.transit = v'.transit := h.transit_eq.trans h'.transit_eq.symm
  exact Visit.mk.injEq .. ▸ ⟨hentry, hreversed, htransit⟩

end PathMetadata

/-- Entries that differ in nothing but what their AS says. -/
def AsEntry.SameButInfo (entry entry' : AsEntry) : Prop :=
  { entry with staticInfo := none } = { entry' with staticInfo := none }

/-- An entry, possibly with empty info where there was none. -/
def AsEntry.Fills (entry entry' : AsEntry) : Prop :=
  entry' = entry ∨ entry.staticInfo = none ∧ entry' = { entry with staticInfo := some {} }

theorem AsEntry.Fills.sameButInfo {entry entry' : AsEntry} (h : entry.Fills entry') :
    entry.SameButInfo entry' := by
  rcases h with rfl | ⟨_, rfl⟩
  · rfl
  · rfl

theorem Visit.info_eq_of_fills {v v' : Visit} (h : v.entry.Fills v'.entry) :
    v.info = v'.info := by
  rw [info, info]
  rcases h with hsame | ⟨hnone, hempty⟩
  · rw [hsame]
  · rw [hempty, hnone]
    rfl

namespace PathMetadata

variable {segments segments' : List (PathSegment μ)} {ranges : List SegmentRange}

theorem VisitAt.bare_eq {count : Nat} {place : Place} {v v' : Visit}
    (h : VisitAt segments count place v) (h' : VisitAt segments' count place v')
    (hentry : v.entry.SameButInfo v'.entry) : v.bare = v'.bare := by
  rw [Visit.bare, Visit.bare, h.reversed_eq.trans h'.reversed_eq.symm,
    h.transit_eq.trans h'.transit_eq.symm]
  exact congrArg (Visit.mk · _ _) hentry

/-- For ranges within their segments there is metadata that is aligned with the visits. However the
ASes of the entries are described instead, every visit contributes as much as before, and the same
as before unless it is its own AS that is described otherwise. An AS that says nothing may as well
say something without any values. -/
theorem collect_aligned (h : List.Forall₂ (fun s r => r.InBounds s) segments ranges) :
    ∃ vs m, visits segments ranges = .ok vs ∧
      List.Forall₂ (VisitAt segments ranges.length) (places ranges) vs ∧
      collect segments ranges = .ok m ∧ m = join (contributions none vs) ∧ Aligned vs m ∧
      (∀ segments', Restated AsEntry.SameButInfo segments segments' →
        ∃ vs' m', visits segments' ranges = .ok vs' ∧
          collect segments' ranges = .ok m' ∧ m' = join (contributions none vs') ∧
          m'.sizes = m.sizes ∧
          (contributions none vs').map sizes = (contributions none vs).map sizes ∧
          ∀ (i : Nat) place, (places ranges)[i]? = some place →
            entryOf segments' place = entryOf segments place →
            (contributions none vs')[i]? = (contributions none vs)[i]?) ∧
      ∀ segments', Restated AsEntry.Fills segments segments' →
        collect segments' ranges = .ok m := by
  obtain ⟨vs, hvisits, hplaces⟩ := visits_of_inBounds h
  have hcollect : collect segments ranges = .ok (ofVisits none vs) := by
    rw [collect, hvisits]
    rfl
  refine ⟨vs, _, hvisits, hplaces, hcollect, ofVisits_eq_join none vs, aligned_ofVisits vs, ?_, ?_⟩
  · intro segments' hrestated
    obtain ⟨vs', hvisits', hplaces'⟩ := visits_of_inBounds (hrestated.inBounds h)
    have hbare : vs.map Visit.bare = vs'.map Visit.bare := by
      rw [← List.forall₂_eq_eq_eq, List.forall₂_map_left_iff, List.forall₂_map_right_iff]
      refine forall₂_of_common hplaces hplaces' ?_
      intro place v v' hv hv'
      exact hv.bare_eq hv' (hrestated.entryOf hv.entry_eq hv'.entry_eq)
    have hsizes := map_sizes_contributions_congr hbare.symm none
    refine ⟨vs', ofVisits none vs', hvisits', by rw [collect, hvisits']; rfl,
      ofVisits_eq_join none vs', ?_, hsizes, ?_⟩
    · rw [ofVisits_eq_join, ofVisits_eq_join]
      exact sizes_join_congr hsizes
    · intro i place hplace hentry
      obtain ⟨v, hv, hat⟩ := exists_getElem?_of_forall₂ hplaces hplace
      obtain ⟨v', hv', hat'⟩ := exists_getElem?_of_forall₂ hplaces' hplace
      rw [hat.entry_eq, hat'.entry_eq, Option.some.injEq] at hentry
      refine getElem?_contributions_congr hbare.symm ?_ none
      rw [hv, hv', hat'.ext hat hentry]
  · intro segments' hrestated
    obtain ⟨vs', hvisits', hplaces'⟩ := visits_of_inBounds (hrestated.inBounds h)
    have hsame : List.Forall₂ (fun v v' : Visit => v.bare = v'.bare ∧ v.info = v'.info) vs vs' := by
      refine forall₂_of_common hplaces hplaces' ?_
      intro place v v' hv hv'
      have hfills := hrestated.entryOf hv.entry_eq hv'.entry_eq
      exact ⟨hv.bare_eq hv' hfills.sameButInfo, Visit.info_eq_of_fills hfills⟩
    rw [collect, hvisits', ofVisits_eq_join, contributions_congr hsame, ← ofVisits_eq_join]
    rfl

/-- A segment from a core AS, of which only the AS at the end says something. -/
def outspokenDown : PathSegment Unit :=
  .plain .down (.plain 1 0x110 0 2)
    [.plain 1 0x111 1 3, { AsEntry.plain 1 0x112 4 0 with staticInfo := some { note := "leaf" } }]

theorem collect_aligned_outspokenDown :
    List.Forall₂ (fun s r => SegmentRange.InBounds s r) [outspokenDown, outspokenDown]
      [⟨0, 2, -1, -1⟩, ⟨1, 0, 2, 1⟩] ∧
    ∃ vs m, visits [outspokenDown, outspokenDown] [⟨0, 2, -1, -1⟩, ⟨1, 0, 2, 1⟩] = .ok vs ∧
      collect [outspokenDown, outspokenDown] [⟨0, 2, -1, -1⟩, ⟨1, 0, 2, 1⟩] = .ok m ∧
      Aligned vs m := by
  have hup : SegmentRange.InBounds outspokenDown ⟨0, 2, -1, -1⟩ := ⟨[2, 1, 0], rfl, by decide⟩
  have hdown : SegmentRange.InBounds outspokenDown ⟨1, 0, 2, 1⟩ := ⟨[0, 1], rfl, by decide⟩
  have hbounds := List.Forall₂.cons hup (.cons hdown .nil)
  obtain ⟨vs, m, hvisits, _, hcollect, _, haligned, _⟩ := collect_aligned hbounds
  exact ⟨hbounds, vs, m, hvisits, hcollect, haligned⟩

end PathMetadata

end PathAssembly

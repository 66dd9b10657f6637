import Mathlib.Order.Bounds.Basic
import PathAssembly.Proofs.Path.Assembly

/-!
# The limits of a path

How large a packet may be on a path and when the path expires is decided by the legs alone that its
header is made of: by the time of each segment, which its info field carries, and by the entries
whose hop fields are encoded. What a truncation leaves out has no part in it.
-/

namespace PathAssembly

variable {μ : Type}

theorem isLeast_of_min?_eq {values : List Int} {m : Int} {P : Int → Prop}
    (hvalues : ∀ x, P x ↔ x ∈ values) (h : values.min? = some m) : IsLeast {x | P x} m := by
  obtain ⟨hmem, hle⟩ := List.min?_eq_some_iff.1 h
  exact ⟨(hvalues m).2 hmem, fun x hx => hle x ((hvalues x).1 hx)⟩

namespace Leg

def slot (leg : Leg) : UInt32 × List AsEntry := (leg.info.timestamp, leg.entries)

/-- What is computed from the time and the entries does not depend on anything else. -/
theorem flatMap_congr_slot {f : Leg → List Int}
    (hf : ∀ leg leg' : Leg, leg.slot = leg'.slot → f leg = f leg') {legs legs' : List Leg}
    (h : legs.map slot = legs'.map slot) : legs.flatMap f = legs'.flatMap f := by
  induction legs generalizing legs' with
  | nil =>
      rw [List.map_nil, eq_comm, List.map_eq_nil_iff] at h
      rw [h]
  | cons leg legs ih =>
      rw [List.map_cons, eq_comm, List.map_eq_cons_iff] at h
      obtain ⟨leg', rest, rfl, hleg, hrest⟩ := h
      rw [List.flatMap_cons, List.flatMap_cons, hf leg leg' hleg.symm, ih hrest.symm]

theorem mtus_congr {leg leg' : Leg} (h : leg.slot = leg'.slot) : leg.mtus = leg'.mtus := by
  rw [mtus, mtus, (Prod.mk.inj h).2]

theorem expirations_congr {leg leg' : Leg} (h : leg.slot = leg'.slot) :
    leg.expirations = leg'.expirations := by
  rw [expirations, expirations, (Prod.mk.inj h).1, (Prod.mk.inj h).2]

theorem mem_mtus_iff {leg : Leg} {m : Int} : m ∈ leg.mtus ↔
    ∃ entry ∈ leg.entries,
      m = entry.mtu.toNat ∨ entry.ingressMtu ≠ 0 ∧ m = entry.ingressMtu.toNat := by
  rw [mtus, List.mem_flatMap]
  refine exists_congr fun entry => and_congr_right fun _ => ?_
  rw [List.mem_cons]
  split_ifs with hingress
  · simp [hingress]
  · simp [hingress]

/-- The hop fields and the info field of a leg tell when it expires. -/
theorem expirations_eq (leg : Leg) : leg.expirations
    = leg.hops.map fun hop => hopExpiration leg.infoField.timestamp hop.expiry := by
  rw [expirations, hops, List.map_map]
  rfl

end Leg

/-- What the hop fields of a header of legs say about their expirations is what the legs say. -/
theorem PathHeader.mem_expirations_ofLegs_iff {legs : List Leg} {e : Int} :
    (∃ slot info hops hop, (ofLegs (Leg.counts legs) legs).padded.infos[slot]? = some info ∧
      (ofLegs (Leg.counts legs) legs).padded.segmentHops slot = .ok hops ∧ hop ∈ hops ∧
      e = hopExpiration info.timestamp hop.expiry) ↔ e ∈ legs.flatMap Leg.expirations := by
  have hinfos : (ofLegs (Leg.counts legs) legs).padded.infos = legs.map Leg.infoField := rfl
  simp only [hinfos, List.getElem?_map, Option.map_eq_some_iff, List.mem_flatMap]
  constructor
  · rintro ⟨slot, _, hops, hop, ⟨leg, hleg, rfl⟩, hhops, hhop, rfl⟩
    rw [segmentHops_ofLegs hleg] at hhops
    cases hhops
    refine ⟨leg, List.mem_of_getElem? hleg, ?_⟩
    rw [leg.expirations_eq]
    exact List.mem_map.2 ⟨hop, hhop, rfl⟩
  · rintro ⟨leg, hleg, he⟩
    obtain ⟨slot, hslot⟩ := List.mem_iff_getElem?.1 hleg
    rw [leg.expirations_eq] at he
    obtain ⟨hop, hhop, rfl⟩ := List.mem_map.1 he
    exact ⟨slot, _, leg.hops, hop, ⟨leg, hslot, rfl⟩, segmentHops_ofLegs hslot, hhop, rfl⟩

/-- The legs that are left of a candidate: its segments are oriented from the local AS on, they are
truncated, and what is left over is read. -/
def Candidate.Uses (c : Candidate μ) (topology : Topology) (legs : List Leg) : Prop :=
  ∃ ranges used, PathSegment.orient topology.isdAs c.segments = some ranges ∧
    (truncate c.segments ranges c.source c.destination).result = .ok used ∧
    ((used.segments.zip used.ranges).mapM fun (s, r) => Leg.ofRange s r) = .ok legs

/-- A path expires with the first of the hop fields that its octets hold, and a packet on it may be
as large as the local AS, the ASes of these hop fields and their links of entry allow. -/
structure BuiltPath.Limited (topology : Topology) (path : BuiltPath Unit) (legs : List Leg)
    (header : PathHeader) : Prop where
  decode_raw : PathHeader.decode path.raw = .ok header
  infos_eq : header.infos = legs.map Leg.infoField
  segmentHops_eq : ∀ slot leg, legs[slot]? = some leg → header.segmentHops slot = .ok leg.hops
  hops_eq : header.hops = legs.flatMap Leg.hops
  expiration_isLeast : IsLeast {e | ∃ slot info hops hop, header.infos[slot]? = some info ∧
    header.segmentHops slot = .ok hops ∧ hop ∈ hops ∧
    e = hopExpiration info.timestamp hop.expiry} path.expiration
  mtu_isLeast : IsLeast {m | m = topology.mtu ∨ ∃ leg ∈ legs, ∃ entry ∈ leg.entries,
    m = entry.mtu.toNat ∨ entry.ingressMtu ≠ 0 ∧ m = entry.ingressMtu.toNat} path.mtu

namespace Candidate

theorem Uses.unique {c : Candidate μ} {topology : Topology} {legs legs' : List Leg}
    (h : c.Uses topology legs) (h' : c.Uses topology legs') : legs = legs' := by
  obtain ⟨ranges, used, horient, hused, hlegs⟩ := h
  obtain ⟨ranges', used', horient', hused', hlegs'⟩ := h'
  obtain rfl : ranges = ranges' := Option.some.inj (horient.symm.trans horient')
  obtain rfl : used = used' := Except.ok.inj (hused.symm.trans hused')
  exact Except.ok.inj (hlegs.symm.trans hlegs')

theorem Uses.ne_nil {c : Candidate μ} {topology : Topology} {legs : List Leg}
    (h : c.Uses topology legs) : c.segments ≠ [] := by
  rintro hnil
  obtain ⟨ranges, used, _, hused, _⟩ := h
  rw [hnil] at hused
  cases hused

namespace Assembles

variable {c : Candidate μ} {topology : Topology} {ranges : List SegmentRange} {used : Truncated μ}
  {path : BuiltPath Unit}

theorem uses (h : c.Assembles topology ranges used path) :
    c.Uses topology (Leg.alongAll used.segments used.ranges) :=
  ⟨ranges, used, h.oriented, h.truncated, Leg.mapM_ofRange_eq_ok h.fits⟩

/-- The limits of a path are computed from its legs. -/
theorem limits_eq (h : c.Assembles topology ranges used path) {legs : List Leg}
    (hlegs : c.Uses topology legs) :
    (topology.mtu :: legs.flatMap Leg.mtus).min? = some path.mtu ∧
      path.expiration = (legs.flatMap Leg.expirations).min?.getD 0 := by
  obtain rfl := hlegs.unique h.uses
  obtain ⟨_, _, hmtu, hexpiration, _⟩ := BuiltPath.ofRanges_eq_ok h.fits h.built
  rw [List.min?_cons', hmtu]
  exact ⟨rfl, hexpiration⟩

theorem min?_expirations (h : c.Assembles topology ranges used path) {legs : List Leg}
    (hlegs : c.Uses topology legs) :
    (legs.flatMap Leg.expirations).min? = some path.expiration := by
  have hexpiration := (h.limits_eq hlegs).2
  obtain rfl := hlegs.unique h.uses
  have hsome : Leg.alongAll used.segments used.ranges ≠ [] := by
    rw [← List.length_pos_iff, Leg.length_alongAll h.fits, List.length_pos_iff]
    exact h.truncates.ne_nil
  obtain ⟨leg, hleg⟩ := List.exists_mem_of_ne_nil _ hsome
  cases hmin : ((Leg.alongAll used.segments used.ranges).flatMap Leg.expirations).min? with
  | none =>
      rw [List.min?_eq_none_iff, List.flatMap_eq_nil_iff] at hmin
      have hnil : leg.entries = [] := List.map_eq_nil_iff.1 (hmin leg hleg)
      exact absurd hnil (List.length_pos_iff.1 (h.countable leg hleg).1)
  | some expiration =>
      rw [hexpiration, hmin, Option.getD_some]

/-- The header of a path holds what its limits are the least of. -/
theorem limited (h : c.Assembles topology ranges used path) {legs : List Leg}
    (hlegs : c.Uses topology legs) : ∃ header, path.Limited topology legs header := by
  have hmtu := (h.limits_eq hlegs).1
  have hexpiration := h.min?_expirations hlegs
  obtain rfl := hlegs.unique h.uses
  refine ⟨_, h.decode_raw.1, rfl, fun slot leg hleg => PathHeader.segmentHops_ofLegs hleg, rfl,
    isLeast_of_min?_eq (fun e => PathHeader.mem_expirations_ofLegs_iff) hexpiration,
    isLeast_of_min?_eq (fun m => ?_) hmtu⟩
  rw [List.mem_cons, List.mem_flatMap]
  exact or_congr_right (exists_congr fun leg => and_congr_right fun _ => Leg.mem_mtus_iff.symm)

end Assembles

/-- The largest packet and the expiration of a path are the least that the hop fields in its header
allow, and they are the same on every other path with the same times and entries, whatever its
candidate leaves out. -/
theorem build_limited {c : Candidate μ} {topology : Topology} {now : Int}
    {path : BuiltPath Unit} (hne : c.segments ≠ [])
    (h : (c.build topology now).result = .ok (some path)) :
    ∃ legs header, c.Uses topology legs ∧ path.Limited topology legs header ∧
      ∀ {ν : Type} (d : Candidate ν) (topology' : Topology) (now' : Int) (legs' : List Leg)
        (path' : BuiltPath Unit), d.Uses topology' legs' →
        (d.build topology' now').result = .ok (some path') → topology'.mtu = topology.mtu →
        legs'.map Leg.slot = legs.map Leg.slot →
        path'.mtu = path.mtu ∧ path'.expiration = path.expiration := by
  obtain ⟨ranges, used, hused⟩ := assembles_of_build hne h
  obtain ⟨header, hlimited⟩ := hused.limited hused.uses
  refine ⟨_, header, hused.uses, hlimited, ?_⟩
  intro ν d topology' now' legs' path' hlegs hpath hmtu hslots
  obtain ⟨ranges', used', hused'⟩ := assembles_of_build hlegs.ne_nil hpath
  obtain ⟨hmtu', hexpiration'⟩ := hused'.limits_eq hlegs
  obtain ⟨hleast, hexpiration⟩ := hused.limits_eq hused.uses
  rw [hmtu, Leg.flatMap_congr_slot (fun _ _ => Leg.mtus_congr) hslots, hleast] at hmtu'
  rw [Leg.flatMap_congr_slot (fun _ _ => Leg.expirations_congr) hslots, ← hexpiration]
    at hexpiration'
  exact ⟨(Option.some.inj hmtu').symm, hexpiration'⟩

theorem build_limited_viaShortcut : viaShortcut.segments ≠ [] ∧
    ∃ path, (viaShortcut.build leafTopology 0).result = .ok (some path) ∧
      ∃ legs header, viaShortcut.Uses leafTopology legs ∧
        path.Limited leafTopology legs header := by
  have hne : viaShortcut.segments ≠ [] := List.cons_ne_nil _ _
  obtain ⟨path, hpath⟩ := exists_build_viaShortcut
  obtain ⟨legs, header, huses, hlimited, _⟩ := build_limited hne hpath
  exact ⟨hne, path, hpath, legs, header, huses, hlimited⟩

end Candidate

end PathAssembly

import Mathlib.Data.List.Forall2
import Mathlib.Data.List.SplitBy
import PathAssembly.Path.Metadata

/-!
# What a visited entry contributes

Every traversed entry contributes on its own, and how much it contributes does not depend on what
its AS says. Placeholders are written by a rule of their own, in another order; they are
nevertheless what an AS contributes that says something without any values
(`Visit.placeholders_eq`). The rest follows for one list after the other, by induction on the
visits.
-/

namespace PathAssembly

namespace Visit

def bare (v : Visit) : Visit := { v with entry := { v.entry with staticInfo := none } }

/-- What the AS of an entry says about itself, if only that it says nothing. -/
def info (v : Visit) : StaticInfo := v.entry.staticInfo.getD {}

/-- The placeholders of an entry are what it contributes with nothing to say. -/
theorem placeholders_eq (v : Visit) (newAs : Bool) :
    v.placeholders newAs = v.described {} newAs := by
  simp only [placeholders, described, linkPart, entryPart, kindPart, transitPart, notePart]
  split <;> split <;> split <;> split <;> split <;> rfl

theorem metadata_eq (v : Visit) (newAs : Bool) : v.metadata newAs = v.described v.info newAs := by
  rw [metadata, info]
  cases v.entry.staticInfo with
  | none => exact v.placeholders_eq newAs
  | some info => rfl

end Visit

/-- A stretch of the way: the link behind an entry, or the way through its AS. -/
inductive Stretch where
  | link (v : Visit)
  | through (v : Visit)

namespace Stretch

def latency : Stretch → Int
  | link v => Visit.millis (v.info.latencyInter.get? v.entry.hop.egress.toNat)
  | through v => Visit.millis (Visit.anyValue v.info.latencyIntra)

def bandwidth : Stretch → Int
  | link v => (v.info.bandwidthInter.get? v.entry.hop.egress.toNat).getD 0
  | through v => (Visit.anyValue v.info.bandwidthIntra).getD 0

end Stretch

namespace Visit

/-- The stretches of an entry in the order of traversal. -/
def stretches (v : Visit) : List Stretch :=
  let link := if v.entry.hop.egress = 0 then [] else [.link v]
  let through := if v.transit then [.through v] else []
  if v.reversed then link ++ through else through ++ link

def locations (v : Visit) : List GeoCoordinates :=
  let exit := if v.entry.hop.egress = 0 then []
    else [location v.info v.entry.hop.egress.toNat]
  let entry := if v.entry.hop.ingress = 0 then []
    else [location v.info v.entry.hop.ingress.toNat]
  if v.reversed then exit ++ entry else entry ++ exit

def throughHops (v : Visit) : List Int :=
  if v.transit then [(anyValue v.info.internalHops).getD 0] else []

/-- What an entry contributes to each list. -/
theorem metadata_eq_fields (v : Visit) (newAs : Bool) : v.metadata newAs =
    { latency := v.stretches.map Stretch.latency
      bandwidth := v.stretches.map Stretch.bandwidth
      geo := v.locations
      linkType := if v.entry.hop.ingress = 0 then []
        else [(anyValue v.info.linkType).getD .unspecified]
      internalHops := v.throughHops
      notes := if newAs then [v.info.note] else [] } := by
  rw [metadata_eq]
  simp only [described, linkPart, entryPart, kindPart, transitPart, notePart, stretches, locations,
    throughHops]
  split <;> split <;> split <;> split <;> split <;> rfl

theorem length_stretches (v : Visit) : v.stretches.length
    = (if v.entry.hop.egress ≠ 0 then 1 else 0) + if v.transit then 1 else 0 := by
  rw [stretches]
  split <;> split <;> split <;> simp_all

theorem length_locations (v : Visit) : v.locations.length
    = (if v.entry.hop.ingress ≠ 0 then 1 else 0) + if v.entry.hop.egress ≠ 0 then 1 else 0 := by
  rw [locations]
  split <;> split <;> split <;> simp_all

theorem length_throughHops (v : Visit) : v.throughHops.length = if v.transit then 1 else 0 := by
  rw [throughHops]
  split <;> rfl

theorem length_flatMap_throughHops (vs : List Visit) :
    (vs.flatMap throughHops).length = vs.countP (·.transit) := by
  induction vs with
  | nil => rfl
  | cons v vs ih =>
      rw [List.flatMap_cons, List.length_append, ih, length_throughHops, List.countP_cons]
      exact Nat.add_comm ..

/-- What an entry contributes depends on nothing but what its AS says and on the rest of it. -/
theorem metadata_congr {v v' : Visit} (hbare : v.bare = v'.bare) (hinfo : v.info = v'.info)
    (newAs : Bool) : v.metadata newAs = v'.metadata newAs := by
  have hdescribed : ∀ (v : Visit) (info : StaticInfo),
      v.described info newAs = v.bare.described info newAs := fun _ _ => rfl
  rw [metadata_eq, metadata_eq, hdescribed v, hdescribed v', hbare, hinfo]

end Visit

namespace PathMetadata

variable {previous : Option IsdAs} {vs vs' : List Visit}

def sizes (m : PathMetadata) : List Nat :=
  [m.latency.length, m.bandwidth.length, m.geo.length, m.linkType.length, m.internalHops.length,
    m.notes.length]

def join (parts : List PathMetadata) : PathMetadata := parts.foldr (· ++ ·) {}

/-- What each of the visits behind an entry of the AS `previous` contributes. -/
def contributions (previous : Option IsdAs) : List Visit → List PathMetadata
  | [] => []
  | v :: rest =>
    v.metadata (previous != some v.entry.isdAs) :: contributions (some v.entry.isdAs) rest

theorem ofVisits_eq_join (previous : Option IsdAs) (vs : List Visit) :
    ofVisits previous vs = join (contributions previous vs) := by
  induction vs generalizing previous with
  | nil => rfl
  | cons v rest ih =>
      rw [ofVisits, contributions, ih]
      rfl

theorem sizes_append (a b : PathMetadata) : (a ++ b).sizes = a.sizes.zipWith (· + ·) b.sizes := by
  simp [sizes]

theorem sizes_join_congr {parts parts' : List PathMetadata}
    (h : parts.map sizes = parts'.map sizes) : (join parts).sizes = (join parts').sizes := by
  induction parts generalizing parts' with
  | nil =>
      rw [List.map_nil, eq_comm, List.map_eq_nil_iff] at h
      rw [h]
  | cons part parts ih =>
      rw [List.map_cons, eq_comm, List.map_eq_cons_iff] at h
      obtain ⟨part', rest, rfl, hpart, hrest⟩ := h
      change (part ++ join parts).sizes = (part' ++ join rest).sizes
      rw [sizes_append, sizes_append, hpart, ih hrest.symm]

/-- How much an entry contributes does not depend on what its AS says. -/
theorem sizes_metadata (v : Visit) (newAs : Bool) : (v.metadata newAs).sizes =
    [(if v.entry.hop.egress ≠ 0 then 1 else 0) + if v.transit then 1 else 0,
      (if v.entry.hop.egress ≠ 0 then 1 else 0) + if v.transit then 1 else 0,
      (if v.entry.hop.ingress ≠ 0 then 1 else 0) + if v.entry.hop.egress ≠ 0 then 1 else 0,
      if v.entry.hop.ingress ≠ 0 then 1 else 0, if v.transit then 1 else 0,
      if newAs then 1 else 0] := by
  rw [Visit.metadata_eq_fields, sizes, List.length_map, List.length_map, v.length_stretches,
    v.length_locations, v.length_throughHops, apply_ite List.length, apply_ite List.length]
  simp only [ite_not]
  rfl

theorem sizes_metadata_congr {v v' : Visit} (h : v.bare = v'.bare) (newAs : Bool) :
    (v.metadata newAs).sizes = (v'.metadata newAs).sizes := by
  have hbare : ∀ v : Visit, (v.metadata newAs).sizes = (v.bare.metadata newAs).sizes := by
    intro v
    rw [sizes_metadata, sizes_metadata]
    rfl
  rw [hbare v, hbare v', h]

theorem map_sizes_contributions_congr (h : vs.map Visit.bare = vs'.map Visit.bare)
    (previous : Option IsdAs) :
    (contributions previous vs).map sizes = (contributions previous vs').map sizes := by
  induction vs generalizing vs' previous with
  | nil =>
      rw [List.map_nil, eq_comm, List.map_eq_nil_iff] at h
      rw [h]
  | cons v vs ih =>
      rw [List.map_cons, eq_comm, List.map_eq_cons_iff] at h
      obtain ⟨v', rest, rfl, hv, hrest⟩ := h
      have hisdAs : v'.entry.isdAs = v.entry.isdAs := congrArg (·.entry.isdAs) hv
      rw [contributions, contributions, List.map_cons, List.map_cons, hisdAs,
        sizes_metadata_congr hv.symm, ih hrest.symm]

/-- A visit that stays the same contributes the same, whatever becomes of what the ASes of other
entries say. -/
theorem getElem?_contributions_congr (h : vs.map Visit.bare = vs'.map Visit.bare) {i : Nat}
    (hi : vs[i]? = vs'[i]?) (previous : Option IsdAs) :
    (contributions previous vs)[i]? = (contributions previous vs')[i]? := by
  induction vs generalizing vs' previous i with
  | nil =>
      rw [List.map_nil, eq_comm, List.map_eq_nil_iff] at h
      rw [h]
  | cons v vs ih =>
      rw [List.map_cons, eq_comm, List.map_eq_cons_iff] at h
      obtain ⟨v', rest, rfl, hv, hrest⟩ := h
      have hisdAs : v'.entry.isdAs = v.entry.isdAs := congrArg (·.entry.isdAs) hv
      rw [contributions, contributions, hisdAs]
      cases i with
      | zero =>
          rw [List.getElem?_cons_zero, List.getElem?_cons_zero, Option.some.injEq] at hi
          rw [hi]
          rfl
      | succ i => exact ih hrest.symm hi _

theorem contributions_congr (h : List.Forall₂ (fun v v' : Visit => v.bare = v'.bare ∧
    v.info = v'.info) vs vs') (previous : Option IsdAs) :
    contributions previous vs = contributions previous vs' := by
  induction h generalizing previous with
  | nil => rfl
  | @cons v v' _ _ hv _ ih =>
      have hisdAs : v.entry.isdAs = v'.entry.isdAs := congrArg (·.entry.isdAs) hv.1
      rw [contributions, contributions, hisdAs, Visit.metadata_congr hv.1 hv.2, ih]

/-- How many ASes are entered on the way behind the AS `previous`. -/
def enteredAses (previous : Option IsdAs) : List IsdAs → Nat
  | [] => 0
  | isdAs :: rest => (if previous = some isdAs then 0 else 1) + enteredAses (some isdAs) rest

/-- Runs of the same AS end where another AS is entered. -/
theorem length_splitBy_loop (ases : List IsdAs) (isdAs : IsdAs) (run : List IsdAs)
    (runs : List (List IsdAs)) : (List.splitBy.loop (· == ·) ases isdAs run runs).length
      = runs.length + 1 + enteredAses (some isdAs) ases := by
  induction ases generalizing isdAs run runs with
  | nil => simp [List.splitBy.loop, enteredAses]
  | cons next rest ih =>
      rw [List.splitBy.loop, enteredAses]
      by_cases h : isdAs = next
      · rw [h, beq_self_eq_true, if_pos rfl, Nat.zero_add]
        exact ih ..
      · rw [beq_eq_false_iff_ne.2 h, if_neg fun hsome => h (Option.some.inj hsome)]
        change (List.splitBy.loop _ rest next [] _).length = _
        rw [ih, List.length_cons]
        omega

theorem enteredAses_none (ases : List IsdAs) :
    enteredAses none ases = (ases.splitBy (· == ·)).length := by
  cases ases with
  | nil => rfl
  | cons isdAs rest =>
      rw [List.splitBy, length_splitBy_loop, enteredAses, if_neg (Option.some_ne_none isdAs).symm]
      rfl

/-- The six lists hold what they should hold for the visits, in their order. -/
structure Aligned (vs : List Visit) (m : PathMetadata) : Prop where
  latency_eq : m.latency = (vs.flatMap Visit.stretches).map Stretch.latency
  bandwidth_eq : m.bandwidth = (vs.flatMap Visit.stretches).map Stretch.bandwidth
  length_latency : m.latency.length
    = vs.countP (fun v => v.entry.hop.egress ≠ 0) + vs.countP (fun v => v.transit)
  length_bandwidth : m.bandwidth.length
    = vs.countP (fun v => v.entry.hop.egress ≠ 0) + vs.countP (fun v => v.transit)
  length_geo : m.geo.length = vs.countP (fun v => v.entry.hop.ingress ≠ 0)
    + vs.countP (fun v => v.entry.hop.egress ≠ 0)
  length_linkType : m.linkType.length = vs.countP (fun v => v.entry.hop.ingress ≠ 0)
  length_internalHops : m.internalHops.length = vs.countP (fun v => v.transit)
  length_notes : m.notes.length = ((vs.map (·.entry.isdAs)).splitBy (· == ·)).length

/-- A list that does not depend on whether an AS is new is joined from the parts of the visits. -/
theorem ofVisits_eq_flatMap {α : Type} {field : PathMetadata → List α} {part : Visit → List α}
    (hnone : field {} = []) (happend : ∀ a b : PathMetadata, field (a ++ b) = field a ++ field b)
    (hpart : ∀ (v : Visit) (newAs : Bool), field (v.metadata newAs) = part v)
    (previous : Option IsdAs) (vs : List Visit) :
    field (ofVisits previous vs) = vs.flatMap part := by
  induction vs generalizing previous with
  | nil => exact hnone
  | cons v rest ih => rw [ofVisits, happend, hpart, ih, List.flatMap_cons]

theorem latency_ofVisits (previous : Option IsdAs) (vs : List Visit) :
    (ofVisits previous vs).latency = (vs.flatMap Visit.stretches).map Stretch.latency := by
  rw [List.map_flatMap]
  exact ofVisits_eq_flatMap rfl latency_append (fun v _ => by rw [v.metadata_eq_fields]) previous vs

theorem bandwidth_ofVisits (previous : Option IsdAs) (vs : List Visit) :
    (ofVisits previous vs).bandwidth = (vs.flatMap Visit.stretches).map Stretch.bandwidth := by
  rw [List.map_flatMap]
  exact ofVisits_eq_flatMap rfl bandwidth_append (fun v _ => by rw [v.metadata_eq_fields])
    previous vs

theorem internalHops_ofVisits (previous : Option IsdAs) (vs : List Visit) :
    (ofVisits previous vs).internalHops = vs.flatMap Visit.throughHops :=
  ofVisits_eq_flatMap rfl internalHops_append (fun v _ => by rw [v.metadata_eq_fields]) previous vs

/-- The sizes of the lists are sums of what the visits contribute. -/
theorem sizes_ofVisits (previous : Option IsdAs) (vs : List Visit) :
    (ofVisits previous vs).sizes =
      [vs.countP (fun v => v.entry.hop.egress ≠ 0) + vs.countP (fun v => v.transit),
        vs.countP (fun v => v.entry.hop.egress ≠ 0) + vs.countP (fun v => v.transit),
        vs.countP (fun v => v.entry.hop.ingress ≠ 0)
          + vs.countP (fun v => v.entry.hop.egress ≠ 0),
        vs.countP (fun v => v.entry.hop.ingress ≠ 0), vs.countP (fun v => v.transit),
        enteredAses previous (vs.map (·.entry.isdAs))] := by
  induction vs generalizing previous with
  | nil => rfl
  | cons v rest ih =>
      rw [ofVisits, sizes_append, ih, sizes_metadata]
      simp only [List.countP_cons, List.map_cons, enteredAses, List.zipWith_cons_cons,
        List.zipWith_nil_left, decide_eq_true_eq, bne_iff_ne, ne_eq, ite_not]
      simp only [List.cons.injEq, and_true]
      omega

theorem aligned_ofVisits (vs : List Visit) : Aligned vs (ofVisits none vs) := by
  have hsizes := sizes_ofVisits none vs
  rw [enteredAses_none] at hsizes
  simp only [sizes, List.cons.injEq] at hsizes
  obtain ⟨hlatency, hbandwidth, hgeo, hlinkType, hinternalHops, hnotes, _⟩ := hsizes
  exact
    { latency_eq := latency_ofVisits none vs
      bandwidth_eq := bandwidth_ofVisits none vs
      length_latency := hlatency
      length_bandwidth := hbandwidth
      length_geo := hgeo
      length_linkType := hlinkType
      length_internalHops := hinternalHops
      length_notes := hnotes }

end PathMetadata

end PathAssembly

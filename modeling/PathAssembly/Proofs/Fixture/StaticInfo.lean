import PathAssembly.Fixture.Reader
import PathAssembly.Fixture.Writer
import PathAssembly.Proofs.Fixture.Record
import PathAssembly.Proofs.OrderedMap

/-!
# Static info in fixtures

Static info is written without what is empty, and what is missing is read as empty, so that it is
read back unchanged. Maps keep the order of their keys.
-/

namespace PathAssembly

theorem readInterfaceMap_entries {ν : Type} (readValue : Value → Except Fault ν)
    (writeValue : ν → Value) (h : ∀ v, readValue (writeValue v) = .ok v) (m : OrderedMap Int ν) :
    readInterfaceMap readValue (m.entries.map fun (k, v) => (.int k, writeValue v)) = .ok m := by
  rw [readInterfaceMap, Outcome.mapM_map_eq_ok ?_, Outcome.ok_bind, OrderedMap.ofList_entries]
  · rfl
  · rintro ⟨k, v⟩ _
    change (readValue (writeValue v) >>= fun read => pure (k, read)) = _
    rw [h v]
    rfl

namespace StaticInfo

def fields (info : StaticInfo) : List (String × Value) := [
  ("latency_inter", writeCounters info.latencyInter),
  ("latency_intra", writeCounters info.latencyIntra),
  ("bandwidth_inter", writeCounters info.bandwidthInter),
  ("bandwidth_intra", writeCounters info.bandwidthIntra),
  ("geo", writeInterfaceMap GeoCoordinates.write info.geo),
  ("link_type", writeInterfaceMap (fun t => Value.text t.label) info.linkType),
  ("internal_hops", writeCounters info.internalHops),
  ("note", .text info.note)]

theorem write_eq (info : StaticInfo) : info.write = .compact info.fields := rfl

theorem nodup_fields (info : StaticInfo) : (info.fields.map Prod.fst).Nodup := by
  change ["latency_inter", "latency_intra", "bandwidth_inter", "bandwidth_intra", "geo",
    "link_type", "internal_hops", "note"].Nodup
  decide

theorem mem_keys_of_mem_fields (info : StaticInfo) : ∀ f ∈ info.fields, f.1 ∈ keys := by
  simp [fields, keys]

variable {fields : List (String × Value)} {key : String}

/-- The pairs of a map, whether the empty map is written or left out. -/
theorem pairs_compact {ν : Type} {writeValue : ν → Value} (hkeys : (fields.map Prod.fst).Nodup)
    {m : OrderedMap Int ν} (h : fields.lookup key = some (writeInterfaceMap writeValue m)) :
    ∃ value, (Value.compact fields).field key = .ok value ∧
      value.optionalPairs? = some (m.entries.map fun (k, v) => (.int k, writeValue v)) := by
  rw [Value.field, Value.field?_compact hkeys, h]
  refine ⟨_, rfl, ?_⟩
  obtain ⟨entries, hentries⟩ := m
  cases entries with
  | nil => rfl
  | cons entry rest => rfl

/-- Counters are read back, the empty ones from nothing. -/
theorem readCounters_compact (hkeys : (fields.map Prod.fst).Nodup) {m : OrderedMap Int Int}
    (h : fields.lookup key = some (writeCounters m)) :
    readCounters (.compact fields) key = .ok m := by
  have hread : readInterfaceMap Value.asInteger
      (m.entries.map fun (k, v) => (.int k, Value.int v)) = .ok m :=
    readInterfaceMap_entries Value.asInteger Value.int (fun _ => rfl) m
  rw [readCounters, Value.field, Value.field?_compact hkeys, h]
  obtain ⟨entries, hentries⟩ := m
  cases entries with
  | nil => rfl
  | cons entry rest => exact hread

theorem readGeo_write (g : GeoCoordinates) : readGeo g.write = .ok g := by
  have hkeys : g.write.checkKeys "geo" geoKeys = .ok () :=
    Value.checkKeys_record (by simp [geoKeys])
  have hlatitude : g.write.numberField "latitude" = .ok g.latitude :=
    Value.numberField_record rfl
  have hlongitude : g.write.numberField "longitude" = .ok g.longitude :=
    Value.numberField_record rfl
  have haddress : g.write.textField "address" = .ok g.address := Value.textField_record rfl
  change (do
    g.write.checkKeys "geo" geoKeys
    let latitude ← g.write.numberField "latitude"
    let longitude ← g.write.numberField "longitude"
    return ({ latitude, longitude, address := ← g.write.textField "address" } : GeoCoordinates))
      = _
  rw [hkeys, hlatitude, hlongitude, haddress]
  rfl

def readLabel (v : Value) : Except Fault LinkType := do LinkType.ofText (← v.asString)

theorem readLabel_label (t : LinkType) : readLabel (.text t.label) = .ok t := by
  rw [readLabel, Value.asString_text, Outcome.ok_bind, LinkType.ofText_label]

theorem read_write (info : StaticInfo) : read info.write = .ok info := by
  have hkeys := info.nodup_fields
  obtain ⟨geo, hgeo, hgeoPairs⟩ :=
    pairs_compact hkeys (rfl : info.fields.lookup "geo" = some (writeInterfaceMap _ info.geo))
  obtain ⟨linkType, hlinkType, hlinkTypePairs⟩ := pairs_compact hkeys
    (rfl : info.fields.lookup "link_type" = some (writeInterfaceMap _ info.linkType))
  rw [write_eq, read, Value.checkKeys_compact info.mem_keys_of_mem_fields, Outcome.ok_bind, hgeo,
    Outcome.ok_bind, hlinkType, Outcome.ok_bind, hgeoPairs, hlinkTypePairs]
  have hlatencyInter : readCounters (.compact info.fields) "latency_inter"
      = .ok info.latencyInter := readCounters_compact hkeys rfl
  have hlatencyIntra : readCounters (.compact info.fields) "latency_intra"
      = .ok info.latencyIntra := readCounters_compact hkeys rfl
  have hbandwidthInter : readCounters (.compact info.fields) "bandwidth_inter"
      = .ok info.bandwidthInter := readCounters_compact hkeys rfl
  have hbandwidthIntra : readCounters (.compact info.fields) "bandwidth_intra"
      = .ok info.bandwidthIntra := readCounters_compact hkeys rfl
  have hinternalHops : readCounters (.compact info.fields) "internal_hops"
      = .ok info.internalHops := readCounters_compact hkeys rfl
  have hgeoMap := readInterfaceMap_entries readGeo GeoCoordinates.write readGeo_write info.geo
  have hlinkTypeMap : readInterfaceMap (fun t => do LinkType.ofText (← t.asString))
      (info.linkType.entries.map fun (k, t) => (.int k, Value.text t.label))
      = .ok info.linkType := readInterfaceMap_entries readLabel _ readLabel_label info.linkType
  have hnote : (Value.compact info.fields).textField "note" = .ok info.note :=
    Value.textField_compact hkeys rfl
  simp only [hlatencyInter, hlatencyIntra, hbandwidthInter, hbandwidthIntra, hinternalHops,
    hgeoMap, hlinkTypeMap, hnote, Outcome.ok_bind]
  rfl

end StaticInfo

end PathAssembly

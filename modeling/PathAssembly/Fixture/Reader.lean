import PathAssembly.Fixture.Record
import PathAssembly.IsdAs.Notation
import PathAssembly.Octets.Hex
import PathAssembly.Segment.Basic
import PathAssembly.Topology

/-!
# Reading fixtures

Static info, entries, segments and topologies from their fixture records. Of several faults the
first one in the order of reading is reported. A segment is marked with the record that it was read
from.
-/

namespace PathAssembly

namespace Value

/-- The identifier of an AS: an integer as it is, anything else by its text. -/
def asIsdAs : Value → Except Fault IsdAs
  | scalar (.int i) => .ok ⟨i⟩
  | scalar (.bool b) => .ok ⟨if b then 1 else 0⟩
  | v => do IsdAs.read (← v.asText)

/-- An authentication code, which must be written as a text: digits without quotes would be read as
a number. -/
def asMac : Value → Except Fault (List UInt8)
  | scalar (.text points) =>
    match (Text.chars? points).bind Octets.ofHex? with
    | none => .error (.macNotHex (Text.joined points))
    | some octets =>
      if octets.length = macLength then .ok octets
      else .error (.macTextLength (Text.joined points))
  | v => do throw (.macNotText (← v.shown))

end Value

def readInterfaceMap {ν : Type} (readValue : Value → Except Fault ν)
    (pairs : List (Scalar × Value)) : Except Fault (OrderedMap Int ν) := do
  return OrderedMap.ofList (← pairs.mapM fun (k, v) => do
    let interface ← k.asInteger
    return (interface, ← readValue v))

namespace StaticInfo

def keys : List String :=
  ["latency_inter", "latency_intra", "bandwidth_inter", "bandwidth_intra", "internal_hops", "geo",
    "link_type", "note"]

def geoKeys : List String := ["latitude", "longitude", "address"]

/-- A map of integers by interface; nothing stands for the empty one. -/
def readCounters (v : Value) (key : String) : Except Fault (OrderedMap Int Int) := do
  match ← v.field key with
  | .scalar .null => return .empty
  | .map pairs => readInterfaceMap Value.asInteger pairs
  | _ => throw (.notMapping key)

def readGeo (v : Value) : Except Fault GeoCoordinates :=
  match v with
  | .map _ => do
    v.checkKeys "geo" geoKeys
    let latitude ← v.numberField "latitude"
    let longitude ← v.numberField "longitude"
    return { latitude, longitude, address := ← v.textField "address" }
  | _ => .error .geoNotMapping

def read (v : Value) : Except Fault StaticInfo := do
  v.checkKeys "static_info" keys
  let geo? := (← v.field "geo").optionalPairs?
  let linkType? := (← v.field "link_type").optionalPairs?
  match geo?, linkType? with
  | some geo, some linkType =>
    let latencyInter ← readCounters v "latency_inter"
    let latencyIntra ← readCounters v "latency_intra"
    let bandwidthInter ← readCounters v "bandwidth_inter"
    let bandwidthIntra ← readCounters v "bandwidth_intra"
    let internalHops ← readCounters v "internal_hops"
    let geo ← readInterfaceMap readGeo geo
    let linkType ← readInterfaceMap (fun t => do LinkType.ofText (← t.asString)) linkType
    let note ← v.textField "note"
    return { latencyInter, latencyIntra, bandwidthInter, bandwidthIntra, geo, linkType,
             internalHops, note }
  | _, _ => throw .geoOrLinkNotMapping

end StaticInfo

namespace AsEntry

def keys : List String :=
  ["isd_as", "ingress", "egress", "mac", "expiry", "mtu", "ingress_mtu", "static_info"]

def defaultExpiry : Int := 63

def readStaticInfo (v : Value) : Except Fault (Option StaticInfo) := do
  match ← v.field "static_info" with
  | .scalar .null => return none
  | .map pairs => return some (← StaticInfo.read (.map pairs))
  | _ => throw (.notMapping "static_info")

def read (v : Value) : Except Fault AsEntry := do
  v.checkKeys "AS entry" keys
  if !(← v.has "isd_as") || !(← v.has "mac") then throw .entryIncomplete
  let ingress ← v.integerField "ingress" 0
  let egress ← v.integerField "egress" 0
  let mac ← (← v.field "mac").asMac
  let expiry ← v.integerField "expiry" defaultExpiry
  let hop ← HopField.ofValues ingress egress mac expiry
  let staticInfo ← readStaticInfo v
  let isdAs ← (← v.field "isd_as").asIsdAs
  let mtu ← v.integerField "mtu" Topology.defaultMtu
  let ingressMtu ← v.integerField "ingress_mtu" 0
  AsEntry.ofValues isdAs hop mtu ingressMtu staticInfo

end AsEntry

namespace PathSegment

def keys : List String :=
  ["query", "type", "seg_id", "timestamp", "construction_direction", "entries"]

/-- The role of a segment; whatever counts as false stands for no known role. -/
def readType (v : Value) : Except Fault SegmentType :=
  if v.truth then
    match v with
    | .scalar (.text points) => SegmentType.ofText (Text.joined points)
    | _ => .error .missingFeature
  else .ok .unspecified

/-- A segment, marked with its record. -/
def read (v : Value) : Except Fault (PathSegment Value) := do
  v.checkKeys "segment" keys
  match ← v.field "entries" with
  | .list (item :: rest) =>
    let type ← v.field "type"
    let entries ← (item :: rest).mapM AsEntry.read
    let segId ← v.integerField "seg_id" 0
    let timestamp ← v.integerField "timestamp" 0
    let direction ← v.truthField "construction_direction" true
    let info ← SegmentInfo.ofValues segId timestamp direction
    PathSegment.ofEntries entries info (← readType type) v
  | _ => throw .entriesMissing

end PathSegment

namespace Topology

def keys : List String := ["isd_as", "core", "mtu", "border_routers"]

def read (v : Value) : Except Fault Topology := do
  v.checkKeys "topology" keys
  if !(← v.has "isd_as") then throw .topologyIncomplete
  match (← v.field "border_routers").optionalPairs? with
  | none => throw (.notMapping "border_routers")
  | some routers =>
    let isdAs ← (← v.field "isd_as").asIsdAs
    let core ← v.truthField "core" false
    let mtu ← v.integerField "mtu" defaultMtu
    let borderRouters ← readInterfaceMap Value.asString routers
    return { isdAs, core, mtu, borderRouters }

end Topology

end PathAssembly

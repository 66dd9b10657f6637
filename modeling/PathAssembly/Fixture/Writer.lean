import PathAssembly.Fixture.Value.Basic
import PathAssembly.IsdAs.Notation
import PathAssembly.Octets.Hex
import PathAssembly.Segment.Basic

/-!
# Writing fixtures

Static info, entries and segments as fixture records. What is empty or has its usual value is left
out.
-/

namespace PathAssembly

def writeInterfaceMap {ν : Type} (writeValue : ν → Value) (m : OrderedMap Int ν) : Value :=
  .map (m.entries.map fun (k, v) => (.int k, writeValue v))

def writeCounters (m : OrderedMap Int Int) : Value := writeInterfaceMap Value.int m

def GeoCoordinates.write (g : GeoCoordinates) : Value :=
  .record [("latitude", .scalar (.float g.latitude)), ("longitude", .scalar (.float g.longitude)),
    ("address", .text g.address)]

def StaticInfo.write (info : StaticInfo) : Value :=
  let fields := [
    ("latency_inter", writeCounters info.latencyInter),
    ("latency_intra", writeCounters info.latencyIntra),
    ("bandwidth_inter", writeCounters info.bandwidthInter),
    ("bandwidth_intra", writeCounters info.bandwidthIntra),
    ("geo", writeInterfaceMap GeoCoordinates.write info.geo),
    ("link_type", writeInterfaceMap (fun t => Value.text t.label) info.linkType),
    ("internal_hops", writeCounters info.internalHops),
    ("note", .text info.note)]
  .record (fields.filter (·.2.truth))

def AsEntry.write (entry : AsEntry) : Value :=
  .record (
    [("isd_as", .text entry.isdAs.render),
      ("ingress", .int entry.hop.ingress.toNat),
      ("egress", .int entry.hop.egress.toNat),
      ("mac", .text (Octets.toHex entry.hop.mac.octets)),
      ("expiry", .int entry.hop.expiry.toNat),
      ("mtu", .int entry.mtu.toNat)]
    ++ (if entry.ingressMtu = 0 then [] else [("ingress_mtu", .int entry.ingressMtu.toNat)])
    ++ match entry.staticInfo with
      | some info => [("static_info", info.write)]
      | none => [])

/-- A segment as a record. The query that returns it is not part of it. -/
def PathSegment.write {μ : Type} (s : PathSegment μ) : Value :=
  .record (
    [("type", .text s.type.label),
      ("seg_id", .int s.info.segId.toNat),
      ("timestamp", .int s.info.timestamp.toNat)]
    ++ (if s.info.constructionDirection then [] else [("construction_direction", .bool false)])
    ++ [("entries", .list (s.entries.map AsEntry.write))])

end PathAssembly

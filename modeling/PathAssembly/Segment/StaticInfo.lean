import PathAssembly.Binary64.Basic
import PathAssembly.OrderedMap
import PathAssembly.Segment.Role

/-!
# Static info

What an AS says about itself in its segment entries. All maps are keyed by interface. Values between
ASes describe the link behind an interface, values inside an AS the way through it towards the
interface.
-/

namespace PathAssembly

/-- Where a border router stands, in degrees north and east. -/
structure GeoCoordinates where
  latitude : Binary64 := .zero
  longitude : Binary64 := .zero
  address : String := ""
  deriving DecidableEq, Repr

def GeoCoordinates.agrees (same : Binary64 → Binary64 → Bool) (a b : GeoCoordinates) : Bool :=
  same a.latitude b.latitude && same a.longitude b.longitude && a.address == b.address

/-- What an AS says about itself, by interface: latencies in microseconds, bandwidths in kilobits
per second. -/
structure StaticInfo where
  latencyInter : OrderedMap Int Int := .empty
  latencyIntra : OrderedMap Int Int := .empty
  bandwidthInter : OrderedMap Int Int := .empty
  bandwidthIntra : OrderedMap Int Int := .empty
  geo : OrderedMap Int GeoCoordinates := .empty
  linkType : OrderedMap Int LinkType := .empty
  internalHops : OrderedMap Int Int := .empty
  note : String := ""
  deriving DecidableEq

/-- Whether two infos say the same, by a relation on numbers; the order of keys does not count. -/
def StaticInfo.agrees (same : Binary64 → Binary64 → Bool) (a b : StaticInfo) : Bool :=
  a.latencyInter.agrees (· == ·) b.latencyInter && a.latencyIntra.agrees (· == ·) b.latencyIntra
    && a.bandwidthInter.agrees (· == ·) b.bandwidthInter
    && a.bandwidthIntra.agrees (· == ·) b.bandwidthIntra
    && a.geo.agrees (GeoCoordinates.agrees same) b.geo
    && a.linkType.agrees (· == ·) b.linkType
    && a.internalHops.agrees (· == ·) b.internalHops && a.note == b.note

end PathAssembly

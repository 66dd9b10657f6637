import PathAssembly.Path.Interface
import PathAssembly.Path.Metadata
import PathAssembly.Text.Quoted

/-!
# Built paths

A path that is ready for use: its header, and what is known about it. Two paths are the same path if
their headers are. Every path carries a mark of the caller's choice that no operation reads.
-/

namespace PathAssembly

/-- A path, with a mark of the caller's choice. The first hop is the address of a border router; it
is empty for the path inside the local AS. -/
structure BuiltPath (μ : Type) where
  raw : List UInt8
  mtu : Int
  expiration : Int
  interfaces : List PathInterface := []
  firstHop : String := ""
  metadata : PathMetadata := {}
  mark : μ
  deriving DecidableEq

namespace BuiltPath

variable {μ : Type}

def samePath (p q : BuiltPath μ) : Bool := p.raw == q.raw

def distinctCount (paths : List (BuiltPath μ)) : Nat := (paths.map (·.raw)).eraseDups.length

def format (p : BuiltPath μ) : Except Fault String := do
  let hops ← PathInterface.formatAll p.interfaces
  return s!"BuiltPath([{hops}], mtu={p.mtu}, expiration={p.expiration}, "
    ++ "first_hop=" ++ Text.quoted p.firstHop ++ ")"

end BuiltPath

end PathAssembly

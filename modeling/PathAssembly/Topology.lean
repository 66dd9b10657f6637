import PathAssembly.IsdAs.Notation
import PathAssembly.OrderedMap

/-!
# The local AS

What a path needs to know about the AS in which it starts: its name, whether it is a core AS, the
largest packet inside it, and which border router owns which interface.
-/

namespace PathAssembly

/-- The local AS, with the addresses of its border routers by interface. -/
structure Topology where
  isdAs : IsdAs
  core : Bool := false
  mtu : Int := 1472
  borderRouters : OrderedMap Int String := .empty
  deriving DecidableEq

namespace Topology

def defaultMtu : Int := 1472

def borderRouter (t : Topology) (interface : Int) : Except Fault String :=
  match t.borderRouters.get? interface with
  | some address => .ok address
  | none => do throw (.noBorderRouter interface (← t.isdAs.format))

end Topology

end PathAssembly

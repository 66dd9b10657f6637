import PathAssembly.Header.Basic

/-!
# Crossed interfaces

The interfaces that a path crosses between consecutive hops. Interfaces on the outer sides of a
segment stand in its hop fields but are never crossed, so that two headers that forward alike may
differ in them.
-/

namespace PathAssembly

/-- The interfaces on both sides of a link: the one of exit and the one of entry. -/
abbrev Crossing := Int × Int

namespace PathHeader

def hopCrossings (constructionDirection : Bool) (hops : List WireHop) : List Crossing :=
  (hops.zip hops.tail).map fun (here, there) =>
    if constructionDirection then (here.egress, there.ingress) else (here.ingress, there.egress)

def crossings (p : PathHeader) : Except Fault (List Crossing) := do
  let links ← (p.infos.zipIdx).mapM fun (info, slot) => do
    return hopCrossings info.constructionDirection (← p.segmentHops slot)
  return links.flatten

end PathHeader

def interfacePairs (raw : List UInt8) : Except Fault (List Crossing) := do
  (← PathHeader.decode raw).crossings

def renderLinks (raw : List UInt8) : Except Fault String := do
  let links ← interfacePairs raw
  return "[" ++ " ".intercalate (links.map fun (a, b) => s!"{a}>{b}") ++ "]"

end PathAssembly

import PathAssembly.IsdAs.Notation

/-!
# Interfaces of a path

The border router interfaces that a path crosses, named by their AS. They come in pairs, the
interface of exit of one AS and the interface of entry of the next.
-/

namespace PathAssembly

structure PathInterface where
  isdAs : IsdAs
  id : Int
  deriving DecidableEq, Repr

namespace PathInterface

def format (i : PathInterface) : Except Fault String := do
  let isdAs ← i.isdAs.format
  return s!"{isdAs}#{i.id}"

def formatAll (interfaces : List PathInterface) : Except Fault String := do
  return " ".intercalate (← interfaces.mapM format)

/-- The links between the ASes of a route, each behind the AS that it leaves. -/
def formatLinks : List PathInterface → Except Fault String
  | [] => .ok ""
  | [out] => do
    let isdAs ← out.isdAs.format
    return s!"{isdAs} {out.id}>"
  | out :: into :: rest => do
    let isdAs ← out.isdAs.format
    return s!"{isdAs} {out.id}>{into.id} " ++ (← formatLinks rest)

def formatRoute (interfaces : List PathInterface) : Except Fault String :=
  match interfaces.getLast? with
  | none => .ok "[]"
  | some last => do
    let links ← formatLinks interfaces
    let isdAs ← last.isdAs.format
    return "[" ++ links ++ isdAs ++ "]"

end PathInterface

end PathAssembly

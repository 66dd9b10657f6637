import PathAssembly.IsdAs.Notation
import PathAssembly.Logged
import PathAssembly.Lookup.Service

/-!
# Inquiries

A computation that asks a lookup service. It carries the queries made so far, of which none is
forgotten when the computation refuses its input.
-/

namespace PathAssembly

/-- A computation that continues a list of queries. -/
def Inquiry (α : Type) : Type := List Query → List Query × Logged α

namespace Inquiry

variable {α β μ : Type}

def ofLogged (x : Logged α) : Inquiry α := fun asked => (asked, x)

def bind (x : Inquiry α) (f : α → Inquiry β) : Inquiry β := fun asked =>
  match x asked with
  | (asked, ⟨notes, .ok a⟩) =>
    let (asked, y) := f a asked
    (asked, ⟨notes ++ y.notes, y.result⟩)
  | (asked, ⟨notes, .error fault⟩) => (asked, ⟨notes, .error fault⟩)

instance : Monad Inquiry where
  pure a := ofLogged (pure a)
  bind := bind

instance : MonadLift Logged Inquiry := ⟨ofLogged⟩

def queries (x : Inquiry α) : List Query := (x []).1

def outcome (x : Inquiry α) : Logged α := (x []).2

@[simp] theorem queries_ofLogged (x : Logged α) : (ofLogged x).queries = [] := rfl

@[simp] theorem outcome_ofLogged (x : Logged α) : (ofLogged x).outcome = x := rfl

def ask (service : Service μ) (query : Query) : Inquiry (Reply μ) := fun asked =>
  (asked ++ [query], pure (service asked query))

/-- The segments that a service has between two ends. A failure counts as an empty answer. -/
def fetch (service : Service μ) (source destination : IsdAs) :
    Inquiry (List (PathSegment μ)) := do
  let start ← source.format
  let goal ← destination.format
  Logged.note .info .lookup s!"Requesting segments: {start} {goal}"
  match ← ask service ⟨source, destination⟩ with
  | .segments found =>
    Logged.note .info .lookup
      s!"Segment request {start} {goal} returned {found.length} segment(s)"
    return found
  | .failure reason _ =>
    Logged.note .warning .lookup s!"Segment request {start} {goal} failed: {reason}"
    return []

end Inquiry

end PathAssembly

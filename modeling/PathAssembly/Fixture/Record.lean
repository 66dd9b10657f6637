import PathAssembly.Fixture.Value.Number
import PathAssembly.Fixture.Value.Text

/-!
# Records

Mappings that hold what a fixture describes under known keys. The keys are checked before anything
is read. What is no mapping is refused in three places: a number cannot even be asked for its
members, a text or a list has members, of which unknown ones are refused like unknown keys, and
whatever passes cannot be asked for the value of a key.
-/

namespace PathAssembly.Value

/-- The members of a collection: the keys of a mapping, the items of a list, the code points of a
text. -/
def members : Value → Except Fault (List Scalar)
  | map pairs => .ok (pairs.map Prod.fst)
  | list items => items.mapM fun item =>
      match item with
      | scalar s => .ok s
      | _ => .error .wrongShape
  | scalar (.text points) => .ok (points.map fun p => .text [p])
  | scalar _ => .error .wrongShape

def isAmong (texts : List String) (s : Scalar) : Bool := texts.any fun t => s.sameKey (.ofString t)

/-- Refuses a collection with members that are not allowed, and names them in order. -/
def checkKeys (v : Value) (kind : String) (allowed : List String) : Except Fault Unit := do
  let unknown := ((← v.members).filter fun s => !isAmong allowed s).eraseDupsBy Scalar.sameKey
  if unknown.isEmpty then return ()
  let names ← unknown.mapM Scalar.asText
  throw (.unknownKeys kind ((names.mergeSort Text.notAfter).map Text.joined))

def has (v : Value) (key : String) : Except Fault Bool := do
  return (← v.members).any (isAmong [key])

def field? (v : Value) (key : String) : Except Fault (Option Value) :=
  match v with
  | map pairs => .ok (lookup key pairs)
  | _ => .error .missingFeature

def field (v : Value) (key : String) : Except Fault Value := do
  return (← v.field? key).getD null

def integerField (v : Value) (key : String) (default : Int) : Except Fault Int := do
  match ← v.field? key with
  | some value => value.asInteger
  | none => return default

def numberField (v : Value) (key : String) : Except Fault Binary64 := do
  match ← v.field? key with
  | some value => value.asNumber
  | none => return .zero

def textField (v : Value) (key : String) : Except Fault String := do
  match ← v.field? key with
  | some value => value.asString
  | none => return ""

def truthField (v : Value) (key : String) (default : Bool) : Except Fault Bool := do
  return ((← v.field? key).map truth).getD default

/-- The pairs of a mapping, which a value that counts as false has none of. -/
def optionalPairs? : Value → Option (List (Scalar × Value))
  | map pairs => some pairs
  | v => if v.truth then none else some []

end PathAssembly.Value

import PathAssembly.Binary64.Basic
import PathAssembly.Fixture.Value.Timestamp
import PathAssembly.Text.CodePoint

/-!
# Fixture values

A fixture is written as nested lists and mappings of scalars. The keys of a mapping are scalars of
any kind; keys are the same if they are the same text, the same number, whatever its kind, the same
timestamp, or both nothing. A truth value counts as the number 0 or 1. A text may hold halves of
characters; two halves that make up a character are not the same text as that character.

What is no number equals nothing, itself included, so that two results of arithmetic that are no
number are two keys. A document has but one word for it, which is one key wherever it is written.
-/

namespace PathAssembly

inductive Scalar where
  | null
  | bool (b : Bool)
  | int (i : Int)
  | float (x : Binary64)
  | nan
  | text (points : List Text.CodePoint)
  | time (t : Timestamp)
  deriving DecidableEq, Repr

namespace Scalar

def ofString (s : String) : Scalar := text (Text.points s)

def exactInt? : Scalar → Option Int
  | bool b => some (if b then 1 else 0)
  | int i => some i
  | float x => x.exactInt?
  | null | nan | text _ | time _ => none

def sameKey (a b : Scalar) : Bool :=
  match a, b with
  | null, null | nan, nan => true
  | text s, text t => s == t
  | float x, float y => x.equals y
  | time t, time u => t.same u
  | _, _ =>
    match a.exactInt?, b.exactInt? with
    | some i, some j => i == j
    | _, _ => false

/-- Whether a scalar counts as true: nothing, false, zero and the empty text do not. -/
def truth : Scalar → Bool
  | null => false
  | bool b => b
  | int i => i != 0
  | float x => !x.isZero
  | nan | time _ => true
  | text points => !points.isEmpty

def written : Scalar → Scalar
  | float x => if x.isNaN then nan else float x
  | s => s

end Scalar

inductive Value where
  | scalar (s : Scalar)
  | list (items : List Value)
  | map (pairs : List (Scalar × Value))

namespace Value

instance : Inhabited Value := ⟨scalar .null⟩

def null : Value := scalar .null

def text (s : String) : Value := scalar (.ofString s)

def int (i : Int) : Value := scalar (.int i)

def bool (b : Bool) : Value := scalar (.bool b)

def record (fields : List (String × Value)) : Value :=
  map (fields.map fun (k, v) => (Scalar.ofString k, v))

/-- Pairs with the value of a key set; a key that is there already stays as it is written. -/
def insertKey (key : Scalar) (value : Value) : List (Scalar × Value) → List (Scalar × Value)
  | [] => [(key, value)]
  | (k, v) :: rest =>
    if k.sameKey key then (k, value) :: rest else (k, v) :: insertKey key value rest

/-- The mapping of pairs, in which the last value of a key counts. -/
def ofPairs (pairs : List (Scalar × Value)) : Value :=
  map (pairs.foldl (fun done (k, v) => insertKey k v done) [])

mutual

/-- The value that a document states in which a value is written. -/
def written : Value → Value
  | scalar s => scalar s.written
  | list items => list (writtenItems items)
  | map pairs => ofPairs (writtenPairs pairs)

def writtenItems : List Value → List Value
  | [] => []
  | v :: rest => v.written :: writtenItems rest

def writtenPairs : List (Scalar × Value) → List (Scalar × Value)
  | [] => []
  | (k, v) :: rest => (k.written, v.written) :: writtenPairs rest

end

def isNull : Value → Bool
  | scalar .null => true
  | _ => false

def truth : Value → Bool
  | scalar s => s.truth
  | list items => !items.isEmpty
  | map pairs => !pairs.isEmpty

def lookup (key : String) (pairs : List (Scalar × Value)) : Option Value :=
  (pairs.find? fun (k, _) => k.sameKey (.ofString key)).map Prod.snd

end Value

end PathAssembly

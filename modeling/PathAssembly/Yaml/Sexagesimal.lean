import PathAssembly.Binary64.Arithmetic
import PathAssembly.Binary64.Literal
import PathAssembly.Text.Fields

/-!
# Numbers of base sixty

Hours, minutes and seconds, or degrees of arc: places of base sixty with colons between them. The
first place is any number, the others are below sixty and take one or two digits. The last place may
have a point. Underscores do not count.
-/

namespace PathAssembly.Yaml

def isDecimal (c : Char) : Bool := '0' ≤ c && c ≤ '9'

def isDecimalOrGap (c : Char) : Bool := isDecimal c || c == '_'

def isSixtieth : List Char → Bool
  | [d] => isDecimal d
  | [c, d] => '0' ≤ c && c ≤ '5' && isDecimal d
  | _ => false

def isFirstPlace : List Char → Bool
  | c :: rest => isDecimal c && rest.all isDecimalOrGap
  | [] => false

def isPointedPlace (cs : List Char) : Bool :=
  match cs.dropWhile (· != '.') with
  | '.' :: fraction => isSixtieth (cs.takeWhile (· != '.')) && fraction.all isDecimalOrGap
  | _ => false

/-- The places of a scalar without sign, if it is an integer of base sixty; it does not start with a
zero. -/
def integerPlaces? (cs : List Char) : Option (List (List Char)) :=
  match Text.fields ':' cs with
  | first :: place :: others =>
    if isFirstPlace first && first.head? != some '0' && (place :: others).all isSixtieth then
      some (first :: place :: others)
    else none
  | _ => none

def pointedPlaces? (cs : List Char) : Option (List (List Char)) :=
  match Text.fields ':' cs with
  | first :: place :: others =>
    let later := place :: others
    if isFirstPlace first && later.dropLast.all isSixtieth && later.getLast?.any isPointedPlace then
      some (first :: later)
    else none
  | _ => none

def integerOfPlaces (value : Nat) : List (List Char) → Except Fault Nat
  | [] => .ok value
  | place :: rest =>
    match Text.natural? 10 (place.filter (· != '_')) with
    | some n => integerOfPlaces (value * 60 + n) rest
    | none => .error .unreadableInteger

/-- The number of places, of which the last one comes first and weighs `unit`, and of a value so
far. -/
def numberOfPlaces (unit : Nat) (value : Binary64) : List (List Char) → Except Fault Binary64
  | [] => .ok value
  | place :: rest => do
    let x ← Binary64.read (place.filter (· != '_'))
    let weight ← Binary64.ofInt unit
    numberOfPlaces (unit * 60) (value.plus (x.times weight)) rest

end PathAssembly.Yaml

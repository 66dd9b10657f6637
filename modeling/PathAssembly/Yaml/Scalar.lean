import PathAssembly.Fixture.Value.Basic
import PathAssembly.Yaml.Sexagesimal
import PathAssembly.Yaml.Timestamp

/-!
# Resolution of plain scalars

A scalar without quotes is nothing, a truth value, an integer, a number or a timestamp if it is
written like one, and a text otherwise. Underscores in numbers do not count. Two scalars have a
meaning as keys alone and are no values: `=`, and the key that merges mappings.
-/

namespace PathAssembly.Yaml

def nullTexts : List String := ["", "~", "null", "Null", "NULL"]

def trueTexts : List String :=
  ["yes", "Yes", "YES", "true", "True", "TRUE", "on", "On", "ON"]

def falseTexts : List String :=
  ["no", "No", "NO", "false", "False", "FALSE", "off", "Off", "OFF"]

def splitSign : List Char → Bool × List Char
  | '-' :: rest => (true, rest)
  | '+' :: rest => (false, rest)
  | rest => (false, rest)

/-- The digits of an unsigned integer and their base, if a scalar is written like one. -/
def integerDigits? : List Char → Option (Nat × List Char)
  | ['0'] => some (10, ['0'])
  | '0' :: 'b' :: digits => binary? digits
  | '0' :: 'x' :: digits => hexadecimal? digits
  | '0' :: digits =>
    if digits.all fun c => ('0' ≤ c && c ≤ '7') || c == '_' then some (8, '0' :: digits) else none
  | c :: digits =>
    if isDecimal c && digits.all isDecimalOrGap then some (10, c :: digits) else none
  | [] => none
where
  binary? (digits : List Char) : Option (Nat × List Char) :=
    if !digits.isEmpty && digits.all fun c => c == '0' || c == '1' || c == '_' then
      some (2, digits)
    else none
  hexadecimal? (digits : List Char) : Option (Nat × List Char) :=
    if !digits.isEmpty && digits.all fun c => (Text.digit? 16 c).isSome || c == '_' then
      some (16, digits)
    else none

/-- The integer of digits, of which one must not be an underscore. -/
def integerOf (negative : Bool) (base : Nat) (digits : List Char) : Except Fault Scalar :=
  match Text.natural? base (digits.filter (· != '_')) with
  | some n => .ok (.int (if negative then -(n : Int) else n))
  | none => .error .unreadableInteger

def isExponent : List Char → Bool
  | [] => true
  | e :: sign :: digits =>
    (e == 'e' || e == 'E') && (sign == '+' || sign == '-') && !digits.isEmpty
      && digits.all isDecimal
  | _ => false

/-- Whether a scalar without sign is written like a number with a point, in front of which there is
a digit. -/
def isPointed (cs : List Char) : Bool :=
  match cs.dropWhile isDecimalOrGap with
  | '.' :: rest => cs.head?.any isDecimal && isExponent (rest.dropWhile isDecimalOrGap)
  | _ => false

/-- Whether a scalar is written like a number that starts with a point. It has no sign. -/
def isFraction : List Char → Bool
  | '.' :: c :: rest => isDecimal c && isExponent (rest.dropWhile isDecimalOrGap)
  | _ => false

def infinityTexts : List String := [".inf", ".Inf", ".INF"]

def nanTexts : List String := [".nan", ".NaN", ".NAN"]

def pointed? (cs : List Char) : Option (Except Fault Scalar) :=
  let (negative, body) := splitSign cs
  if nanTexts.contains (String.ofList cs) then some (.ok .nan)
  else if infinityTexts.contains (String.ofList body) then
    some (.ok (.float (.infinity negative)))
  else if isPointed body || isFraction cs then some do
    return .float (← Binary64.read (cs.filter (· != '_')))
  else none

def sexagesimal? (cs : List Char) : Option (Except Fault Scalar) :=
  let (negative, body) := splitSign cs
  match integerPlaces? body, pointedPlaces? body with
  | some places, _ => some do
    let n ← integerOfPlaces 0 places
    return .int (if negative then -(n : Int) else n)
  | none, some places => some do
    let x ← numberOfPlaces 1 .zero places.reverse
    return .float (x.withSign negative)
  | none, none => none

def valueKey : String := "="

/-- The scalar that, as a key, merges mappings into the one around it. -/
def mergeKey : String := "<<"

def resolve (cs : List Char) : Except Fault Scalar :=
  let text := String.ofList cs
  if nullTexts.contains text then .ok .null
  else if trueTexts.contains text then .ok (.bool true)
  else if falseTexts.contains text then .ok (.bool false)
  else if text = valueKey ∨ text = mergeKey then .error .malformedDocument
  else
    let (negative, body) := splitSign cs
    match integerDigits? body, pointed? cs <|> sexagesimal? cs, timestamp? cs with
    | some (base, digits), _, _ => integerOf negative base digits
    | none, some number, _ => number
    | none, none, some t => if t.isPossible then .ok (.time t) else .error .impossibleTime
    | none, none, none => .ok (.ofString text)

end PathAssembly.Yaml

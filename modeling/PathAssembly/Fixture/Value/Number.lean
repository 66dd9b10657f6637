import PathAssembly.Binary64.Literal
import PathAssembly.Fixture.Value.Basic

/-!
# Numbers of fixture values

Where a number is asked for, a truth value is 0 or 1 and a text is read as a literal. Nothing,
timestamps, lists and mappings are no numbers.
-/

namespace PathAssembly

/-- The integer that a scalar stands for; a number is cut off behind the point. -/
def Scalar.asInteger : Scalar → Except Fault Int
  | null | time _ => .error .wrongShape
  | bool b => .ok (if b then 1 else 0)
  | int i => .ok i
  | float x => x.truncate
  | nan => .error .integerOfNaN
  | text points => Text.readIntegerPoints 10 points

def Scalar.asNumber : Scalar → Except Fault Binary64
  | null | time _ => .error .wrongShape
  | bool b => Binary64.ofInt (if b then 1 else 0)
  | int i => Binary64.ofInt i
  | float x => .ok x
  | nan => .ok .nan
  | text points => Binary64.readPoints points

namespace Value

def asInteger : Value → Except Fault Int
  | scalar s => s.asInteger
  | _ => .error .wrongShape

def asNumber : Value → Except Fault Binary64
  | scalar s => s.asNumber
  | _ => .error .wrongShape

end Value

end PathAssembly

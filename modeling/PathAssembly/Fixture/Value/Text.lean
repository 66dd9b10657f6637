import PathAssembly.Binary64.Shortest
import PathAssembly.Fault
import PathAssembly.Fixture.Value.Basic
import PathAssembly.Text.Quoted

/-!
# Texts of fixture values

How a value is shown: numbers in decimal, texts between quotes, lists in brackets and mappings in
braces. Where a text is asked for, texts and timestamps stand for themselves and any other value for
what is shown. A value with an integer of too many digits cannot be shown. Halves of characters are
shown by number; in a text that is passed on two of them may become a character.
-/

namespace PathAssembly

def showInteger (i : Int) : Except Fault String :=
  match Text.decimal? i with
  | some numeral => .ok numeral
  | none => .error .unwritableInteger

def Scalar.shown : Scalar → Except Fault String
  | null => .ok "None"
  | bool true => .ok "True"
  | bool false => .ok "False"
  | int i => showInteger i
  | float x => .ok x.render
  | nan => .ok Binary64.nan.render
  | text points => .ok (Text.quotedPoints points)
  | time t => .ok t.shown

def Scalar.asText : Scalar → Except Fault (List Text.CodePoint)
  | text points => .ok points
  | time t => .ok (Text.points t.text)
  | s => do return Text.points (← s.shown)

namespace Value

mutual

def shown : Value → Except Fault String
  | scalar s => s.shown
  | list items => do return "[" ++ ", ".intercalate (← shownItems items) ++ "]"
  | map pairs => do return "\x7b" ++ ", ".intercalate (← shownPairs pairs) ++ "\x7d"

def shownItems : List Value → Except Fault (List String)
  | [] => .ok []
  | v :: rest => do
    let item ← v.shown
    return item :: (← shownItems rest)

def shownPairs : List (Scalar × Value) → Except Fault (List String)
  | [] => .ok []
  | (k, v) :: rest => do
    let key ← k.shown
    let value ← v.shown
    return (key ++ ": " ++ value) :: (← shownPairs rest)

end

def asText : Value → Except Fault (List Text.CodePoint)
  | scalar s => s.asText
  | v => do return Text.points (← v.shown)

def asString (v : Value) : Except Fault String := do return Text.joined (← v.asText)

@[simp] theorem asString_text (s : String) : (text s).asString = .ok s := by
  simp [asString, text, Scalar.ofString, asText, Scalar.asText, bind, Except.bind, pure,
    Except.pure]

end Value

end PathAssembly

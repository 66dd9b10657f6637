import PathAssembly.Fault
import PathAssembly.Text.Blank

/-!
# Settings

Settings are read from named texts, such as those of an environment. A setting whose name has no
text keeps its default.
-/

namespace PathAssembly

structure Settings where
  /-- Skip lookups if a segment up contains the destination: fewer queries, fewer paths. -/
  minimizeRequests : Bool := false
  deriving DecidableEq, Repr

namespace Settings

def minimizeName : String := "EXPERIMENTAL_SCION_RESOLVER_MINIMIZE_REQUESTS"

def onTexts : List String := ["1", "true", "yes", "on"]

def offTexts : List String := ["0", "false", "no", "off", ""]

/-- The state of a switch; neither blanks around the text nor its case count. -/
def readSwitch (name text : String) : Except Fault Bool :=
  let word := String.ofList ((Text.trim text.toList).map Char.toLower)
  if onTexts.contains word then .ok true
  else if offTexts.contains word then .ok false
  else .error (.unknownSwitch name text)

def ofEnvironment (text? : String → Option String) : Except Fault Settings :=
  match text? minimizeName with
  | some text => do return { minimizeRequests := ← readSwitch minimizeName text }
  | none => .ok {}

end Settings

end PathAssembly

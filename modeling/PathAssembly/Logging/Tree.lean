import PathAssembly.Logging.Format

/-!
# Package loggers

All loggers of a package write through one handler, which stands at the logger named after the
package. The loggers below have no level of their own; a level of 0 is taken from the logger above,
in the end from the one above all packages.

The logger above another one is found by cutting the name of the lower one at its dots, from the
last one on, until a logger that has been made available is met. Once the name is cut at a dot, a
dot right in front of that one is passed over. So a name with dots in a row may miss the package,
and come below it as soon as a logger in between is made available.

The package is set up on first use, and then stays as it is until it is reset. A level setting from
outside is read on setup.
-/

namespace PathAssembly.Logging

structure Handler where
  format : Format
  level : Level := .unset
  deriving DecidableEq, Repr

structure LogTree where
  package : String
  level : Level := .unset
  handler : Option Handler := none
  loggers : List String := []
  configured : Bool := false
  globalLevel : Level := .warning
  deriving DecidableEq, Repr

abbrev Action := ExceptT Fault (StateM LogTree)

namespace LogTree

def globalName : String := "root"

/-- Whether a name is that of the logger above all packages, which also has no name. -/
def isGlobal (name : String) : Bool := name == "" || name == globalName

/-- Whether the logger whose name is given backwards is below the package. -/
def isBelow (t : LogTree) : List Char → Bool
  | '.' :: c :: rest =>
    let above := String.ofList (c :: rest).reverse
    above == t.package
      || if t.loggers.contains above then t.isBelow (c :: rest) else t.isBelow rest
  | _ :: rest => t.isBelow rest
  | [] => false

def isInside (t : LogTree) (name : String) : Bool :=
  name == t.package || t.isBelow name.toList.reverse

def effectiveLevel (t : LogTree) (name : String) : Level :=
  if t.isInside name && t.level != .unset then t.level else t.globalLevel

/-- Installs the handler, unless the package is set up already. The level is set before the format
is looked at. -/
def setup (setting : Option String) (level : Option Level) (format : Option String) :
    Action Unit := do
  if (← get).configured then return ()
  let level ← match level with
    | some level => pure level
    | none => (Level.ofSetting setting .info : Except Fault Level)
  modify ({ · with level, handler := none })
  let text := match format with
    | none | some "" => Format.defaultText
    | some text => text
  let format ← (Format.ofText text : Except Fault Format)
  modify ({ · with handler := some { format }, configured := true })

/-- Makes a logger available, which takes its level from above from then on. -/
def acquire (setting : Option String) (name : String) : Action Unit := do
  setup setting none none
  modify fun t =>
    if isGlobal name then { t with globalLevel := .unset }
    else if name = t.package then { t with level := .unset }
    else { t with loggers := name :: t.loggers.erase name }

def setLevel (setting : Option String) (level : Level) : Action Unit := do
  setup setting none none
  modify fun t => { t with level, handler := t.handler.map ({ · with level }) }

/-- Removes the handler, so that the package is set up anew on next use. -/
def reset (t : LogTree) : LogTree :=
  { t with configured := false, handler := none, level := .unset }

def passes (t : LogTree) (r : Record) : Bool := 0 < r.level && t.effectiveLevel r.logger ≤ r.level

def written (t : LogTree) (time : String) (r : Record) : String :=
  match t.handler with
  | some handler =>
    if t.isInside r.logger && t.passes r && handler.level ≤ r.level then
      (handler.format.line? time r).getD ""
    else ""
  | none => ""

def log (setting : Option String) (time : String) (r : Record) : Action String := do
  acquire setting r.logger
  return (← get).written time r

end LogTree

end PathAssembly.Logging

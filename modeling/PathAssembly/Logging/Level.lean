import PathAssembly.Text.Capital
import PathAssembly.Text.Numeral

/-!
# Log levels

A level is a number; higher ones matter more. Some levels have names, of which some have two.
-/

namespace PathAssembly.Logging

abbrev Level := Int

namespace Level

/-- The level that takes its place from the logger above. -/
def unset : Level := 0

def debug : Level := 10

def info : Level := 20

def warning : Level := 30

/-- The names under which levels are read; the first name of a level is the one that is written. -/
def names : List (String × Level) :=
  [("CRITICAL", 50), ("FATAL", 50), ("ERROR", 40), ("WARNING", 30), ("WARN", 30), ("INFO", 20),
    ("DEBUG", 10), ("NOTSET", 0)]

def name (level : Level) : String :=
  match names.find? (·.2 == level) with
  | some (name, _) => name
  | none => s!"Level {level}"

def ofName? (text : List Char) : Option Level :=
  (names.find? fun (name, _) => name.toList == Text.capitals text).map Prod.snd

/-- The level that a setting stands for: a number, a name, or else the default. -/
def ofSetting (setting : Option String) (default : Level) : Except Fault Level :=
  let text := Text.trim (setting.getD "").toList
  if text.isEmpty then .ok default
  else if text.all Text.isDigit then Text.readInteger 10 text
  else .ok ((ofName? text).getD default)

end Level

end PathAssembly.Logging

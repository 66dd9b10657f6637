import PathAssembly.Logging.Layout
import PathAssembly.Logging.Level
import PathAssembly.Text.Letter

/-!
# Log formats

A format is a text with fields. A field is a name in parentheses behind a percent sign, with a
layout behind it that says how it is written; two percent signs stand for one. Whether a text has a
field at all is checked when it becomes a format; whether all its fields can be written is seen when
a record is written.
-/

namespace PathAssembly.Logging

structure Record where
  logger : String
  level : Level
  message : String
  deriving DecidableEq, Repr

inductive Field where
  | time
  | logger
  | levelName
  | levelNumber
  | message
  deriving DecidableEq, Repr

inductive Piece where
  | char (c : Char)
  | field (f : Field) (layout : Layout)
  | broken
  deriving DecidableEq, Repr

namespace Field

def ofName? (name : String) : Option Field :=
  match name with
  | "asctime" => some time
  | "name" => some logger
  | "levelname" => some levelName
  | "levelno" => some levelNumber
  | "message" => some message
  | _ => none

def content (f : Field) (time : String) (r : Record) : Content :=
  match f with
  | .time => .text time
  | .logger => .text r.logger
  | .levelName => .text r.level.name
  | .levelNumber => .number r.level
  | .message => .text r.message

end Field

def fieldPiece (cs : List Char) : Piece × List Char :=
  let name := cs.takeWhile (· != ')')
  match Layout.ofChars? (cs.drop (name.length + 1)) with
  | some (layout, rest) =>
    match Field.ofName? (String.ofList name) with
    | some f => (.field f layout, rest)
    | none => (.broken, rest)
  | none => (.broken, [])

def pieces : (fuel : Nat) → List Char → List Piece
  | 0, _ => []
  | _ + 1, [] => []
  | fuel + 1, '%' :: '%' :: rest => .char '%' :: pieces fuel rest
  | fuel + 1, '%' :: '(' :: rest =>
    let (piece, rest) := fieldPiece rest
    piece :: pieces fuel rest
  | fuel + 1, '%' :: rest => .broken :: pieces fuel rest
  | fuel + 1, c :: rest => .char c :: pieces fuel rest

/-- The letters that say how a field is written, in small form, and the forms of i and s of other
scripts. -/
def fieldLetters : List Char := "diouxefgcrsa%ıİſ".toList

/-- What follows a width, in digits of any script, or an asterisk in its place, at the start. -/
def behindWidth (cs : List Char) : List Char :=
  match cs with
  | '*' :: rest => rest
  | _ => cs.dropWhile fun c => (Text.decimalDigit? c).isSome

def behindPrecision (cs : List Char) : List Char :=
  match cs with
  | '.' :: rest => if (behindWidth rest).length < rest.length then behindWidth rest else cs
  | _ => cs

def startsField : List Char → Bool
  | '(' :: rest =>
    match rest.dropWhile Text.isNameChar with
    | ')' :: tail =>
      let layout := tail.dropWhile Layout.flagChars.contains
      !(rest.takeWhile Text.isNameChar).isEmpty
        && (behindPrecision (behindWidth layout)).head?.any fun c => fieldLetters.contains c.toLower
    | _ => false
  | _ => false

def hasField : List Char → Bool
  | [] => false
  | c :: rest => (c == '%' && startsField rest) || hasField rest

structure Format where
  pieces : List Piece
  deriving DecidableEq, Repr

namespace Format

def ofText (text : String) : Except Fault Format :=
  let cs := text.toList
  if hasField cs then .ok ⟨Logging.pieces cs.length cs⟩ else .error .invalidFormat

def defaultText : String := "%(asctime)s - %(name)s - %(levelname)s - %(message)s"

/-- The line of a record, given the text of the time, if all fields can be written. -/
def line? (format : Format) (time : String) (r : Record) : Option String := do
  let parts ← format.pieces.mapM fun piece =>
    match piece with
    | .char c => some (String.singleton c)
    | .field f layout => (layout.lay? (f.content time r)).map String.ofList
    | .broken => none
  return String.join parts ++ "\n"

end Format

end PathAssembly.Logging

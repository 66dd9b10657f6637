import PathAssembly.Octets.Hex
import PathAssembly.Text.CodePoint
import PathAssembly.Yaml.Cursor

/-!
# Quoted scalars

Between single quotes a quote is written twice and nothing else is special. Between double quotes a
backslash starts an escape, which may write half a character by number. In both, a line break counts
as a space, and each empty line behind it as a line break.
-/

namespace PathAssembly.Yaml

def foldBreaks : List Char → List Char
  | [] => []
  | first :: others =>
    (if first ≠ '\n' then [first] else if others.isEmpty then [' '] else []) ++ others

/-- What the separating characters at the start of `cs`, inside quotes, stand for, and what follows
them. No marker of a document may follow a line break. -/
def quotedGap (cs : List Char) : Except Fault (List Char × List Char) :=
  let run := cs.takeWhile isGap
  let rest := cs.dropWhile isGap
  if run.any isBreak then
    if run.getLast?.any isBreak && (startsMarker '-' rest || startsMarker '.' rest) then
      .error .malformedDocument
    else .ok (foldBreaks (run.filter isBreak), rest)
  else .ok (run, rest)

def singleQuoted : (fuel : Nat) → List Char → Except Fault (List Char × List Char)
  | fuel + 1, '\'' :: '\'' :: rest => do
    let (text, after) ← singleQuoted fuel rest
    return ('\'' :: text, after)
  | _ + 1, '\'' :: rest => .ok ([], rest)
  | fuel + 1, c :: rest => do
    if isGap c then
      let (gap, rest) ← quotedGap (c :: rest)
      let (text, after) ← singleQuoted fuel rest
      return (gap ++ text, after)
    else
      let (text, after) ← singleQuoted fuel rest
      return (c :: text, after)
  | _, _ => .error .malformedDocument

def escapeLetter? : Char → Option Char
  | '0' => some '\x00'
  | 'a' => some '\x07'
  | 'b' => some '\x08'
  | 't' | '\t' => some '\t'
  | 'n' => some '\n'
  | 'v' => some '\x0b'
  | 'f' => some '\x0c'
  | 'r' => some '\r'
  | 'e' => some '\x1b'
  | ' ' => some ' '
  | '"' => some '"'
  | '\\' => some '\\'
  | '/' => some '/'
  | 'N' => some '\u0085'
  | '_' => some '\u00a0'
  | 'L' => some '\u2028'
  | 'P' => some '\u2029'
  | _ => none

def escapeDigits? : Char → Option Nat
  | 'x' => some 2
  | 'u' => some 4
  | 'U' => some 8
  | _ => none

def escapeNumber? (n : Nat) (cs : List Char) : Option (Nat × List Char) :=
  match (cs.take n).mapM Octets.hexDigit? with
  | some digits =>
    if digits.length = n then some (digits.foldl (fun value d => value * 16 + d) 0, cs.drop n)
    else none
  | none => none

def escapedPoint (n : Nat) : Except Fault Text.CodePoint :=
  match Text.CodePoint.ofNumber? n with
  | some p => .ok p
  | none => .error (if n < 0x8000_0000 then .noCharacter else .integerTooLarge)

/-- What an escape behind its backslash stands for, and what follows it. An escaped line break
stands for the empty lines behind it. -/
def escape (cs : List Char) : Except Fault (List Text.CodePoint × List Char) :=
  match cs with
  | [] => .error .malformedDocument
  | c :: rest =>
    match escapeLetter? c, escapeDigits? c with
    | some d, _ => .ok ([.char d], rest)
    | none, some n =>
      match escapeNumber? n rest with
      | some (number, after) => do return ([← escapedPoint number], after)
      | none => .error .malformedDocument
    | none, none =>
      if isBreak c then do
        let (_, after) ← quotedGap cs
        let breaks := (rest.takeWhile isGap).filter isBreak
        return (breaks.map .char, after)
      else .error .malformedDocument

def doubleQuoted : (fuel : Nat) → List Char → Except Fault (List Text.CodePoint × List Char)
  | _ + 1, '"' :: rest => .ok ([], rest)
  | fuel + 1, '\\' :: rest => do
    let (points, rest) ← escape rest
    let (text, after) ← doubleQuoted fuel rest
    return (points ++ text, after)
  | fuel + 1, c :: rest => do
    if isGap c then
      let (gap, rest) ← quotedGap (c :: rest)
      let (text, after) ← doubleQuoted fuel rest
      return (gap.map .char ++ text, after)
    else
      let (text, after) ← doubleQuoted fuel rest
      return (.char c :: text, after)
  | _, _ => .error .malformedDocument

end PathAssembly.Yaml

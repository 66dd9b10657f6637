import PathAssembly.Fault

/-!
# Cursors

A place in a document: what is still to read, the line and the column. Indentation is the column of
the next thing to read; at the end of the document, which a marker on a line of its own also is, it
is less than any column.
-/

namespace PathAssembly.Yaml

structure Cursor where
  rest : List Char
  line : Nat := 0
  column : Nat := 0
  deriving DecidableEq, Repr

def isBreak (c : Char) : Bool := c == '\n' || c == '\u2028' || c == '\u2029'

def isGap (c : Char) : Bool := c == ' ' || c == '\t' || isBreak c

def startsGap : List Char → Bool
  | [] => true
  | c :: _ => isGap c

/-- Whether a marker of a document comes first: three equal characters and nothing behind them. -/
def startsMarker (mark : Char) : List Char → Bool
  | a :: b :: c :: rest => a == mark && b == mark && c == mark && startsGap rest
  | _ => false

/-- The number of characters without content that come first: spaces, line breaks and comments. -/
def blankLength (inComment : Bool) : List Char → Nat
  | [] => 0
  | c :: rest =>
    if isBreak c then blankLength false rest + 1
    else if inComment || c == '#' then blankLength true rest + 1
    else if c == ' ' then blankLength false rest + 1
    else 0

namespace Cursor

def step (cur : Cursor) (c : Char) : Cursor :=
  if isBreak c then { cur with line := cur.line + 1, column := 0 }
  else if c == '\ufeff' then cur
  else { cur with column := cur.column + 1 }

def advance (cur : Cursor) (n : Nat) : Cursor :=
  { (cur.rest.take n).foldl step cur with rest := cur.rest.drop n }

def advanceTo (cur : Cursor) (rest : List Char) : Cursor :=
  cur.advance (cur.rest.length - rest.length)

def skip (cur : Cursor) : Cursor := cur.advance (blankLength false cur.rest)

def atMarker (cur : Cursor) (mark : Char) : Bool := cur.column == 0 && startsMarker mark cur.rest

def atEnd (cur : Cursor) : Bool := cur.rest.isEmpty || cur.atMarker '-' || cur.atMarker '.'

/-- The column, or -1 at the end. -/
def indentation (cur : Cursor) : Int := if cur.atEnd then -1 else cur.column

def atMark (cur : Cursor) (mark : Char) : Bool :=
  match cur.rest with
  | c :: rest => c == mark && startsGap rest && !cur.atEnd
  | [] => false

def atDash (cur : Cursor) : Bool := cur.atMark '-'

/-- The place behind the colon that stands next on this line, if one does. Outside brackets
something that separates words must follow it. -/
def afterColon? (cur : Cursor) (flow : Bool) : Option Cursor :=
  let next := cur.advance (cur.rest.takeWhile (· == ' ')).length
  match next.rest with
  | ':' :: rest => if flow || startsGap rest then some (next.advance 1) else none
  | _ => none

def distance (cur later : Cursor) : Nat := cur.rest.length - later.rest.length

end Cursor

def maxKeyDistance : Nat := 1024

/-- Whether a key may start at one place if its colon ends at the other: it must be short and on one
line. -/
def isKeySpan (start colon : Cursor) : Bool :=
  start.line == colon.line && start.distance colon ≤ maxKeyDistance + 1

end PathAssembly.Yaml

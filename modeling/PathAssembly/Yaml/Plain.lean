import PathAssembly.Yaml.Quoted

/-!
# Plain scalars

A plain scalar starts with a character that starts nothing else and ends at a colon or a comment.
Inside brackets it also ends at a comma, a question mark and every bracket; outside it goes on over
lines that are indented more than its parent.
-/

namespace PathAssembly.Yaml

def indicators : List Char := "-?:,[]\x7b\x7d#&*!|>'\"%@\x60".toList

def startsPlain (flow : Bool) : List Char → Bool
  | [] => false
  | c :: rest =>
    !isGap c && (!indicators.contains c
      || (!startsGap rest && (c == '-' || (!flow && (c == '?' || c == ':')))))

def endsAtColon (flow : Bool) : List Char → Bool
  | [] => true
  | c :: _ => isGap c || (flow && ",[]\x7b\x7d".toList.contains c)

def isFlowMark (c : Char) : Bool := ",?[]\x7b\x7d".toList.contains c

def plainWord (flow : Bool) : List Char → List Char
  | [] => []
  | c :: rest =>
    if isGap c || (c == ':' && endsAtColon flow rest) || (flow && isFlowMark c) then []
    else c :: plainWord flow rest

/-- Whether a character keeps two words of a plain scalar apart. Tabs do not. -/
def isPlainGap (c : Char) : Bool := c == ' ' || isBreak c

def plainGap (cs : List Char) : List Char :=
  let spaces := cs.takeWhile (· == ' ')
  if (cs.dropWhile (· == ' ')).head?.any isBreak then
    foldBreaks ((cs.takeWhile isPlainGap).filter isBreak)
  else spaces

def afterPlainGap (cur : Cursor) : Cursor :=
  cur.advance (cur.rest.takeWhile isPlainGap).length

/-- A plain scalar whose parent is indented by `indent`, and the place behind it. -/
def plainFrom (flow : Bool) (indent : Int) : (fuel : Nat) → Cursor → List Char × Cursor
  | 0, cur => ([], cur)
  | fuel + 1, cur =>
    if cur.rest.head? = some '#' then ([], cur)
    else
      let word := plainWord flow cur.rest
      let behind := cur.advance word.length
      let gap := plainGap behind.rest
      let next := afterPlainGap behind
      if word.isEmpty then ([], cur)
      else if gap.isEmpty || next.atEnd || (!flow && (next.column : Int) ≤ indent) then
        (word, behind)
      else
        let (more, last) := plainFrom flow indent fuel next
        if more.isEmpty then (word, behind) else (word ++ gap ++ more, last)

def plain (flow : Bool) (indent : Int) (cur : Cursor) : List Char × Cursor :=
  plainFrom flow indent (cur.rest.length + 1) cur

end PathAssembly.Yaml

import PathAssembly.Yaml.Node
import PathAssembly.Yaml.Plain

/-!
# Nodes on a line

Scalars, and lists and mappings in brackets. Inside brackets line breaks count as spaces, a key may
stand without a value, and an item of a list may be a mapping of one pair. A key behind a question
mark may be of any length, and may be missing.
-/

namespace PathAssembly.Yaml

abbrev Parsed := Except Fault (Node × Cursor)

def scalarNode (flow : Bool) (indent : Int) (cur : Cursor) : Parsed :=
  match cur.rest with
  | '"' :: rest => do
    let (text, rest) ← doubleQuoted (rest.length + 1) rest
    return (.quoted text, cur.advanceTo rest)
  | '\'' :: rest => do
    let (text, rest) ← singleQuoted (rest.length + 1) rest
    return (.quoted (text.map .char), cur.advanceTo rest)
  | _ =>
    if startsPlain flow cur.rest then
      let (text, after) := plain flow indent cur
      .ok (.plain text, after)
    else .error .malformedDocument

/-- The place behind the spaces, comments and line breaks inside brackets, which must be closed
before the end of the document. -/
def flowSkip (cur : Cursor) : Except Fault Cursor :=
  let next := cur.skip
  if next.atEnd then .error .malformedDocument else .ok next

mutual

def inlineNode : (fuel : Nat) → (flow : Bool) → (indent : Int) → Cursor → Parsed
  | 0, _, _, _ => .error .malformedDocument
  | fuel + 1, flow, indent, cur =>
    match cur.rest with
    | '[' :: _ => listNode fuel true [] (cur.advance 1)
    | '\x7b' :: _ => mapNode fuel true [] (cur.advance 1)
    | _ => scalarNode flow indent cur

/-- The key or value behind its mark inside brackets; nothing if `close` or a comma comes next. -/
def flowValue : (fuel : Nat) → (close : Char) → Cursor → Parsed
  | 0, _, _ => .error .malformedDocument
  | fuel + 1, close, cur => do
    let next ← flowSkip cur
    match next.rest with
    | c :: _ =>
      if c == close || c == ',' then return (.empty, next) else inlineNode fuel true 0 next
    | [] => throw .malformedDocument

def markedPair : (fuel : Nat) → (close : Char) → Cursor → Except Fault ((Node × Node) × Cursor)
  | 0, _, _ => .error .malformedDocument
  | fuel + 1, close, cur => do
    let next ← flowSkip cur
    let (key, after) ← if next.rest.head? = some ':' then pure (Node.empty, next)
      else flowValue fuel close next
    let next ← flowSkip after
    if next.rest.head? = some ':' then
      let (value, after) ← flowValue fuel close (next.advance 1)
      return ((key, value), after)
    else return ((key, .empty), next)

/-- The rest of a list behind the items `done`, of which the last one comes first. -/
def listNode : (fuel : Nat) → (first : Bool) → (done : List Node) → Cursor → Parsed
  | 0, _, _, _ => .error .malformedDocument
  | fuel + 1, first, done, cur => do
    let next ← flowSkip cur
    if next.rest.head? = some ']' then return (.list done.reverse, next.advance 1)
    let next ← if first then pure next else
      if next.rest.head? = some ',' then flowSkip (next.advance 1) else throw .malformedDocument
    if next.rest.head? = some ']' then return (.list done.reverse, next.advance 1)
    if next.rest.head? = some '?' then
      let (pair, after) ← markedPair fuel ']' (next.advance 1)
      return ← listNode fuel false (.map [pair] :: done) after
    let (node, after) ← inlineNode fuel true 0 next
    match after.afterColon? true with
    | some colon =>
      if isKeySpan next colon then
        let (value, after) ← flowValue fuel ']' colon
        listNode fuel false (.map [(node, value)] :: done) after
      else throw .malformedDocument
    | none => listNode fuel false (node :: done) after

def mapNode : (fuel : Nat) → (first : Bool) → (done : List (Node × Node)) → Cursor → Parsed
  | 0, _, _, _ => .error .malformedDocument
  | fuel + 1, first, done, cur => do
    let next ← flowSkip cur
    if next.rest.head? = some '\x7d' then return (.map done.reverse, next.advance 1)
    let next ← if first then pure next else
      if next.rest.head? = some ',' then flowSkip (next.advance 1) else throw .malformedDocument
    if next.rest.head? = some '\x7d' then return (.map done.reverse, next.advance 1)
    if next.rest.head? = some '?' then
      let (pair, after) ← markedPair fuel '\x7d' (next.advance 1)
      return ← mapNode fuel false (pair :: done) after
    let (node, after) ← inlineNode fuel true 0 next
    match after.afterColon? true with
    | some colon =>
      if isKeySpan next colon then
        let (value, after) ← flowValue fuel '\x7d' colon
        mapNode fuel false ((node, value) :: done) after
      else throw .malformedDocument
    | none => mapNode fuel false ((node, .empty) :: done) after

end

end PathAssembly.Yaml

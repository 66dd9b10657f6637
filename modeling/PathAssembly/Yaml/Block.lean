import PathAssembly.Yaml.Flow

/-!
# Indented nodes

Lists and mappings whose structure is their indentation. A node that starts a line, or stands behind
the dash of an item, may turn out to be the first key of a mapping, which then is indented as that
key. A list that is the value of a key may be indented as the key itself. Every further item or key
starts a line: what stands behind a node on its last line is refused, whatever its column.

A key may also stand behind a question mark, which is indented in its place. Such a key is any node,
or missing, and the colon of its value, if it has one, is indented as the question mark.
-/

namespace PathAssembly.Yaml

def blockKey (fuel : Nat) (indent : Int) (cur : Cursor) : Parsed := do
  let (node, after) ← inlineNode fuel false indent cur
  match after.afterColon? false with
  | some colon => if isKeySpan cur colon then return (node, colon) else throw .malformedDocument
  | none => throw .malformedDocument

mutual

/-- The node whose parent is indented by `indent`. A key may stand at the start of a line, or at
once if `fresh`; a list may be indented as its parent if `level`. -/
def blockNode : (fuel : Nat) → (indent : Int) → (fresh level : Bool) → Cursor → Parsed
  | 0, _, _, _, _ => .error .malformedDocument
  | fuel + 1, indent, fresh, level, cur =>
    let next := cur.skip
    let fresh := fresh || cur.line < next.line
    if next.indentation < indent || (next.indentation == indent && !(level && next.atDash)) then
      .ok (.empty, cur)
    else if next.atDash then
      if fresh then blockItems fuel next.column (next.indentation == indent) [] next
      else .error .malformedDocument
    else if next.atMark '?' then
      if fresh then blockMarkedPairs fuel next.column [] next else .error .malformedDocument
    else do
      let (node, after) ← inlineNode fuel false indent next
      match after.afterColon? false with
      | none => return (node, after)
      | some colon =>
        if fresh && isKeySpan next colon then blockPairs fuel next.column false [] node colon
        else throw .malformedDocument

/-- The rest of a list from a dash on, behind the items `done`, of which the last one comes
first. -/
def blockItems : (fuel : Nat) → (column : Nat) → (level : Bool) → (done : List Node) → Cursor →
    Parsed
  | 0, _, _, _, _ => .error .malformedDocument
  | fuel + 1, column, level, done, cur => do
    let (item, after) ← blockNode fuel column true false (cur.advance 1)
    let next := after.skip
    if next.indentation < column || (level && next.indentation == column && !next.atDash) then
      return (.list (item :: done).reverse, after)
    else if next.indentation == column && next.atDash && after.line < next.line then
      blockItems fuel column level (item :: done) next
    else throw .malformedDocument

/-- The rest of a mapping from the colon of a key on, behind the pairs `done`, of which the last one
comes first. What follows the colon counts as the start of a line if `fresh`. -/
def blockPairs : (fuel : Nat) → (column : Nat) → (fresh : Bool) → (done : List (Node × Node)) →
    (key : Node) → Cursor → Parsed
  | 0, _, _, _, _, _ => .error .malformedDocument
  | fuel + 1, column, fresh, done, key, cur => do
    let (value, after) ← blockNode fuel column fresh true cur
    blockRest fuel column ((key, value) :: done) after

def blockMarkedPairs : (fuel : Nat) → (column : Nat) → (done : List (Node × Node)) → Cursor → Parsed
  | 0, _, _, _ => .error .malformedDocument
  | fuel + 1, column, done, cur => do
    let (key, after) ← blockNode fuel column true true (cur.advance 1)
    let next := after.skip
    if next.indentation == column && next.atMark ':' && after.line < next.line then
      blockPairs fuel column true done key (next.advance 1)
    else blockRest fuel column ((key, .empty) :: done) after

def blockRest : (fuel : Nat) → (column : Nat) → (done : List (Node × Node)) → Cursor → Parsed
  | 0, _, _, _ => .error .malformedDocument
  | fuel + 1, column, done, cur => do
    let next := cur.skip
    if next.indentation < column then return (.map done.reverse, cur)
    else if next.indentation == column && !next.atDash && cur.line < next.line then
      if next.atMark '?' then blockMarkedPairs fuel column done next
      else
        let (node, colon) ← blockKey fuel column next
        blockPairs fuel column false done node colon
    else throw .malformedDocument

end

end PathAssembly.Yaml

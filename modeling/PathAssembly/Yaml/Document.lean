import PathAssembly.Yaml.Block
import PathAssembly.Yaml.Scalar

/-!
# Documents

The value that a document text writes. A text holds one document, perhaps between markers; the
structure of the whole text is read before any scalar is resolved. A scalar may have no value, and a
collection is no key: of several such parts the one in the fewest collections is refused, of equally
deep ones the first. Mappings that a mapping merges count as parts of it.
-/

namespace PathAssembly.Yaml

def isAllowed (c : Char) : Bool :=
  let n := c.toNat
  n == 9 || n == 0xa || n == 0xd || (0x20 ≤ n && n ≤ 0x7e) || n == 0x85
    || (0xa0 ≤ n && n ≤ 0xd7ff) || (0xe000 ≤ n && n ≤ 0xfffd) || 0x10000 ≤ n

def unifyBreaks : List Char → List Char
  | '\r' :: '\n' :: rest => '\n' :: unifyBreaks rest
  | c :: rest => (if c == '\r' || c == '\u0085' then '\n' else c) :: unifyBreaks rest
  | [] => []

def afterMarker? (mark : Char) (cur : Cursor) : Option Cursor :=
  if cur.atMarker mark then some (cur.advance 3) else none

def skipEnds : (fuel : Nat) → Cursor → Cursor
  | 0, cur => cur
  | fuel + 1, cur =>
    match afterMarker? '.' cur.skip with
    | some next => skipEnds fuel next
    | none => cur.skip

def parse (cs : List Char) : Except Fault Node := do
  if !cs.all isAllowed then throw .malformedDocument
  let cs := unifyBreaks (if cs.head? = some '\ufeff' then cs.tail else cs)
  let fuel := 4 * cs.length + 16
  let start := Cursor.skip { rest := cs }
  if start.atMarker '.' then throw .malformedDocument
  let (node, after) ← match afterMarker? '-' start with
    | some next => blockNode fuel (-1) false false next
    | none => blockNode fuel (-1) true false start
  if (skipEnds fuel after).rest.isEmpty then return node
  throw .malformedDocument

/-- A part of a document that has no value, inside `depth` collections. -/
structure Refusal where
  depth : Nat
  fault : Fault
  deriving DecidableEq, Repr

abbrev Resolved (α : Type) := Except Refusal α

namespace Resolved

def ofExcept {α : Type} (depth : Nat) : Except Fault α → Resolved α :=
  Except.mapError (Refusal.mk depth)

/-- Two parts together, of which the first one comes first in the text. -/
def both {α β : Type} : Resolved α → Resolved β → Resolved (α × β)
  | .ok a, .ok b => .ok (a, b)
  | .error r, .ok _ => .error r
  | .ok _, .error r => .error r
  | .error r, .error s => .error (if s.depth < r.depth then s else r)

theorem both_eq_ok_iff {α β : Type} {x : Resolved α} {y : Resolved β} {p : α × β} :
    both x y = .ok p ↔ x = .ok p.1 ∧ y = .ok p.2 := by
  cases x <;> cases y <;> simp [both, Prod.ext_iff]

end Resolved

def Node.isMergeKey : Node → Bool
  | .plain text => String.ofList text == mergeKey
  | _ => false

mutual

def Node.isMergeable : Node → Bool
  | .map pairs => mergesMappings pairs
  | .list items => areMergeable items
  | _ => false

def areMergeable : List Node → Bool
  | [] => true
  | .map pairs :: rest => mergesMappings pairs && areMergeable rest
  | _ :: _ => false

def mergesMappings : List (Node × Node) → Bool
  | [] => true
  | (key, node) :: rest => (!key.isMergeKey || node.isMergeable) && mergesMappings rest

end

def Node.keyAt (depth : Nat) : Node → Resolved Scalar
  | .empty => .ok .null
  | .plain text =>
    if String.ofList text = valueKey then .ok (.ofString valueKey)
    else .ofExcept depth (resolve text)
  | .quoted text => .ok (.text text)
  | .list _ | .map _ => .error ⟨depth, .malformedDocument⟩

mutual

/-- The value of a node inside `depth` collections. What a mapping merges comes in front of its own
pairs, which therefore count. -/
def Node.valueAt (depth : Nat) : Node → Resolved Value
  | .empty => .ok .null
  | .plain text => (Resolved.ofExcept depth (resolve text)).map .scalar
  | .quoted text => .ok (.scalar (.text text))
  | .list items => (valuesAt (depth + 1) items).map .list
  | .map pairs =>
    if mergesMappings pairs then
      (Resolved.both (mergedAt (depth + 1) pairs) (pairsAt (depth + 1) pairs)).map
        fun (merged, own) => .ofPairs (merged ++ own)
    else .error ⟨depth + 1, .malformedDocument⟩

def valuesAt (depth : Nat) : List Node → Resolved (List Value)
  | [] => .ok []
  | item :: rest =>
    (Resolved.both (item.valueAt depth) (valuesAt depth rest)).map fun (v, vs) => v :: vs

def pairsAt (depth : Nat) : List (Node × Node) → Resolved (List (Scalar × Value))
  | [] => .ok []
  | (key, node) :: rest =>
    if key.isMergeKey then pairsAt depth rest
    else
      (Resolved.both (Resolved.both (key.keyAt depth) (node.valueAt depth))
        (pairsAt depth rest)).map fun (pair, pairs) => pair :: pairs

def mergedAt (depth : Nat) : List (Node × Node) → Resolved (List (Scalar × Value))
  | [] => .ok []
  | (key, node) :: rest =>
    if key.isMergeKey then
      (Resolved.both (node.mergedPairsAt depth) (mergedAt depth rest)).map
        fun (pairs, others) => pairs ++ others
    else mergedAt depth rest

def Node.mergedPairsAt (depth : Nat) : Node → Resolved (List (Scalar × Value))
  | .map pairs =>
    (Resolved.both (mergedAt depth pairs) (pairsAt depth pairs)).map
      fun (merged, own) => merged ++ own
  | .list items => mergedItemsAt depth items
  | _ => .error ⟨depth, .malformedDocument⟩

/-- The pairs of mappings that become pairs inside `depth` collections, those of the last mapping in
front, so that those of the first one count. -/
def mergedItemsAt (depth : Nat) : List Node → Resolved (List (Scalar × Value))
  | [] => .ok []
  | item :: rest =>
    (Resolved.both (mergedItemsAt depth rest) (item.mergedPairsAt depth)).map
      fun (others, pairs) => others ++ pairs

end

def Node.value (root : Node) : Except Fault Value := (root.valueAt 0).mapError Refusal.fault

def read (text : String) : Except Fault Value := do (← parse text.toList).value

end PathAssembly.Yaml

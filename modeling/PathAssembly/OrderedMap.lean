/-!
# Ordered maps

Finite maps that remember the order in which their keys first came. A present key keeps its place
when its value changes; a new key goes to the end.
-/

namespace PathAssembly

/-- A finite map with its keys in order of first insertion. -/
structure OrderedMap (κ ν : Type) where
  entries : List (κ × ν)
  keys_nodup : (entries.map Prod.fst).Nodup

namespace OrderedMap

variable {κ ν : Type}

def empty : OrderedMap κ ν := ⟨[], List.nodup_nil⟩

instance : Inhabited (OrderedMap κ ν) := ⟨empty⟩

instance [DecidableEq κ] [DecidableEq ν] : DecidableEq (OrderedMap κ ν)
  | ⟨a, _⟩, ⟨b, _⟩ =>
    if h : a = b then .isTrue (by subst h; rfl) else .isFalse (by simpa using h)

def keys (m : OrderedMap κ ν) : List κ := m.entries.map Prod.fst

def values (m : OrderedMap κ ν) : List ν := m.entries.map Prod.snd

def size (m : OrderedMap κ ν) : Nat := m.entries.length

def isEmpty (m : OrderedMap κ ν) : Bool := m.entries.isEmpty

variable [DecidableEq κ]

/-- The value of a key among pairs, the first one if there are several. -/
def lookup (k : κ) : List (κ × ν) → Option ν
  | [] => none
  | (k', v) :: rest => if k' = k then some v else lookup k rest

/-- Pairs with the value of `k` replaced, or appended if `k` has none. -/
def insertPair (k : κ) (v : ν) : List (κ × ν) → List (κ × ν)
  | [] => [(k, v)]
  | (k', v') :: rest => if k' = k then (k', v) :: rest else (k', v') :: insertPair k v rest

theorem mem_keys_insertPair {k k' : κ} {v : ν} {pairs : List (κ × ν)} :
    k' ∈ (insertPair k v pairs).map Prod.fst ↔ k' = k ∨ k' ∈ pairs.map Prod.fst := by
  induction pairs with
  | nil => simp [insertPair]
  | cons p rest ih =>
    obtain ⟨q, w⟩ := p
    by_cases h : q = k
    · simp [insertPair, h]
    · simp only [insertPair, h, if_false, List.map_cons, List.mem_cons, ih]
      constructor <;> (rintro (h | h | h) <;> simp [h])

theorem nodup_keys_insertPair {k : κ} {v : ν} {pairs : List (κ × ν)}
    (h : (pairs.map Prod.fst).Nodup) : ((insertPair k v pairs).map Prod.fst).Nodup := by
  induction pairs with
  | nil => simp [insertPair]
  | cons p rest ih =>
    obtain ⟨q, w⟩ := p
    obtain ⟨hq, hrest⟩ := List.nodup_cons.1 h
    by_cases hk : q = k
    · simpa [insertPair, hk] using List.nodup_cons.2 ⟨by simpa [hk] using hq, hrest⟩
    · simp only [insertPair, hk, if_false, List.map_cons]
      refine List.nodup_cons.2 ⟨?_, ih hrest⟩
      rw [mem_keys_insertPair]
      rintro (h | h)
      · exact hk h
      · exact hq h

def get? (m : OrderedMap κ ν) (k : κ) : Option ν := lookup k m.entries

def contains (m : OrderedMap κ ν) (k : κ) : Bool := (m.get? k).isSome

def insert (m : OrderedMap κ ν) (k : κ) (v : ν) : OrderedMap κ ν :=
  ⟨insertPair k v m.entries, nodup_keys_insertPair m.keys_nodup⟩

def alter (m : OrderedMap κ ν) (k : κ) (f : Option ν → ν) : OrderedMap κ ν :=
  m.insert k (f (m.get? k))

/-- The map of a list of pairs, in which the last value of a key counts. -/
def ofList (pairs : List (κ × ν)) : OrderedMap κ ν :=
  pairs.foldl (fun m p => m.insert p.1 p.2) empty

/-- Whether two maps have the same keys, in any order, with values that `same` relates. -/
def agrees (same : ν → ν → Bool) (a b : OrderedMap κ ν) : Bool :=
  a.size == b.size && a.entries.all fun (k, v) => (b.get? k).any (same v ·)

@[simp] theorem get?_empty (k : κ) : (empty : OrderedMap κ ν).get? k = none := rfl

theorem lookup_insertPair (k k' : κ) (v : ν) (pairs : List (κ × ν)) :
    lookup k' (insertPair k v pairs) = if k = k' then some v else lookup k' pairs := by
  induction pairs with
  | nil => simp [insertPair, lookup]
  | cons p rest ih =>
    obtain ⟨q, w⟩ := p
    by_cases hq : q = k
    · subst hq
      by_cases h : q = k' <;> simp [insertPair, lookup, h]
    · by_cases h : k = k'
      · subst h; simp [insertPair, lookup, hq, ih]
      · by_cases h' : q = k'
        · subst h'; simp [insertPair, lookup, hq, h]
        · simp [insertPair, lookup, hq, h, h', ih]

/-- A key has the value last set for it, and setting one key leaves the others alone. -/
theorem get?_insert (m : OrderedMap κ ν) (k k' : κ) (v : ν) :
    (m.insert k v).get? k' = if k = k' then some v else m.get? k' :=
  lookup_insertPair k k' v m.entries

theorem get?_alter (m : OrderedMap κ ν) (k k' : κ) (f : Option ν → ν) :
    (m.alter k f).get? k' = if k = k' then some (f (m.get? k)) else m.get? k' :=
  get?_insert m k k' _

theorem keys_insertPair_of_mem {k : κ} {v : ν} {pairs : List (κ × ν)}
    (h : k ∈ pairs.map Prod.fst) :
    (insertPair k v pairs).map Prod.fst = pairs.map Prod.fst := by
  induction pairs with
  | nil => simp at h
  | cons p rest ih =>
    obtain ⟨q, w⟩ := p
    by_cases hq : q = k
    · simp [insertPair, hq]
    · have : k ∈ rest.map Prod.fst := by
        rcases List.mem_cons.1 h with h | h
        · exact absurd h.symm hq
        · exact h
      simp [insertPair, hq, ih this]

theorem insertPair_of_not_mem {k : κ} {v : ν} {pairs : List (κ × ν)}
    (h : k ∉ pairs.map Prod.fst) : insertPair k v pairs = pairs ++ [(k, v)] := by
  induction pairs with
  | nil => rfl
  | cons p rest ih =>
    obtain ⟨q, w⟩ := p
    have hq : ¬ q = k := fun e => h (by simp [e])
    have : k ∉ rest.map Prod.fst := fun e => h (List.mem_cons_of_mem _ e)
    simp [insertPair, hq, ih this]

end OrderedMap

end PathAssembly

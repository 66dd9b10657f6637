import PathAssembly.Text.CodePoint

/-!
# Blanks

The blank characters of every script, and texts without blanks at their ends. Halves of characters
are not blank.
-/

namespace PathAssembly.Text

/-- Whether a character is blank: a space of any width, a tab, or a line, paragraph, file, group,
record or unit separator. -/
def isBlank (c : Char) : Bool :=
  let n := c.toNat
  (9 ≤ n && n ≤ 13) || (0x1c ≤ n && n ≤ 0x20) || n == 0x85 || n == 0xa0 || n == 0x1680
    || (0x2000 ≤ n && n ≤ 0x200a) || n == 0x2028 || n == 0x2029 || n == 0x202f || n == 0x205f
    || n == 0x3000

/-- Whether a character is one of the six blanks of the basic Latin letters. -/
def isBasicBlank (c : Char) : Bool :=
  let n := c.toNat
  (9 ≤ n && n ≤ 13) || n == 0x20

def trimWhere {α : Type} (p : α → Bool) (cs : List α) : List α :=
  ((cs.dropWhile p).reverse.dropWhile p).reverse

def trim (cs : List Char) : List Char := trimWhere isBlank cs

def trimPoints (ps : List CodePoint) : List CodePoint := trimWhere (fun p => p.char?.any isBlank) ps

theorem trimWhere_eq_self {α : Type} {p : α → Bool} {cs : List α}
    (hfirst : ∀ c, cs.head? = some c → p c = false)
    (hlast : ∀ c, cs.getLast? = some c → p c = false) : trimWhere p cs = cs := by
  have drop : ∀ ds : List α, (∀ c, ds.head? = some c → p c = false) → ds.dropWhile p = ds := by
    intro ds h
    cases ds with
    | nil => rfl
    | cons d rest => simp [h d rfl]
  rw [trimWhere, drop cs hfirst, drop cs.reverse (by simpa using hlast), List.reverse_reverse]

theorem trimWhere_map {α β : Type} (f : α → β) (p : β → Bool) (cs : List α) :
    trimWhere p (cs.map f) = (trimWhere (p ∘ f) cs).map f := by
  simp [trimWhere, List.dropWhile_map, ← List.map_reverse]

theorem trimPoints_map_char (cs : List Char) : trimPoints (cs.map .char) = (trim cs).map .char :=
  trimWhere_map CodePoint.char _ cs

end PathAssembly.Text

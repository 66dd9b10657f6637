/-!
# Fields

Sequences of characters or code points, cut at every occurrence of a separator.
-/

namespace PathAssembly.Text

variable {α : Type} [DecidableEq α]

/-- The fields between separators; `n` separators make `n + 1` fields. -/
def fields (separator : α) : List α → List (List α)
  | [] => [[]]
  | c :: rest =>
    if c = separator then [] :: fields separator rest
    else match fields separator rest with
      | [] => [[c]]
      | first :: others => (c :: first) :: others

theorem fields_of_not_mem {separator : α} {cs : List α} (h : separator ∉ cs) :
    fields separator cs = [cs] := by
  induction cs with
  | nil => rfl
  | cons c rest ih =>
    have hc : ¬ c = separator := fun e => h (by simp [e])
    simp [fields, hc, ih fun e => h (List.mem_cons_of_mem _ e)]

theorem fields_append_cons {separator : α} {cs rest : List α} (h : separator ∉ cs) :
    fields separator (cs ++ separator :: rest) = cs :: fields separator rest := by
  induction cs with
  | nil => simp [fields]
  | cons c cs ih =>
    have hc : ¬ c = separator := fun e => h (by simp [e])
    simp [fields, hc, ih fun e => h (List.mem_cons_of_mem _ e)]

/-- What is cut may be replaced one by one, as long as different things stay different. -/
theorem fields_map {β : Type} [DecidableEq β] {f : α → β} (hf : ∀ a b, f a = f b → a = b)
    (separator : α) (cs : List α) :
    fields (f separator) (cs.map f) = (fields separator cs).map (List.map f) := by
  induction cs with
  | nil => rfl
  | cons c rest ih =>
    by_cases hc : c = separator
    · simp [fields, hc, ih]
    · have hfc : ¬ f c = f separator := fun e => hc (hf _ _ e)
      simp only [List.map_cons, fields, hc, hfc, if_false, ih]
      cases fields separator rest <;> rfl

end PathAssembly.Text

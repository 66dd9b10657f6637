import PathAssembly.Text.Numeral

/-!
# Numerals that are written

The digits of a natural number are read as the same number, in base ten as long as there are not
too many of them. What is written holds digits alone, so that no sign, no blank, no underscore and
no mark of the base is met on the way.
-/

namespace PathAssembly.Text

variable {base n d : Nat} {ds : List Nat}

/-- What a written digit is taken for. -/
structure ReadsDigit (d : Nat) : Prop where
  basicNumeral_eq : basicNumeral (Nat.digitChar d) = Nat.digitChar d
  isBasicBlank_eq : isBasicBlank (Nat.digitChar d) = false
  isBlank_eq : isBlank (Nat.digitChar d) = false
  digit?_eq : digit? 16 (Nat.digitChar d) = some d

theorem readsDigit (h : d < 16) : ReadsDigit d := by
  have hall : ∀ e : Fin 16, basicNumeral (Nat.digitChar e) = Nat.digitChar e
      ∧ isBasicBlank (Nat.digitChar e) = false ∧ isBlank (Nat.digitChar e) = false
      ∧ digit? 16 (Nat.digitChar e) = some e.val := by decide
  obtain ⟨hbasic, hbasicBlank, hblank, hdigit⟩ := hall ⟨d, h⟩
  exact ⟨hbasic, hbasicBlank, hblank, hdigit⟩

theorem digit?_digitChar (hbase : base ≤ 16) (h : d < base) :
    digit? base (Nat.digitChar d) = some d := by
  have hsixteen := (readsDigit (Nat.lt_of_lt_of_le h hbase)).digit?_eq
  rw [digit?] at hsixteen ⊢
  exact Option.filter_eq_some_iff.2 ⟨(Option.filter_eq_some_iff.1 hsixteen).1, decide_eq_true h⟩

theorem laterDigits_digitChars (hbase : base ≤ 16) (h : ∀ d ∈ ds, d < base) :
    laterDigits base (ds.map Nat.digitChar) = some ds := by
  induction ds with
  | nil => rfl
  | cons d rest ih =>
      obtain ⟨hd, hrest⟩ := List.forall_mem_cons.1 h
      rw [List.map_cons]
      unfold laterDigits
      simp only [digit?_digitChar hbase hd, ih hrest]
      rfl

theorem digits?_digitChars (hbase : base ≤ 16) (hne : ds ≠ []) (h : ∀ d ∈ ds, d < base) :
    digits? base (ds.map Nat.digitChar) = some ds := by
  cases ds with
  | nil => exact absurd rfl hne
  | cons d rest =>
      obtain ⟨hd, hrest⟩ := List.forall_mem_cons.1 h
      rw [List.map_cons, digits?, digit?_digitChar hbase hd, laterDigits_digitChars hbase hrest]
      rfl

/-- Written digits have no mark of the base in front. -/
theorem natural?_digitChars (hbase : base ≤ 16) (hne : ds ≠ []) (h : ∀ d ∈ ds, d < base)
    (hlength : base = 10 → ds.length ≤ maxDecimalDigits) :
    natural? base (ds.map Nat.digitChar) = some (ofDigits base ds) := by
  have hdigits := digits?_digitChars hbase hne h
  have hmany : ¬ (base = 10 ∧ maxDecimalDigits < ds.length) := fun ⟨hten, hlt⟩ =>
    Nat.not_lt.2 (hlength hten) hlt
  have hmark : ∀ c ∈ ds.map Nat.digitChar, ¬ (c = 'x' ∨ c = 'X') := by simp
  have hread : (do
      let digits ← digits? base (ds.map Nat.digitChar)
      if base = 10 ∧ maxDecimalDigits < digits.length then none
      else some (ofDigits base digits)) = some (ofDigits base ds) := by
    rw [hdigits]
    exact if_neg hmany
  unfold natural?
  split
  next x rest hcs =>
    rw [if_neg (hmark x (by rw [hcs]; simp))]
    exact hread
  next x rest _ hcs =>
    rw [if_neg (hmark x (by rw [hcs]; simp))]
    exact hread
  next => exact hread

/-- The digits of a number are those of its places, the highest one first. -/
theorem exists_toDigits (hbase : 1 < base) (n : Nat) :
    ∃ ds, Nat.toDigits base n = ds.map Nat.digitChar ∧ ds ≠ [] ∧ (∀ d ∈ ds, d < base) ∧
      ofDigits base ds = n := by
  induction n using Nat.strongRecOn with
  | ind n ih =>
      rw [Nat.toDigits_eq_if hbase]
      split
      next hlt =>
        refine ⟨[n], rfl, List.cons_ne_nil n [], List.forall_mem_singleton.2 hlt, ?_⟩
        simp [ofDigits]
      next hle =>
        obtain ⟨ds, hds, _, hbound, hvalue⟩ := ih (n / base) (Nat.div_lt_self (by omega) hbase)
        refine ⟨ds ++ [n % base], ?_, by simp, ?_, ?_⟩
        · rw [hds, List.map_append, List.map_singleton]
        · rw [List.forall_mem_append, List.forall_mem_singleton]
          exact ⟨hbound, Nat.mod_lt n (by omega)⟩
        · rw [ofDigits, List.foldl_append, List.foldl_cons, List.foldl_nil]
          change ofDigits base ds * base + n % base = n
          rw [hvalue, Nat.div_add_mod']

/-- Nothing is cut from written digits, and none of them is exchanged for another character. -/
theorem numeralChars_digitChars (h : ∀ d ∈ ds, d < 16) :
    numeralChars (ds.map Nat.digitChar) = ds.map Nat.digitChar := by
  have hbasic : (ds.map Nat.digitChar).map basicNumeral = ds.map Nat.digitChar := by
    rw [List.map_map]
    exact List.map_congr_left fun d hd => (readsDigit (h d hd)).basicNumeral_eq
  have hblank : ∀ c ∈ ds.map Nat.digitChar, isBasicBlank c = false := by
    intro c hc
    obtain ⟨d, hd, rfl⟩ := List.mem_map.1 hc
    exact (readsDigit (h d hd)).isBasicBlank_eq
  rw [numeralChars, hbasic]
  exact trimWhere_eq_self (fun c hc => hblank c (List.mem_of_mem_head? hc))
    fun c hc => hblank c (List.mem_of_mem_getLast? hc)

theorem integer?_digitChars (hbase : base ≤ 16) (hne : ds ≠ []) (h : ∀ d ∈ ds, d < base)
    (hlength : base = 10 → ds.length ≤ maxDecimalDigits) :
    integer? base (ds.map Nat.digitChar) = some (ofDigits base ds : Int) := by
  have hnatural := natural?_digitChars hbase hne h hlength
  have hsign : ∀ c ∈ ds.map Nat.digitChar, c ≠ '-' ∧ c ≠ '+' := by simp
  rw [integer?, numeralChars_digitChars fun d hd => Nat.lt_of_lt_of_le (h d hd) hbase]
  split
  next rest hcs => exact absurd rfl (hsign '-' (by rw [hcs]; exact List.mem_cons_self)).1
  next rest hcs => exact absurd rfl (hsign '+' (by rw [hcs]; exact List.mem_cons_self)).2
  next =>
    rw [hnatural]
    rfl

theorem readInteger_toDigits_ten (h : (Nat.toDigits 10 n).length ≤ maxDecimalDigits) :
    readInteger 10 (Nat.toDigits 10 n) = .ok n := by
  obtain ⟨ds, hds, hne, hbound, hvalue⟩ := exists_toDigits (by decide : 1 < 10) n
  have hlength : ds.length ≤ maxDecimalDigits := by
    rwa [hds, List.length_map] at h
  rw [readInteger, hds, integer?_digitChars (by decide) hne hbound fun _ => hlength, hvalue]

theorem readInteger_toDigits_sixteen (n : Nat) :
    readInteger 16 (Nat.toDigits 16 n) = .ok n := by
  obtain ⟨ds, hds, hne, hbound, hvalue⟩ := exists_toDigits (by decide : 1 < 16) n
  have hten : (16 : Nat) = 10 → ds.length ≤ maxDecimalDigits := fun h => absurd h (by decide)
  rw [readInteger, hds, integer?_digitChars (Nat.le_refl 16) hne hbound hten, hvalue]

theorem plain_of_mem_toDigits (hbase : 1 < base) (hle : base ≤ 16) {c : Char}
    (h : c ∈ Nat.toDigits base n) : isBlank c = false ∧ c ≠ '-' ∧ c ≠ ':' := by
  obtain ⟨ds, hds, _, hbound, _⟩ := exists_toDigits hbase n
  rw [hds] at h
  obtain ⟨d, hd, rfl⟩ := List.mem_map.1 h
  exact ⟨(readsDigit (Nat.lt_of_lt_of_le (hbound d hd) hle)).isBlank_eq, by simp, by simp⟩

end PathAssembly.Text

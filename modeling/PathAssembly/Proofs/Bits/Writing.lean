import PathAssembly.Proofs.Bits.Masks

/-!
# Fields that are written

A field is written exactly if it fits its word and the value fits the field; a refusal does not
depend on the word. `Replaces` lists what a write then makes of a word of any sign: it is the word
with one field exchanged, of which the fields apart from it notice nothing. No size is too large
here; `writeBounded_eq_write` says of which numbers the same holds within bounds.
-/

namespace PathAssembly

namespace BitField

variable {f g : BitField} {value other : Int}

theorem check_eq_error (h : ¬ f.Fits) :
    ∃ fault, f.check = .error fault ∧ fault.kind = .invalid := by
  unfold check
  split
  next => exact ⟨_, rfl, rfl⟩
  next hwidth =>
    split
    next => exact ⟨_, rfl, rfl⟩
    next hinside =>
      refine absurd ?_ h
      unfold Fits
      omega

theorem read_eq_ok (hf : f.Fits) (word : Int) : f.read word = .ok (f.get word) := by
  rw [read, check_eq_ok_iff.2 hf]
  rfl

/-- A write is refused for its field or its value, whatever the word. -/
theorem write_eq_error (h : ¬ (f.Fits ∧ 0 ≤ value ∧ value < f.capacity)) :
    ∃ fault, fault.kind = .invalid ∧ ∀ word, f.write word value = .error fault := by
  by_cases hf : f.Fits
  · have hvalue : value < 0 ∨ f.capacity ≤ value := by
      by_contra hfits
      exact h ⟨hf, by omega⟩
    refine ⟨.valueTooWide value f.width, rfl, fun word => ?_⟩
    rw [write, check_eq_ok_iff.2 hf, Outcome.ok_bind, checkValue, if_pos hvalue]
    rfl
  · obtain ⟨fault, hcheck, hkind⟩ := check_eq_error hf
    refine ⟨fault, hkind, fun word => ?_⟩
    rw [write, hcheck]
    rfl

theorem set_get (f : BitField) (word : Int) : f.set word (f.get word) = word := by
  rw [set, Int.sub_self, Int.zero_mul, Int.add_zero]

theorem set_set (f : BitField) (word : Int) (h0 : 0 ≤ value) (h1 : value < f.capacity) :
    f.set (f.set word value) other = f.set word other := by
  rw [set, get_set f word h0 h1, set, set]
  ring

theorem set_comm (hf : f.Fits) (hg : g.Fits) (h : f.Apart g) (word : Int) (h0 : 0 ≤ value)
    (h1 : value < f.capacity) (h0' : 0 ≤ other) (h1' : other < g.capacity) :
    f.set (g.set word other) value = g.set (f.set word value) other := by
  have hkept := get_set_of_apart hf hg h word h0 h1
  have hkept' := get_set_of_apart hg hf h.symm word h0' h1'
  rw [set, hkept', set, set, hkept, set]
  ring

theorem read_set_of_apart (hf : f.Fits) (h : f.Apart g) (word : Int) (h0 : 0 ≤ value)
    (h1 : value < f.capacity) : g.read (f.set word value) = g.read word := by
  by_cases hg : g.Fits
  · rw [read_eq_ok hg, read_eq_ok hg, get_set_of_apart hf hg h word h0 h1]
  · obtain ⟨fault, hcheck, _⟩ := check_eq_error hg
    rw [read, read, hcheck]
    rfl

theorem write_set_of_apart (hf : f.Fits) (h : f.Apart g) (word : Int) (h0 : 0 ≤ value)
    (h1 : value < f.capacity) :
    (g.write word other >>= fun between => f.write between value)
      = g.write (f.set word value) other := by
  by_cases hg : g.Fits ∧ 0 ≤ other ∧ other < g.capacity
  · obtain ⟨hfits, h0', h1'⟩ := hg
    rw [write_eq_ok hfits word h0' h1', write_eq_ok hfits _ h0' h1', Outcome.ok_bind,
      write_eq_ok hf _ h0 h1, set_comm hf hfits h word h0 h1 h0' h1']
  · obtain ⟨fault, _, hrefused⟩ := write_eq_error hg
    rw [hrefused, hrefused]
    rfl

/-- What a write makes of a word. -/
structure Replaces (f : BitField) (word value written : Int) : Prop where
  masked : written = (word.land f.mask.lnot).lor (value <<< f.shift)
  read_eq : f.read written = .ok value
  read_apart : ∀ g : BitField, f.Apart g → g.read written = g.read word
  write_comm : ∀ (g : BitField) (other : Int), f.Apart g →
    (g.write word other >>= fun between => f.write between value) = g.write written other
  restores : (f.read word >>= fun before => f.write written before) = .ok word
  mem_range : 0 ≤ word ∧ word < Nat.pow 2 f.size.toNat →
    0 ≤ written ∧ written < Nat.pow 2 f.size.toNat

theorem replaces_set (hf : f.Fits) (word : Int) (h0 : 0 ≤ value) (h1 : value < f.capacity) :
    f.Replaces word value (f.set word value) where
  masked := set_eq_lor f word h0 h1
  read_eq := by rw [read_eq_ok hf, get_set f word h0 h1]
  read_apart _ h := read_set_of_apart hf h word h0 h1
  write_comm _ _ h := write_set_of_apart hf h word h0 h1
  restores := by
    rw [read_eq_ok hf, Outcome.ok_bind, write_eq_ok hf _ (f.get_nonneg word) (f.get_lt word),
      set_set f word h0 h1, set_get]
  mem_range hword := set_mem_range hf word hword.1 hword.2 h0 h1

example : write ⟨8, 8, 32⟩ (-1) 0 = .ok (-0xff0001) := by decide

/-- A write succeeds exactly if the field fits its word and the value the field. It then exchanges
this field alone; writing what was read changes nothing, and every refusal is one of the field or of
the value. -/
theorem write_settles (f : BitField) (word value : Int) :
    ((∃ written, f.write word value = .ok written) ↔
      f.Fits ∧ 0 ≤ value ∧ value < f.capacity) ∧
    (∀ written, f.write word value = .ok written → f.Replaces word value written) ∧
    (f.Fits → (f.read word >>= fun before => f.write word before) = .ok word) ∧
    ∀ fault, f.write word value = .error fault → fault.kind = .invalid := by
  refine ⟨⟨?_, ?_⟩, ?_, ?_, ?_⟩
  · rintro ⟨written, h⟩
    exact fits_of_write h
  · rintro ⟨hf, h0, h1⟩
    exact ⟨f.set word value, write_eq_ok hf word h0 h1⟩
  · intro written h
    obtain ⟨hf, h0, h1⟩ := fits_of_write h
    obtain rfl : f.set word value = written :=
      Except.ok.inj ((write_eq_ok hf word h0 h1).symm.trans h)
    exact replaces_set hf word h0 h1
  · intro hf
    rw [read_eq_ok hf, Outcome.ok_bind, write_eq_ok hf word (f.get_nonneg word) (f.get_lt word),
      set_get]
  · intro fault h
    by_cases hrange : f.Fits ∧ 0 ≤ value ∧ value < f.capacity
    · rw [write_eq_ok hrange.1 word hrange.2.1 hrange.2.2] at h
      cases h
    · obtain ⟨refusal, hkind, hrefused⟩ := write_eq_error hrange
      rw [hrefused] at h
      cases h
      exact hkind

end BitField

end PathAssembly

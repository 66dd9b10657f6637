import PathAssembly.Proofs.IsdAs.Notation

/-!
# One notation for every identifier

Writing an identifier out of range is refused, and an identifier in range is read back from what is
written of it; its notation is therefore its own. Reading is more generous than writing, with blanks
around a number, signs, leading zeros, underscores and the digits of other scripts. It still gives
nothing but identifiers in range, so that what is read can be written, and is then read alike.
-/

namespace PathAssembly.IsdAs

variable {a b : IsdAs}

theorem inRange_of_ofParts {isd asNumber : Int} (h : ofParts isd asNumber = .ok a) : a.InRange := by
  obtain ⟨_, hcheck, h⟩ := Outcome.bind_eq_ok_iff.1 h
  cases h
  unfold checkParts at hcheck
  split_ifs at hcheck with hisd hasNumber
  simp only [InRange, isdLimit, asLimit] at *
  omega

theorem inRange_of_read {text : List Text.CodePoint} (h : read text = .ok a) : a.InRange := by
  unfold read at h
  split at h
  next isd asNumber _ =>
    obtain ⟨_, _, h⟩ := Outcome.bind_eq_ok_iff.1 h
    obtain ⟨_, _, h⟩ := Outcome.bind_eq_ok_iff.1 h
    exact inRange_of_ofParts h
  next => cases h

example : parse " +01-0xFf00:0:1_10 " = .ok ⟨0x1_ff00_0000_0110⟩ := by decide

/-- An identifier out of range is refused for its isolation domain, since every number of 48 bits is
an AS number. -/
theorem format_eq_error (h : ¬ a.InRange) : a.format = .error (.isdOutOfRange a.isd) := by
  have hisd : a.isd < 0 ∨ isdLimit ≤ a.isd := by
    by_contra hinside
    have hsplit := a.isd_mul_add_asNumber
    have hnonneg := a.asNumber_nonneg
    have hlt := a.asNumber_lt
    refine h ?_
    simp only [InRange, isdLimit, asLimit] at *
    omega
  rw [format, checkParts, if_pos hisd]
  rfl

theorem inRange_of_format {text : String} (h : a.format = .ok text) : a.InRange :=
  exists_format_iff.1 ⟨text, h⟩

theorem eq_of_format_eq {text : String} (ha : a.format = .ok text) (hb : b.format = .ok text) :
    a = b := by
  have hra := inRange_of_format ha
  have hrb := inRange_of_format hb
  rw [format_eq_ok hra] at ha
  rw [format_eq_ok hrb] at hb
  have hread := parse_render hra
  rw [(Except.ok.inj ha).trans (Except.ok.inj hb).symm, parse_render hrb] at hread
  exact (Except.ok.inj hread).symm

/-- Exactly the identifiers in range have a notation. It is the notation of no other one and is read
as the identifier; and whatever text is read as an identifier, that identifier has a notation. -/
theorem format_reads_back (a : IsdAs) :
    ((∃ fault, a.format = .error fault ∧ fault.kind = .invalid) ↔ ¬ a.InRange) ∧
    (a.InRange → ∃ text, a.format = .ok text ∧ parse text = .ok a ∧
      ∀ b : IsdAs, b.format = .ok text → b = a) ∧
    ∀ text, read text = .ok a →
      a.InRange ∧ ∃ written, a.format = .ok written ∧ parse written = .ok a := by
  refine ⟨⟨?_, ?_⟩, ?_, ?_⟩
  · rintro ⟨fault, hfault, _⟩ hrange
    rw [format_eq_ok hrange] at hfault
    cases hfault
  · exact fun hrange => ⟨_, format_eq_error hrange, rfl⟩
  · exact fun hrange => ⟨a.render, format_eq_ok hrange, parse_render hrange,
      fun b hb => eq_of_format_eq hb (format_eq_ok hrange)⟩
  · intro text hread
    have hrange := inRange_of_read hread
    exact ⟨hrange, a.render, format_eq_ok hrange, parse_render hrange⟩

end PathAssembly.IsdAs

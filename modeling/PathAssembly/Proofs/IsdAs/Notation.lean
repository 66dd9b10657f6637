import PathAssembly.IsdAs.Notation
import PathAssembly.Proofs.Outcome
import PathAssembly.Proofs.Text.Numeral

/-!
# Reading identifiers back

The notation of an identifier is cut at the hyphen, and that of a large AS number at the colons;
neither stands inside a number. Each number reads back, and the numbers make up the identifier.
-/

namespace PathAssembly.IsdAs

open Text (readInteger)

variable {a : IsdAs} {n : Nat}

/-- A number of 32 bits has few enough digits to be read. -/
theorem length_toDigits_le (h : n < 0x1_0000_0000) :
    (Nat.toDigits 10 n).length ≤ Text.maxDecimalDigits :=
  Nat.le_trans ((Nat.length_toDigits_le_iff (by decide) (by decide)).2 (by omega : n < 10 ^ 10))
    (by decide : 10 ≤ Text.maxDecimalDigits)

theorem readInteger_groupChars (asNumber low : Nat) :
    readInteger 16 (groupChars asNumber low) = .ok ((asNumber / low % 0x1_0000 : Nat) : Int) :=
  Text.readInteger_toDigits_sixteen _

/-- A group of 16 bits is added behind the groups in front of it. -/
theorem readGroups_groupChars (text : List Text.CodePoint) (value : Int) (asNumber low : Nat)
    (rest : List (List Text.CodePoint)) :
    readGroups text value ((groupChars asNumber low).map .char :: rest)
      = readGroups text (value * 0x1_0000 + (asNumber / low % 0x1_0000 : Nat)) rest := by
  have hlt : asNumber / low % 0x1_0000 < 0x1_0000 := Nat.mod_lt _ (by decide)
  rw [readGroups, Text.readIntegerPoints_map_char, readInteger_groupChars, Outcome.ok_bind,
    if_neg (by omega)]

theorem not_mem_groupChars (asNumber low : Nat) : ':' ∉ groupChars asNumber low := fun h =>
  (Text.plain_of_mem_toDigits (by decide) (by decide) h).2.2 rfl

theorem readAsNumber_asNumberChars (h : n < 0x1_0000_0000_0000) :
    readAsNumber ((asNumberChars n).map .char) = .ok n := by
  rw [readAsNumber, fields_map_char, asNumberChars]
  split_ifs with hsmall
  · have hcolon : ':' ∉ Nat.toDigits 10 n := fun hmem =>
      (Text.plain_of_mem_toDigits (by decide) (by decide) hmem).2.2 rfl
    have hread := Text.readInteger_toDigits_ten (length_toDigits_le hsmall)
    have hrange : ¬ ((n : Int) < 0 ∨ decimalLimit ≤ n) := by
      unfold decimalLimit
      omega
    rw [Text.fields_of_not_mem hcolon]
    change (Text.readIntegerPoints 10 ((Nat.toDigits 10 n).map .char) >>= _) = _
    rw [Text.readIntegerPoints_map_char, hread, Outcome.ok_bind, if_neg hrange]
    rfl
  · rw [Text.fields_append_cons (not_mem_groupChars n _),
      Text.fields_append_cons (not_mem_groupChars n _),
      Text.fields_of_not_mem (not_mem_groupChars n _)]
    change readGroups _ 0 [(groupChars n 0x1_0000_0000).map .char,
      (groupChars n 0x1_0000).map .char, (groupChars n 1).map .char] = _
    rw [readGroups_groupChars, readGroups_groupChars, readGroups_groupChars, readGroups]
    congr 1
    omega

/-- Neither blanks nor hyphens stand in an AS number. -/
theorem plain_of_mem_asNumberChars {c : Char} (h : c ∈ asNumberChars n) :
    Text.isBlank c = false ∧ c ≠ '-' := by
  have hgroup {low : Nat} (hc : c ∈ groupChars n low) : Text.isBlank c = false ∧ c ≠ '-' :=
    have hplain := Text.plain_of_mem_toDigits (by decide) (by decide) hc
    ⟨hplain.1, hplain.2.1⟩
  have hcolon (hc : c = ':') : Text.isBlank c = false ∧ c ≠ '-' := by
    rw [hc]
    decide
  rw [asNumberChars] at h
  split_ifs at h
  · have hplain := Text.plain_of_mem_toDigits (by decide) (by decide) h
    exact ⟨hplain.1, hplain.2.1⟩
  · rw [List.mem_append, List.mem_cons, List.mem_append, List.mem_cons] at h
    rcases h with h | h | h | h | h
    · exact hgroup h
    · exact hcolon h
    · exact hgroup h
    · exact hcolon h
    · exact hgroup h

theorem isBlank_of_mem_chars {c : Char} (h : c ∈ a.chars) : Text.isBlank c = false := by
  rw [chars, List.mem_append, List.mem_cons] at h
  rcases h with h | h | h
  · exact (Text.plain_of_mem_toDigits (by decide) (by decide) h).1
  · rw [h]
    decide
  · exact (plain_of_mem_asNumberChars h).1

theorem format_eq_ok (h : a.InRange) : a.format = .ok a.render := by
  rw [format, checkParts_eq_ok_iff.2 h]
  rfl

theorem exists_format_iff : (∃ text, a.format = .ok text) ↔ a.InRange := by
  constructor
  · rintro ⟨text, h⟩
    obtain ⟨_, hcheck, _⟩ := Outcome.bind_eq_ok_iff.1 h
    exact checkParts_eq_ok_iff.1 hcheck
  · exact fun h => ⟨a.render, format_eq_ok h⟩

theorem ofParts_eq_ok (h : a.InRange) : ofParts a.isd a.asNumber = .ok a := by
  rw [ofParts, checkParts_eq_ok_iff.2 h, Outcome.ok_bind, isd_mul_add_asNumber]
  rfl

theorem parse_render (h : a.InRange) : parse a.render = .ok a := by
  have hsplit := a.isd_mul_add_asNumber
  have hnonneg := a.asNumber_nonneg
  have hlt := a.asNumber_lt
  have hrange := h
  unfold InRange at hrange
  unfold asLimit at hsplit hlt
  have hisd : ((a.isd.toNat : Nat) : Int) = a.isd := Int.toNat_of_nonneg (by omega)
  have hasNumber : ((a.asNumber.toNat : Nat) : Int) = a.asNumber := Int.toNat_of_nonneg hnonneg
  have hhyphen : '-' ∉ Nat.toDigits 10 a.isd.toNat := fun hmem =>
    (Text.plain_of_mem_toDigits (by decide) (by decide) hmem).2.1 rfl
  have hbehind : '-' ∉ asNumberChars a.asNumber.toNat := fun hmem =>
    (plain_of_mem_asNumberChars hmem).2 rfl
  have htrim : Text.trim a.render.toList = a.chars := by
    rw [render, String.toList_ofList]
    exact Text.trimWhere_eq_self (fun c hc => isBlank_of_mem_chars (List.mem_of_mem_head? hc))
      fun c hc => isBlank_of_mem_chars (List.mem_of_mem_getLast? hc)
  have hfirst : readInteger 10 (Nat.toDigits 10 a.isd.toNat) = .ok a.isd := by
    have hsmall : a.isd.toNat < 0x1_0000_0000 := by omega
    rw [Text.readInteger_toDigits_ten (length_toDigits_le hsmall), hisd]
  have hsecond : parseAsNumber (String.ofList (asNumberChars a.asNumber.toNat))
      = .ok a.asNumber := by
    rw [parseAsNumber, Text.points, String.toList_ofList,
      readAsNumber_asNumberChars (by omega), hasNumber]
  rw [parse_eq, htrim, chars, Text.fields_append_cons hhyphen, Text.fields_of_not_mem hbehind]
  change (readInteger 10 _ >>= fun isd => parseAsNumber _ >>= fun asNumber =>
    ofParts isd asNumber) = _
  rw [hfirst, Outcome.ok_bind, hsecond, Outcome.ok_bind, ofParts_eq_ok h]

end PathAssembly.IsdAs

import PathAssembly.Fixture.Document
import PathAssembly.Proofs.Outcome

/-!
# Refusals of invalid values

Operations on fixture values that refuse what they are given only as invalid: texts and names are
read, and integers are fitted to a width, whatever they are. Such operations compose.
-/

namespace PathAssembly

/-- An operation that fails for invalid values only. -/
def OnlyInvalid {α : Type} (x : Except Fault α) : Prop :=
  ∀ fault, x = .error fault → fault.kind = .invalid

namespace OnlyInvalid

variable {α β : Type} {x : Except Fault α} {f : α → Except Fault β}

theorem ok (a : α) : OnlyInvalid (Except.ok a : Except Fault α) := nofun

theorem error {fault : Fault} (h : fault.kind = .invalid) :
    OnlyInvalid (.error fault : Except Fault α) := by
  intro fault' hfault
  rwa [← Except.error.inj hfault]

theorem bind (hx : OnlyInvalid x) (hf : ∀ a, OnlyInvalid (f a)) : OnlyInvalid (x >>= f) := by
  cases x with
  | error fault => exact error (hx fault rfl)
  | ok a => exact hf a

theorem map (hx : OnlyInvalid x) (f : α → β) : OnlyInvalid (x >>= fun a => pure (f a)) :=
  hx.bind fun a => ok (f a)

theorem mapM {f : α → Except Fault β} {xs : List α} (h : ∀ x ∈ xs, OnlyInvalid (f x)) :
    OnlyInvalid (xs.mapM f) := by
  intro fault hfault
  obtain ⟨x, hx, hfault⟩ := Outcome.exists_of_mapM_eq_error hfault
  exact h x hx fault hfault

end OnlyInvalid

theorem Text.onlyInvalid_readIntegerPoints (base : Nat) (points : List Text.CodePoint) :
    OnlyInvalid (Text.readIntegerPoints base points) := by
  unfold readIntegerPoints
  split
  · unfold readInteger
    split
    · exact .ok _
    · exact .error rfl
  · exact .error rfl

theorem Binary64.onlyInvalid_readPoints (points : List Text.CodePoint) :
    OnlyInvalid (readPoints points) := by
  unfold readPoints
  split
  · unfold read
    split
    · exact .ok _
    · exact .error rfl
  · exact .error rfl

theorem Scalar.onlyInvalid_shown (s : Scalar) : OnlyInvalid s.shown := by
  cases s with
  | int i =>
      change OnlyInvalid (showInteger i)
      unfold showInteger
      split
      · exact .ok _
      · exact .error rfl
  | bool b => cases b <;> exact .ok _
  | _ => exact .ok _

theorem Scalar.onlyInvalid_asText (s : Scalar) : OnlyInvalid s.asText := by
  unfold asText
  split
  · exact .ok _
  · exact .ok _
  · exact s.onlyInvalid_shown.map _

namespace Value

mutual

theorem onlyInvalid_shown (v : Value) : OnlyInvalid v.shown := by
  cases v with
  | scalar s => exact s.onlyInvalid_shown
  | list items => exact (onlyInvalid_shownItems items).map _
  | map pairs => exact (onlyInvalid_shownPairs pairs).map _

theorem onlyInvalid_shownItems (items : List Value) : OnlyInvalid (shownItems items) := by
  cases items with
  | nil => exact .ok _
  | cons v rest => exact (onlyInvalid_shown v).bind fun _ => (onlyInvalid_shownItems rest).map _

theorem onlyInvalid_shownPairs (pairs : List (Scalar × Value)) :
    OnlyInvalid (shownPairs pairs) := by
  cases pairs with
  | nil => exact .ok _
  | cons pair rest =>
      exact (Scalar.onlyInvalid_shown pair.1).bind fun _ =>
        (onlyInvalid_shown pair.2).bind fun _ => (onlyInvalid_shownPairs rest).map _

end

theorem onlyInvalid_asText (v : Value) : OnlyInvalid v.asText := by
  cases v with
  | scalar s => exact s.onlyInvalid_asText
  | list items => exact (onlyInvalid_shown _).map _
  | map pairs => exact (onlyInvalid_shown _).map _

theorem onlyInvalid_asString (v : Value) : OnlyInvalid v.asString := v.onlyInvalid_asText.map _

end Value

namespace IsdAs

theorem onlyInvalid_readGroups (text : List Text.CodePoint) (groups : List (List Text.CodePoint))
    (value : Int) : OnlyInvalid (readGroups text value groups) := by
  induction groups generalizing value with
  | nil => exact .ok _
  | cons group rest ih =>
      refine (Text.onlyInvalid_readIntegerPoints 16 group).bind fun n => ?_
      split_ifs
      · exact .error rfl
      · exact ih _

theorem onlyInvalid_readAsNumber (text : List Text.CodePoint) :
    OnlyInvalid (readAsNumber text) := by
  unfold readAsNumber
  split
  · refine (Text.onlyInvalid_readIntegerPoints 10 text).bind fun n => ?_
    split_ifs
    · exact .error rfl
    · exact .ok _
  · split_ifs
    · exact onlyInvalid_readGroups text _ _
    · exact .error rfl

theorem onlyInvalid_checkParts (isd asNumber : Int) : OnlyInvalid (checkParts isd asNumber) := by
  unfold checkParts
  split_ifs
  · exact .error rfl
  · exact .error rfl
  · exact .ok _

theorem onlyInvalid_read (text : List Text.CodePoint) : OnlyInvalid (read text) := by
  unfold read
  split
  · refine (Text.onlyInvalid_readIntegerPoints 10 _).bind fun isd => ?_
    refine (onlyInvalid_readAsNumber _).bind fun asNumber => ?_
    exact (onlyInvalid_checkParts isd asNumber).map _
  · exact .error rfl

end IsdAs

theorem Value.onlyInvalid_asIsdAs (v : Value) : OnlyInvalid v.asIsdAs := by
  unfold asIsdAs
  split
  · exact .ok _
  · exact .ok _
  · exact v.onlyInvalid_asText.bind fun text => IsdAs.onlyInvalid_read text

theorem Value.onlyInvalid_asMac (v : Value) : OnlyInvalid v.asMac := by
  unfold asMac
  split
  · split
    · exact .error rfl
    · split_ifs
      · exact .ok _
      · exact .error rfl
  · exact v.onlyInvalid_shown.bind fun _ => .error rfl

theorem onlyInvalid_unsigned (name : String) (bits : Nat) (value : Int) :
    OnlyInvalid (unsigned name bits value) := by
  unfold unsigned
  split_ifs
  · exact .error rfl
  · exact .ok _

theorem SegmentType.onlyInvalid_ofText (text : String) : OnlyInvalid (ofText text) := by
  unfold ofText
  split
  · exact .ok _
  · exact .error rfl

theorem LinkType.onlyInvalid_ofText (text : String) : OnlyInvalid (ofText text) := by
  unfold ofText
  split
  · exact .ok _
  · exact .error rfl

end PathAssembly

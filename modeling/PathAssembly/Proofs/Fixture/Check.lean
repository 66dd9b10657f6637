import PathAssembly.Proofs.Fixture.Invalid

/-!
# Checks on fixture values

What a reader checks of a document, one thing after the other, and how a check fails. Most checks
refuse an invalid value. A few are demands that some values cannot even be asked, such as an integer
of a list: there the reader breaks off in another way. `Check.unmet` lists these, and
`Check.breaksOff` says that there are no others.
-/

namespace PathAssembly

/-- What a reader checks. -/
inductive Check where
  | keys (v : Value) (kind : String) (allowed : List String)
  | fields (v : Value)
  | refused (fault : Fault) (invalid : fault.kind = .invalid)
  | integer (v : Value)
  | number (v : Value)
  | text (v : Value)
  | identifier (v : Value)
  | mac (v : Value)
  | linkType (v : Value)
  | role (v : Value)
  | width (name : String) (bits : Nat) (i : Int)

namespace Check

/-- How a check fails, if it does. -/
def fault : Check → Option Fault
  | keys v kind allowed => Outcome.fault? (v.checkKeys kind allowed)
  | fields (.map _) => none
  | fields _ => some .missingFeature
  | refused fault _ => some fault
  | integer v => Outcome.fault? v.asInteger
  | number v => Outcome.fault? v.asNumber
  | text v => Outcome.fault? v.asString
  | identifier v => Outcome.fault? v.asIsdAs
  | mac v => Outcome.fault? v.asMac
  | linkType v => Outcome.fault? (v.asString >>= LinkType.ofText)
  | role v => Outcome.fault? (PathSegment.readType v)
  | width name bits i => Outcome.fault? (unsigned name bits i)

/-- An integer is not asked of nothing, of a timestamp, a list or a mapping, nor of an infinity. -/
def unmetInteger : Value → Option Fault
  | .scalar .null | .scalar (.time _) | .list _ | .map _ => some .wrongShape
  | .scalar (.float x) => if x.isInfinite then some .integerOfInfinity else none
  | _ => none

/-- A number is not asked of nothing, of a timestamp, a list or a mapping, nor of an integer whose
nearest number is an infinity. -/
def unmetNumber : Value → Option Fault
  | .scalar .null | .scalar (.time _) | .list _ | .map _ => some .wrongShape
  | .scalar (.int i) =>
    if (Binary64.ofRatio (i < 0) i.natAbs 1).isInfinite then some .integerTooLarge else none
  | _ => none

/-- The name of a role is not asked of what counts as true and is no text. -/
def unmetRole : Value → Option Fault
  | .scalar (.text _) => none
  | v => if v.truth then some .missingFeature else none

/-- How a reader breaks off at a check whose value cannot be asked. Keys are not asked of what has
no members that could be keys. -/
def unmet : Check → Option Fault
  | keys v _ _ => Outcome.fault? v.members
  | fields (.map _) => none
  | fields _ => some .missingFeature
  | integer v => unmetInteger v
  | number v => unmetNumber v
  | role v => unmetRole v
  | refused .. | text _ | identifier _ | mac _ | linkType _ | width .. => none

end Check

namespace Value

theorem eq_wrongShape_of_members {v : Value} {fault : Fault} (h : v.members = .error fault) :
    fault = .wrongShape := by
  cases v with
  | map pairs => cases h
  | list items =>
      obtain ⟨item, _, hitem⟩ := Outcome.exists_of_mapM_eq_error h
      split at hitem
      · cases hitem
      · exact (Except.error.inj hitem).symm
  | scalar s =>
      cases s with
      | text points => cases h
      | _ => exact (Except.error.inj h).symm

theorem onlyInvalid_checkKeys {v : Value} {members : List Scalar} (h : v.members = .ok members)
    (kind : String) (allowed : List String) : OnlyInvalid (v.checkKeys kind allowed) := by
  rw [checkKeys, h, Outcome.ok_bind]
  dsimp only
  split_ifs
  · exact .ok _
  · exact (OnlyInvalid.mapM fun s _ => s.onlyInvalid_asText).bind fun _ => .error rfl

end Value

/-- An operation that can break off does so, and one that cannot fails for invalid values only. -/
def BreaksOff (unmet fault : Option Fault) : Prop :=
  match unmet with
  | some broken => fault = some broken
  | none => ∀ first, fault = some first → first.kind = .invalid

theorem OnlyInvalid.breaksOff {α : Type} {x : Except Fault α} (h : OnlyInvalid x) :
    BreaksOff none (Outcome.fault? x) :=
  fun first hfirst => h first (Outcome.fault?_eq_some_iff.1 hfirst)

theorem breaksOff_ite {α : Type} {x : Except Fault α} {c : Prop} [Decidable c] (fault : Fault)
    (h : OnlyInvalid x) :
    BreaksOff (if c then some fault else none)
      (Outcome.fault? (if c then .error fault else x)) := by
  split_ifs
  · rfl
  · exact h.breaksOff

theorem Binary64.isNaN_of_isInfinite {x : Binary64} (h : x.isInfinite = true) :
    x.isNaN = false := by
  obtain ⟨_, hfraction⟩ := Bool.and_eq_true_iff.1 h
  rw [isNaN, bne, hfraction]
  exact Bool.and_false _

theorem Binary64.breaksOff_truncate (x : Binary64) :
    BreaksOff (if x.isInfinite then some .integerOfInfinity else none)
      (Outcome.fault? x.truncate) := by
  unfold truncate
  by_cases hinfinite : x.isInfinite = true
  · rw [isNaN_of_isInfinite hinfinite, if_pos hinfinite, if_pos hinfinite]
    rfl
  · rw [if_neg hinfinite, if_neg hinfinite]
    by_cases hnan : x.isNaN = true
    · rw [if_pos hnan]
      exact (OnlyInvalid.error rfl).breaksOff
    · rw [if_neg hnan]
      exact (OnlyInvalid.ok _).breaksOff

theorem Binary64.breaksOff_ofInt (i : Int) :
    BreaksOff (if (ofRatio (i < 0) i.natAbs 1).isInfinite then some .integerTooLarge else none)
      (Outcome.fault? (ofInt i)) := breaksOff_ite _ (.ok _)

namespace Check

theorem breaksOff_asInteger (v : Value) :
    BreaksOff (unmetInteger v) (Outcome.fault? v.asInteger) := by
  cases v with
  | list | map => rfl
  | scalar s =>
      cases s with
      | null | time => rfl
      | bool | int => exact (OnlyInvalid.ok _).breaksOff
      | nan => exact (OnlyInvalid.error rfl).breaksOff
      | float x => exact x.breaksOff_truncate
      | text points => exact (Text.onlyInvalid_readIntegerPoints 10 points).breaksOff

theorem breaksOff_asNumber (v : Value) :
    BreaksOff (unmetNumber v) (Outcome.fault? v.asNumber) := by
  cases v with
  | list | map => rfl
  | scalar s =>
      cases s with
      | null | time => rfl
      | bool b =>
          cases b with
          | false => exact (OnlyInvalid.ok _).breaksOff
          | true => exact (OnlyInvalid.ok _).breaksOff
      | float | nan => exact (OnlyInvalid.ok _).breaksOff
      | int i => exact Binary64.breaksOff_ofInt i
      | text points => exact (Binary64.onlyInvalid_readPoints points).breaksOff

theorem breaksOff_readType (v : Value) :
    BreaksOff (unmetRole v) (Outcome.fault? (PathSegment.readType v)) := by
  cases v with
  | list | map => exact breaksOff_ite _ (.ok _)
  | scalar s =>
      cases s with
      | text points =>
          unfold PathSegment.readType
          split_ifs
          · exact (SegmentType.onlyInvalid_ofText _).breaksOff
          · exact (OnlyInvalid.ok _).breaksOff
      | null => exact (OnlyInvalid.ok _).breaksOff
      | nan | time => rfl
      | _ => exact breaksOff_ite _ (.ok _)

theorem breaksOff_checkKeys (v : Value) (kind : String) (allowed : List String) :
    BreaksOff (Outcome.fault? v.members) (Outcome.fault? (v.checkKeys kind allowed)) := by
  cases hmembers : v.members with
  | error fault =>
      rw [Value.checkKeys, hmembers]
      rfl
  | ok members => exact (Value.onlyInvalid_checkKeys hmembers kind allowed).breaksOff

/-- Every check breaks off where it says, and fails for invalid values only otherwise. -/
theorem breaksOff (c : Check) : BreaksOff c.unmet c.fault := by
  cases c with
  | keys v kind allowed => exact breaksOff_checkKeys v kind allowed
  | fields v =>
      cases v with
      | map => exact nofun
      | scalar | list => rfl
  | refused fault invalid =>
      intro first hfirst
      rwa [← Option.some.inj hfirst]
  | integer v => exact breaksOff_asInteger v
  | number v => exact breaksOff_asNumber v
  | role v => exact breaksOff_readType v
  | text v => exact v.onlyInvalid_asString.breaksOff
  | identifier v => exact v.onlyInvalid_asIsdAs.breaksOff
  | mac v => exact v.onlyInvalid_asMac.breaksOff
  | linkType v =>
      exact (v.onlyInvalid_asString.bind fun text => LinkType.onlyInvalid_ofText text).breaksOff
  | width name bits i => exact (onlyInvalid_unsigned name bits i).breaksOff

/-- There are three ways to break off, none of them that of an invalid value or of a missing key. -/
theorem kind_of_unmet {c : Check} {fault : Fault} (h : c.unmet = some fault) :
    fault.kind ∈ [FaultKind.wrongShape, .missingFeature, .overflow] := by
  cases c with
  | keys v kind allowed =>
      rw [Value.eq_wrongShape_of_members (Outcome.fault?_eq_some_iff.1 h)]
      decide
  | fields v =>
      cases v with
      | map => cases h
      | scalar | list =>
          cases h
          decide
  | integer v =>
      dsimp only [unmet] at h
      unfold unmetInteger at h
      split at h
      case h_5 => split_ifs at h; cases h; decide
      all_goals cases h <;> decide
  | number v =>
      dsimp only [unmet] at h
      unfold unmetNumber at h
      split at h
      case h_5 => split_ifs at h; cases h; decide
      all_goals cases h <;> decide
  | role v =>
      dsimp only [unmet] at h
      unfold unmetRole at h
      split at h
      · cases h
      · split_ifs at h
        cases h
        decide
  | refused | text | identifier | mac | linkType | width => cases h

theorem kind_ne_invalid_iff {c : Check} {fault : Fault} (h : c.fault = some fault) :
    fault.kind ≠ .invalid ↔ c.unmet = some fault := by
  have hbreaks := c.breaksOff
  constructor
  · intro hkind
    cases hunmet : c.unmet with
    | none =>
        rw [hunmet] at hbreaks
        exact absurd (hbreaks fault h) hkind
    | some broken =>
        rw [hunmet] at hbreaks
        exact (hbreaks : c.fault = some broken).symm.trans h
  · intro hunmet hinvalid
    have hkind := kind_of_unmet hunmet
    rw [hinvalid] at hkind
    exact absurd hkind (by decide)

end Check

end PathAssembly

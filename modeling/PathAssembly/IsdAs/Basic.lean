import PathAssembly.Fault

/-!
# ISD-AS identifiers

An ISD-AS names an autonomous system: 16 bits of isolation domain above 48 bits of AS number. The
value is an integer of any size, since identifiers reach the library unchecked; `IsdAs.InRange` is
the range in which both parts exist. AS number 0 is the wildcard of an isolation domain.
-/

namespace PathAssembly

/-- An identifier of an AS, in range or not. -/
structure IsdAs where
  value : Int
  deriving DecidableEq, Repr

namespace IsdAs

instance : Hashable IsdAs := ⟨fun a => hash a.value⟩

def isdLimit : Int := 0x1_0000

def asLimit : Int := 0x1_0000_0000_0000

def isd (a : IsdAs) : Int := a.value / asLimit

def asNumber (a : IsdAs) : Int := a.value % asLimit

def wildcard (a : IsdAs) : IsdAs := ⟨a.isd * asLimit⟩

def isWildcard (a : IsdAs) : Bool := a == a.wildcard

def InRange (a : IsdAs) : Prop := 0 ≤ a.value ∧ a.value < 0x1_0000_0000_0000_0000

instance (a : IsdAs) : Decidable a.InRange := inferInstanceAs (Decidable (_ ∧ _))

/-- Refuses parts that do not exist, the isolation domain first. -/
def checkParts (isd asNumber : Int) : Except Fault Unit :=
  if isd < 0 ∨ isdLimit ≤ isd then .error (.isdOutOfRange isd)
  else if asNumber < 0 ∨ asLimit ≤ asNumber then .error (.asOutOfRange asNumber)
  else .ok ()

def ofParts (isd asNumber : Int) : Except Fault IsdAs := do
  checkParts isd asNumber
  return ⟨isd * asLimit + asNumber⟩

theorem asNumber_nonneg (a : IsdAs) : 0 ≤ a.asNumber := Int.emod_nonneg _ (by decide)

theorem asNumber_lt (a : IsdAs) : a.asNumber < asLimit := Int.emod_lt_of_pos _ (by decide)

theorem isd_mul_add_asNumber (a : IsdAs) : a.isd * asLimit + a.asNumber = a.value := by
  rw [Int.mul_comm]; exact Int.mul_ediv_add_emod a.value asLimit

theorem checkParts_eq_ok_iff {a : IsdAs} :
    checkParts a.isd a.asNumber = .ok () ↔ a.InRange := by
  have h1 := a.asNumber_nonneg
  have h2 := a.asNumber_lt
  have h3 := a.isd_mul_add_asNumber
  unfold checkParts InRange
  by_cases hi : a.isd < 0 ∨ isdLimit ≤ a.isd
  · rw [if_pos hi]
    simp only [isdLimit, asLimit, reduceCtorEq, false_iff] at *
    omega
  · have ha : ¬ (a.asNumber < 0 ∨ asLimit ≤ a.asNumber) := by omega
    rw [if_neg hi, if_neg ha]
    simp only [isdLimit, asLimit, true_iff] at *
    omega

end IsdAs

end PathAssembly

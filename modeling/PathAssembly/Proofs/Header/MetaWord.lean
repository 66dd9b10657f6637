import PathAssembly.Header.Basic
import PathAssembly.Proofs.Header.Field
import PathAssembly.Proofs.Outcome

/-!
# The meta word

The meta word is written field by field: two indices, then the lengths of the segment slots from the
first one on. `setLengths` is the word after the lengths, without the checks; the fields lie apart,
so that each of them reads back and a slot to which no length is written keeps what it held. A
length of zero therefore writes nothing, and lengths may be filled up with zeros to three.
-/

namespace PathAssembly

namespace PathHeader

def LengthFits (length : Int) : Prop := 0 ≤ length ∧ length ≤ maxHops

def setLengths (slot : Nat) (word : Int) : List Int → Int
  | [] => word
  | length :: rest => setLengths (slot + 1) ((lengthField slot).set word length) rest

theorem fits_lengthField {slot : Nat} (h : slot < maxSegments) : (lengthField slot).Fits := by
  unfold maxSegments at h
  simp only [lengthField, BitField.Fits]
  omega

theorem apart_lengthField {slot other : Nat} (h : slot ≠ other) :
    (lengthField slot).Apart (lengthField other) := by
  refine ⟨rfl, ?_⟩
  simp only [lengthField]
  omega

theorem fits_currInfField : currInfField.Fits := by decide

theorem fits_currHfField : currHfField.Fits := by decide

theorem apart_currInfField (slot : Nat) : (lengthField slot).Apart currInfField := by
  refine ⟨rfl, ?_⟩
  simp only [lengthField, currInfField]
  omega

theorem apart_currHfField (slot : Nat) : (lengthField slot).Apart currHfField := by
  refine ⟨rfl, ?_⟩
  simp only [lengthField, currHfField]
  omega

theorem LengthFits.lt_capacity {length : Int} (h : LengthFits length) (slot : Nat) :
    length < (lengthField slot).capacity := by
  have hcapacity : (lengthField slot).capacity = 64 := rfl
  obtain ⟨_, hle⟩ := h
  unfold maxHops at hle
  omega

theorem writeLengths_eq_ok (slot : Nat) (word : Int) {lengths : List Int}
    (h : ∀ length ∈ lengths, LengthFits length) (hslots : slot + lengths.length ≤ maxSegments) :
    writeLengths slot word lengths = .ok (setLengths slot word lengths) := by
  induction lengths generalizing slot word with
  | nil => rfl
  | cons length rest ih =>
      obtain ⟨hfits, hrest⟩ := List.forall_mem_cons.1 h
      rw [List.length_cons] at hslots
      have hwrite := BitField.write_eq_ok (fits_lengthField (by omega : slot < maxSegments)) word
        hfits.1 (hfits.lt_capacity slot)
      simp only [writeLengths]
      rw [if_neg (Int.not_lt.2 hfits.2), hwrite]
      exact ih (slot + 1) _ hrest (by omega)

/-- Lengths do not reach a field that lies apart from every slot. -/
theorem get_setLengths_of_apart {g : BitField} (hg : g.Fits) {slot : Nat} {word : Int}
    {lengths : List Int} (h : ∀ length ∈ lengths, LengthFits length)
    (hslots : slot + lengths.length ≤ maxSegments)
    (hapart : ∀ other, slot ≤ other → other < slot + lengths.length → (lengthField other).Apart g) :
    g.get (setLengths slot word lengths) = g.get word := by
  induction lengths generalizing slot word with
  | nil => rfl
  | cons length rest ih =>
      obtain ⟨hfits, hrest⟩ := List.forall_mem_cons.1 h
      rw [List.length_cons] at hslots hapart
      have hset := BitField.get_set_of_apart (fits_lengthField (by omega : slot < maxSegments)) hg
        (hapart slot (Nat.le_refl slot) (by omega)) word hfits.1 (hfits.lt_capacity slot)
      rw [setLengths, ih hrest (by omega) fun other h0 h1 => hapart other (by omega) (by omega),
        hset]

/-- The lengths read back from the slots to which they are written. -/
theorem get_setLengths (slot : Nat) (word : Int) {lengths : List Int}
    (h : ∀ length ∈ lengths, LengthFits length) (hslots : slot + lengths.length ≤ maxSegments) :
    (List.range lengths.length).map
        (fun i => (lengthField (slot + i)).get (setLengths slot word lengths)) = lengths := by
  induction lengths generalizing slot word with
  | nil => rfl
  | cons length rest ih =>
      obtain ⟨hfits, hrest⟩ := List.forall_mem_cons.1 h
      rw [List.length_cons] at hslots
      have hslot := fits_lengthField (by omega : slot < maxSegments)
      have hfirst : (lengthField slot).get (setLengths slot word (length :: rest)) = length := by
        rw [setLengths, get_setLengths_of_apart hslot hrest (by omega)
          fun other h0 _ => apart_lengthField (by omega),
          BitField.get_set _ _ hfits.1 (hfits.lt_capacity slot)]
      have htail := ih (slot + 1) ((lengthField slot).set word length) hrest (by omega)
      rw [List.length_cons, List.range_succ_eq_map, List.map_cons, List.map_map, Nat.add_zero,
        hfirst]
      congr 1
      calc _ = (List.range rest.length).map (fun i => (lengthField (slot + 1 + i)).get
              (setLengths (slot + 1) ((lengthField slot).set word length) rest)) := by
            apply List.map_congr_left
            intro i _
            rw [Function.comp_apply, setLengths, Nat.succ_eq_add_one,
              (by omega : slot + (i + 1) = slot + 1 + i)]
        _ = rest := htail

theorem setLengths_append (slot : Nat) (word : Int) (first second : List Int) :
    setLengths slot word (first ++ second)
      = setLengths (slot + first.length) (setLengths slot word first) second := by
  induction first generalizing slot word with
  | nil => rfl
  | cons length rest ih =>
      rw [List.cons_append, setLengths, ih, setLengths, List.length_cons,
        (by omega : slot + (rest.length + 1) = slot + 1 + rest.length)]

/-- Zeros change nothing in slots that hold zeros. -/
theorem setLengths_replicate_zero {slot count : Nat} {word : Int}
    (h : ∀ other, slot ≤ other → other < slot + count → (lengthField other).get word = 0) :
    setLengths slot word (List.replicate count 0) = word := by
  induction count generalizing slot with
  | zero => rfl
  | succ count ih =>
      have hself : (lengthField slot).set word 0 = word := by
        rw [BitField.set, h slot (Nat.le_refl slot) (by omega)]
        omega
      rw [List.replicate_succ, setLengths, hself,
        ih fun other h0 h1 => h other (by omega) (by omega)]

theorem setLengths_mem_range {slot : Nat} {word : Int} {lengths : List Int}
    (hword : 0 ≤ word ∧ word < Nat.pow 256 metaSize)
    (h : ∀ length ∈ lengths, LengthFits length) (hslots : slot + lengths.length ≤ maxSegments) :
    0 ≤ setLengths slot word lengths ∧ setLengths slot word lengths < Nat.pow 256 metaSize := by
  induction lengths generalizing slot word with
  | nil => exact hword
  | cons length rest ih =>
      obtain ⟨hfits, hrest⟩ := List.forall_mem_cons.1 h
      rw [List.length_cons] at hslots
      have hset := BitField.set_mem_range (fits_lengthField (by omega : slot < maxSegments))
        word hword.1 hword.2 hfits.1 (hfits.lt_capacity slot)
      exact ih hset hrest (by omega)

end PathHeader

end PathAssembly

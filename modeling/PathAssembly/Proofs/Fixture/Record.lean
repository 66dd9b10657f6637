import Mathlib.Data.List.Nodup
import PathAssembly.Fixture.Record
import PathAssembly.Proofs.Outcome

/-!
# Fields of written records

A record whose keys are texts is a list of pairs: its fields are looked up by equality of texts, and
it passes the check of its keys if each of them is allowed.
-/

namespace PathAssembly

theorem Scalar.sameKey_ofString (a b : String) :
    (Scalar.ofString a).sameKey (.ofString b) = (a == b) := by
  have hinj : Text.points a = Text.points b ↔ a = b := by
    refine ⟨fun h => ?_, congrArg Text.points⟩
    rw [← Text.joined_points a, h, Text.joined_points]
  change (Text.points a == Text.points b) = (a == b)
  rw [Bool.eq_iff_iff, beq_iff_eq, beq_iff_eq, hinj]

namespace Value

variable {fields more : List (String × Value)} {key kind : String} {allowed : List String}

theorem members_record (fields : List (String × Value)) :
    (record fields).members = .ok (fields.map fun f => .ofString f.1) := by
  rw [record, members, List.map_map]
  rfl

theorem isAmong_ofString (key : String) (texts : List String) :
    isAmong texts (.ofString key) = decide (key ∈ texts) := by
  rw [isAmong, Bool.eq_iff_iff, List.any_eq_true, decide_eq_true_eq]
  constructor
  · rintro ⟨t, ht, hsame⟩
    rw [Scalar.sameKey_ofString, beq_iff_eq] at hsame
    rwa [hsame]
  · intro hkey
    refine ⟨key, hkey, ?_⟩
    rw [Scalar.sameKey_ofString, beq_self_eq_true]

theorem checkKeys_record (h : ∀ f ∈ fields, f.1 ∈ allowed) :
    (record fields).checkKeys kind allowed = .ok () := by
  have hunknown : ((fields.map fun f => Scalar.ofString f.1).filter
      fun s => !isAmong allowed s) = [] := by
    rw [List.filter_eq_nil_iff]
    intro s hs
    obtain ⟨f, hf, rfl⟩ := List.mem_map.1 hs
    rw [isAmong_ofString, decide_eq_true (h f hf)]
    decide
  rw [checkKeys, members_record, Outcome.ok_bind, hunknown]
  rfl

theorem has_record : (record fields).has key = .ok (fields.lookup key).isSome := by
  have hany : (fields.any fun f => isAmong [key] (.ofString f.1)) = (fields.lookup key).isSome := by
    rw [Bool.eq_iff_iff, List.any_eq_true, List.lookup_isSome_iff]
    refine exists_congr fun f => and_congr_right fun _ => ?_
    rw [isAmong_ofString, decide_eq_true_eq, List.mem_singleton, beq_iff_eq, eq_comm]
  rw [has, members_record, Outcome.ok_bind, List.any_map]
  exact congrArg Except.ok hany

theorem field?_record : (record fields).field? key = .ok (fields.lookup key) := by
  rw [record, field?]
  congr 1
  induction fields with
  | nil => rfl
  | cons f rest ih =>
      obtain ⟨k, v⟩ := f
      have hkey : (Scalar.ofString k).sameKey (.ofString key) = (key == k) := by
        rw [Scalar.sameKey_ofString, Bool.beq_comm]
      simp only [List.map_cons, lookup, List.find?_cons, List.lookup_cons, hkey]
      cases key == k with
      | true => rfl
      | false => exact ih

theorem field_record : (record fields).field key = .ok ((fields.lookup key).getD null) := by
  rw [field, field?_record]
  rfl

theorem integerField_record {i : Int} (h : fields.lookup key = some (int i)) (default : Int) :
    (record fields).integerField key default = .ok i := by
  rw [integerField, field?_record, h]
  rfl

theorem integerField_record_of_none (h : fields.lookup key = none) (default : Int) :
    (record fields).integerField key default = .ok default := by
  rw [integerField, field?_record, h]
  rfl

theorem numberField_record {x : Binary64} (h : fields.lookup key = some (scalar (.float x))) :
    (record fields).numberField key = .ok x := by
  rw [numberField, field?_record, h]
  rfl

theorem textField_record {s : String} (h : fields.lookup key = some (text s)) :
    (record fields).textField key = .ok s := by
  rw [textField, field?_record, h]
  exact asString_text s

/-- Where each key comes once, the fields that are left out are those with the values that are. -/
theorem lookup_filter {p : Value → Bool} (h : (fields.map Prod.fst).Nodup) :
    (fields.filter fun f => p f.2).lookup key = (fields.lookup key).filter p := by
  induction fields with
  | nil => rfl
  | cons f rest ih =>
      obtain ⟨k, v⟩ := f
      obtain ⟨hkey, hrest⟩ := List.nodup_cons.1 h
      have htail := ih hrest
      by_cases hsame : key = k
      · subst hsame
        have hnone : rest.lookup key = none := by
          rw [List.lookup_eq_none_iff]
          intro f hf
          rw [bne_iff_ne]
          rintro rfl
          exact hkey (List.mem_map.2 ⟨f, hf, rfl⟩)
        rw [List.lookup_cons_self, List.filter_cons]
        cases hp : p v with
        | true => simp [Option.filter, hp]
        | false => simp [Option.filter, hp, htail, hnone]
      · have hfalse : (key == k) = false := beq_eq_false_iff_ne.2 hsame
        rw [List.lookup_cons, hfalse, ← htail, List.filter_cons]
        cases hp : p v with
        | true => simp [List.lookup_cons, hfalse]
        | false => simp

/-- The record of fields without those whose values count as false. -/
def compact (fields : List (String × Value)) : Value := record (fields.filter (·.2.truth))

theorem field?_compact (h : (fields.map Prod.fst).Nodup) :
    (compact fields).field? key = .ok ((fields.lookup key).filter truth) := by
  rw [compact, field?_record, lookup_filter h]

theorem checkKeys_compact (h : ∀ f ∈ fields, f.1 ∈ allowed) :
    (compact fields).checkKeys kind allowed = .ok () :=
  checkKeys_record fun f hf => h f (List.mem_filter.1 hf).1

/-- A text is read back, the empty one from nothing. -/
theorem textField_compact (hkeys : (fields.map Prod.fst).Nodup) {s : String}
    (h : fields.lookup key = some (text s)) :
    (compact fields).textField key = .ok s := by
  rw [textField, field?_compact hkeys, h]
  cases hempty : (text s).truth with
  | true =>
      rw [Option.filter_some, if_pos hempty]
      exact asString_text s
  | false =>
      have hs : s = "" := by
        change (!(Text.points s).isEmpty) = false at hempty
        rw [Bool.not_eq_false', List.isEmpty_iff, Text.points, List.map_eq_nil_iff,
          String.toList_eq_nil_iff] at hempty
        exact hempty
      rw [Option.filter_some, hempty, hs]
      rfl

end Value

end PathAssembly

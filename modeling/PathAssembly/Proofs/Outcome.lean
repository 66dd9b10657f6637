import Mathlib.Data.List.Forall2
import PathAssembly.Logged

/-!
# Outcomes of composed operations

An operation built from others succeeds exactly when its parts do. These are the ways in which
operations are composed here, one after the other and over a list, read as statements about their
values.
-/

namespace PathAssembly

namespace Outcome

variable {α β : Type}

def fault? : Except Fault α → Option Fault
  | .ok _ => none
  | .error fault => some fault

theorem fault?_eq_some_iff {x : Except Fault α} {fault : Fault} :
    fault? x = some fault ↔ x = .error fault := by
  cases x with
  | ok a => exact ⟨nofun, nofun⟩
  | error first =>
      exact ⟨fun h => congrArg Except.error (Option.some.inj h),
        fun h => congrArg some (Except.error.inj h)⟩

theorem ok_bind (a : α) (f : α → Except Fault β) : (Except.ok a >>= f) = f a := rfl

theorem bind_eq_ok_iff {x : Except Fault α} {f : α → Except Fault β} {b : β} :
    (x >>= f) = .ok b ↔ ∃ a, x = .ok a ∧ f a = .ok b := by
  cases x with
  | error fault =>
      constructor
      · intro h
        cases h
      · rintro ⟨a, ha, _⟩
        cases ha
  | ok a =>
      constructor
      · intro h
        exact ⟨a, rfl, h⟩
      · rintro ⟨a', ha, h⟩
        cases ha
        exact h

/-- An operation on every element of a list succeeds exactly when it does on each of them. -/
theorem mapM_eq_ok_iff {f : α → Except Fault β} {xs : List α} {ys : List β} :
    xs.mapM f = .ok ys ↔ List.Forall₂ (fun x y => f x = .ok y) xs ys := by
  induction xs generalizing ys with
  | nil =>
      rw [List.mapM_nil, List.forall₂_nil_left_iff]
      constructor
      · intro h
        cases h
        rfl
      · rintro rfl
        rfl
  | cons x xs ih =>
      rw [List.mapM_cons, bind_eq_ok_iff, List.forall₂_cons_left_iff]
      constructor
      · rintro ⟨y, hy, h⟩
        obtain ⟨rest, hrest, h⟩ := bind_eq_ok_iff.1 h
        cases h
        exact ⟨y, rest, hy, ih.1 hrest, rfl⟩
      · rintro ⟨y, rest, hy, hrest, rfl⟩
        exact ⟨y, hy, bind_eq_ok_iff.2 ⟨rest, ih.2 hrest, rfl⟩⟩

theorem mapM_eq_ok_map {f : α → Except Fault β} {g : α → β} {xs : List α}
    (h : ∀ x ∈ xs, f x = .ok (g x)) : xs.mapM f = .ok (xs.map g) := by
  rw [mapM_eq_ok_iff, List.forall₂_map_right_iff, List.forall₂_same]
  exact h

/-- What is written element by element is read element by element. -/
theorem mapM_map_eq_ok {f : β → Except Fault α} {g : α → β} {xs : List α}
    (h : ∀ x ∈ xs, f (g x) = .ok x) : (xs.map g).mapM f = .ok xs := by
  have hread : ∀ x ∈ xs, (f ∘ g) x = .ok (id x) := h
  rw [List.mapM_map, mapM_eq_ok_map hread, List.map_id]

theorem exists_eq_ok_of_mem {f : α → Except Fault β} {xs : List α} {ys : List β}
    (h : xs.mapM f = .ok ys) : ∀ x ∈ xs, ∃ y, f x = .ok y := by
  have hall := mapM_eq_ok_iff.1 h
  clear h
  induction hall with
  | nil => exact fun x hx => absurd hx List.not_mem_nil
  | cons hfirst _ ih => exact List.forall_mem_cons.2 ⟨⟨_, hfirst⟩, ih⟩

/-- It fails as it does on one of the elements. -/
theorem exists_of_mapM_eq_error {f : α → Except Fault β} {xs : List α} {fault : Fault}
    (h : xs.mapM f = .error fault) : ∃ x ∈ xs, f x = .error fault := by
  induction xs with
  | nil => cases h
  | cons x xs ih =>
      rw [List.mapM_cons] at h
      cases hx : f x with
      | error first =>
          rw [hx] at h
          exact ⟨x, List.mem_cons_self, hx.trans (congrArg Except.error (Except.error.inj h))⟩
      | ok y =>
          rw [hx, ok_bind] at h
          cases hxs : xs.mapM f with
          | error later =>
              rw [hxs] at h
              have hrest : xs.mapM f = .error fault :=
                hxs.trans (congrArg Except.error (Except.error.inj h))
              obtain ⟨x', hx', hfault⟩ := ih hrest
              exact ⟨x', List.mem_cons_of_mem x hx', hfault⟩
          | ok ys =>
              rw [hxs] at h
              cases h

/-- What each of several operations promises of its value, they promise together. -/
theorem exists_mapM_eq_ok {f : α → Except Fault β} {P : α → β → Prop} {xs : List α}
    (h : ∀ x ∈ xs, ∃ y, f x = .ok y ∧ P x y) :
    ∃ ys, xs.mapM f = .ok ys ∧ List.Forall₂ P xs ys := by
  induction xs with
  | nil => exact ⟨[], rfl, .nil⟩
  | cons x xs ih =>
      obtain ⟨y, hy, hp⟩ := h x List.mem_cons_self
      obtain ⟨ys, hys, hps⟩ := ih fun x' hx' => h x' (List.mem_cons_of_mem x hx')
      exact ⟨y :: ys, mapM_eq_ok_iff.2 (.cons hy (mapM_eq_ok_iff.1 hys)), .cons hp hps⟩

/-- An operation done for its notes on every element of a list succeeds exactly when it does on each
of them. -/
theorem result_forM_eq_ok_iff {f : α → Logged Unit} {xs : List α} :
    (xs.forM f).result = .ok () ↔ ∀ x ∈ xs, (f x).result = .ok () := by
  induction xs with
  | nil =>
      constructor
      · intro _ x hx
        cases hx
      · intro _
        rfl
  | cons x xs ih =>
      change (f x >>= fun _ => xs.forM f).result = .ok () ↔ _
      rw [Logged.result_bind, bind_eq_ok_iff, List.forall_mem_cons]
      constructor
      · rintro ⟨_, hx, hxs⟩
        exact ⟨hx, ih.1 hxs⟩
      · rintro ⟨hx, hxs⟩
        exact ⟨(), hx, ih.2 hxs⟩

/-- It stops at the first element at which it fails. -/
theorem result_forM_eq_error {f : α → Logged Unit} {before after : List α} {x : α} {fault : Fault}
    (hbefore : ∀ y ∈ before, (f y).result = .ok ()) (hx : (f x).result = .error fault) :
    ((before ++ x :: after).forM f).result = .error fault := by
  induction before with
  | nil =>
      change (f x >>= fun _ => after.forM f).result = _
      rw [Logged.result_bind, hx]
      rfl
  | cons y before ih =>
      obtain ⟨hy, hbefore⟩ := List.forall_mem_cons.1 hbefore
      change (f y >>= fun _ => (before ++ x :: after).forM f).result = _
      rw [Logged.result_bind, hy]
      exact ih hbefore

end Outcome

end PathAssembly

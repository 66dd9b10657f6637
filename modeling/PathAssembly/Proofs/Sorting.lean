import Mathlib.Data.List.Basic

/-!
# Sorting by a number

Sorting by a number leaves elements of the same number in the order in which they came.
-/

namespace PathAssembly

namespace Sorting

variable {α : Type} (number : α → Nat)

theorem le_trans (a b c : α) (hab : decide (number a ≤ number b) = true)
    (hbc : decide (number b ≤ number c) = true) : decide (number a ≤ number c) = true :=
  decide_eq_true (Nat.le_trans (of_decide_eq_true hab) (of_decide_eq_true hbc))

theorem le_total (a b : α) :
    (decide (number a ≤ number b) || decide (number b ≤ number a)) = true := by
  rw [Bool.or_eq_true, decide_eq_true_eq, decide_eq_true_eq]
  exact Nat.le_total _ _

theorem pairwise_mergeSort (xs : List α) :
    (xs.mergeSort fun a b => number a ≤ number b).Pairwise fun a b => number a ≤ number b :=
  (List.pairwise_mergeSort (le_trans number) (le_total number) xs).imp of_decide_eq_true

theorem filter_mergeSort (n : Nat) (xs : List α) :
    (xs.mergeSort fun a b => number a ≤ number b).filter (number · = n)
      = xs.filter (number · = n) := by
  have hsame : (xs.filter (number · = n)).Pairwise fun a b => decide (number a ≤ number b) := by
    refine List.pairwise_of_forall_mem_list fun a ha b hb => ?_
    have hnumber : number a = number b :=
      (of_decide_eq_true (List.mem_filter.1 ha).2).trans
        (of_decide_eq_true (List.mem_filter.1 hb).2).symm
    exact decide_eq_true (Nat.le_of_eq hnumber)
  -- elements of one number are in order already, so that sorting keeps them as a sublist
  have hsublist := (List.sublist_mergeSort (le_trans number) (le_total number) hsame
    List.filter_sublist).filter (number · = n)
  rw [List.filter_filter] at hsublist
  simp only [Bool.and_self] at hsublist
  exact (hsublist.eq_of_length ((List.mergeSort_perm xs _).filter _).length_eq.symm).symm

/-- What holds of any two elements in order still holds of those with the same number. -/
theorem pairwise_of_eq {R : α → α → Prop} {xs : List α} (h : xs.Pairwise R) :
    (xs.mergeSort fun a b => number a ≤ number b).Pairwise
      fun a b => number a = number b → R a b := by
  rw [List.pairwise_iff_forall_sublist] at h ⊢
  intro a b hab hnumber
  have hfilter := hab.filter (number · = number b)
  rw [filter_mergeSort] at hfilter
  simp only [List.filter_cons, hnumber, decide_true, if_true, List.filter_nil] at hfilter
  exact h (hfilter.trans List.filter_sublist)

end Sorting

end PathAssembly

import PathAssembly.Proofs.Path.Crossing
import PathAssembly.Proofs.Path.Route

/-!
# Visits by ASes

A path visits every entry of its used ranges. Where a segment is left for the next one, it visits an
AS twice, at the end of one slot and at the start of the next. `asVisits` puts these two visits
together. There is then one group of visits for every AS of the route, and two interfaces for every
AS behind the first one.
-/

namespace PathAssembly

variable {μ : Type}

/-- Lists of which the last element of the first one and the first element of the second one become
one. -/
def overlap {α : Type} (join : α → α → α) : List α → List α → List α
  | [], ys => ys
  | [x], [] => [x]
  | [x], y :: ys => join x y :: ys
  | x :: x' :: xs, ys => x :: overlap join (x' :: xs) ys

section Overlap

variable {α β : Type} {join : α → α → α}

theorem overlap_nil_right (xs : List α) : overlap join xs [] = xs := by
  induction xs with
  | nil => rfl
  | cons x xs ih =>
      cases xs with
      | nil => rfl
      | cons x' xs => rw [overlap, ih]

theorem overlap_concat (init : List α) (x y : α) (ys : List α) :
    overlap join (init ++ [x]) (y :: ys) = init ++ join x y :: ys := by
  induction init with
  | nil => rfl
  | cons z init ih =>
      cases init with
      | nil => rfl
      | cons z' init => exact congrArg (z :: ·) ih

theorem map_overlap {f : α → β} {join' : β → β → β} (hf : ∀ x y, f (join x y) = join' (f x) (f y))
    (xs ys : List α) : (overlap join xs ys).map f = overlap join' (xs.map f) (ys.map f) := by
  rcases List.eq_nil_or_concat xs with rfl | ⟨init, x, rfl⟩
  · rfl
  · rw [List.concat_eq_append]
    cases ys with
    | nil => rw [overlap_nil_right, List.map_nil, overlap_nil_right]
    | cons y ys =>
        rw [overlap_concat, List.map_append, List.map_append, List.map_cons, List.map_cons, hf]
        exact (overlap_concat ..).symm

theorem flatten_overlap (xs ys : List (List α)) :
    (overlap (· ++ ·) xs ys).flatten = xs.flatten ++ ys.flatten := by
  rcases List.eq_nil_or_concat xs with rfl | ⟨init, x, rfl⟩
  · rfl
  · rw [List.concat_eq_append]
    cases ys with
    | nil => rw [overlap_nil_right, List.flatten_nil, List.append_nil]
    | cons y ys => rw [overlap_concat]; simp

end Overlap

/-- The visits of the ASes of a path: those of its slots, with the visit at the end of a slot and
the one at the start of the next slot put together. -/
def asVisits (slots : List (List Visit)) : List (List Visit) :=
  slots.foldr (fun slot groups => overlap (· ++ ·) (slot.map ([·])) groups) []

theorem flatten_asVisits (slots : List (List Visit)) :
    (asVisits slots).flatten = slots.flatten := by
  induction slots with
  | nil => rfl
  | cons slot slots ih =>
      have hslot : (slot.map ([·])).flatten = slot := by
        rw [← List.flatMap_def, List.flatMap_singleton']
      rw [asVisits, List.foldr_cons, flatten_overlap, hslot, ← asVisits, ih, List.flatten_cons]

open PathMetadata (slotsAlong)

def VisitsOf (a : IsdAs) (group : List Visit) : Prop := group ≠ [] ∧ ∀ v ∈ group, v.entry.isdAs = a

theorem visitsOf_singleton (v : Visit) : VisitsOf v.entry.isdAs [v] := by
  refine ⟨List.cons_ne_nil _ _, ?_⟩
  intro w hw
  rw [List.mem_singleton.1 hw]

theorem VisitsOf.append {a : IsdAs} {group group' : List Visit} (h : VisitsOf a group)
    (h' : VisitsOf a group') : VisitsOf a (group ++ group') := by
  refine ⟨List.append_ne_nil_of_left_ne_nil h.1 group', ?_⟩
  intro v hv
  exact (List.mem_append.1 hv).elim (h.2 v) (h'.2 v)

theorem forall₂_visitsOf_singleton {as : List IsdAs} {slot : List Visit}
    (h : slot.map (·.entry.isdAs) = as) : List.Forall₂ VisitsOf as (slot.map ([·])) := by
  rw [← h, List.forall₂_map_left_iff, List.forall₂_map_right_iff, List.forall₂_same]
  intro v _
  exact visitsOf_singleton v

/-- The groups of visits along a chain are those of the ASes on its route. -/
theorem Leads.visitsOf_asVisits {a b : IsdAs} {pairs : List (PathSegment μ × SegmentRange)}
    (h : Leads a pairs b) (hne : pairs ≠ []) {slots : List (List Visit)}
    (hslots : slots.map (·.map (·.entry.isdAs)) = pairs.map fun (s, r) => r.ases s) :
    List.Forall₂ VisitsOf (route a pairs) (asVisits slots) := by
  induction h generalizing slots with
  | nil a => exact absurd rfl hne
  | @cons a b c s r rest hentry hexit hrest ih =>
      obtain ⟨slot, slots, rfl, hslot, hslots⟩ := List.map_eq_cons_iff.1 hslots
      change slot.map _ = r.ases s at hslot
      change List.Forall₂ _ _ (overlap _ (slot.map ([·])) (asVisits slots))
      cases rest with
      | nil =>
          rw [List.map_nil, List.map_eq_nil_iff] at hslots
          rw [hslots, route_cons hentry, added, List.flatMap_nil, List.append_nil]
          change List.Forall₂ _ _ (overlap _ (slot.map ([·])) [])
          rw [overlap_nil_right]
          exact forall₂_visitsOf_singleton hslot
      | cons pair rest =>
          -- the last visit of the slot joins the group of the AS at which the next one starts
          have hgroups := ih (List.cons_ne_nil pair rest) hslots
          rw [route] at hgroups
          obtain ⟨group, groups, hgroup, hothers, hasVisits⟩ :=
            List.forall₂_cons_left_iff.1 hgroups
          rw [SegmentRange.ases_eq_concat hexit, List.map_eq_append_iff] at hslot
          obtain ⟨init, last, rfl, hinit, hlast⟩ := hslot
          obtain ⟨v, rfl, hv⟩ := List.map_eq_singleton_iff.1 hlast
          rw [route_cons_eq_append hentry hexit, route, hasVisits, List.map_append,
            List.map_singleton, overlap_concat]
          refine List.rel_append (forall₂_visitsOf_singleton hinit) (.cons ?_ hothers)
          rw [← hv] at hgroup ⊢
          exact (visitsOf_singleton v).append hgroup

theorem map_isdAs_slotsAlong (segments : List (PathSegment μ)) (ranges : List SegmentRange) :
    (slotsAlong segments ranges).map (·.map (·.entry.isdAs))
      = (segments.zip ranges).map fun (s, r) => r.ases s := by
  rw [slotsAlong, List.map_map]
  conv_rhs => rw [← List.zipIdx_map_fst 0 (segments.zip ranges), List.map_map]
  apply List.map_congr_left
  rintro ⟨⟨s, r⟩, slot⟩ _
  exact List.map_map

theorem SegmentRange.Fits.visited_ne_nil {s : PathSegment μ} {r : SegmentRange} (h : r.Fits s) :
    r.visited s ≠ [] := by
  apply List.ne_nil_of_length_pos
  rw [h.length_visited]
  exact h.length_pos

/-- A chain of legs has two interfaces for each AS that it adds to the one at which it starts. -/
theorem Leg.length_interfaces_alongAll {segments : List (PathSegment μ)}
    {ranges : List SegmentRange} (h : List.Forall₂ SegmentRange.Fits segments ranges) :
    ((Leg.alongAll segments ranges).flatMap Leg.interfaces).length
      = 2 * (added (segments.zip ranges)).length := by
  induction h with
  | nil => rfl
  | @cons s r segments ranges hfits _ ih =>
      have hentries : (r.visited s).map Prod.snd ≠ [] := by
        rw [Ne, List.map_eq_nil_iff]
        exact hfits.visited_ne_nil
      have hlinks := length_links r.reversed hentries
      have hases : (r.ases s).tail.length + 1 = ((r.visited s).map Prod.snd).length := by
        rw [SegmentRange.ases, List.length_tail, List.length_map, List.length_map]
        exact Nat.sub_add_cancel (List.length_pos_of_ne_nil hfits.visited_ne_nil)
      have hadded : added ((s, r) :: segments.zip ranges)
          = (r.ases s).tail ++ added (segments.zip ranges) := rfl
      change (links r.reversed ((r.visited s).map Prod.snd)
        ++ (alongAll segments ranges).flatMap interfaces).length = _
      rw [List.zip_cons_cons, hadded, List.length_append, List.length_append, ih]
      omega

end PathAssembly

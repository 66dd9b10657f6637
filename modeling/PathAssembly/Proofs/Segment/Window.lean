import PathAssembly.Proofs.Outcome
import PathAssembly.Segment.Range

/-!
# Windows of a segment

A range that goes through its segment entry by entry and does not leave it visits a window of the
numbered entries, from front to back or from back to front. `SegmentRange.Fits` says this of a
range, and `SegmentRange.visited` is the window in path order; walks, positions and searches over a
range are those over this list. A range that stops behind a visited entry keeps what was visited up
to it, and one that starts at a visited entry keeps what was visited from it on.
-/

namespace PathAssembly

namespace PathSegment

variable {μ : Type}

def numbered (s : PathSegment μ) : List (Int × AsEntry) :=
  s.entries.mapIdx fun position entry => ((position : Int), entry)

/-- The numbered entries from position `low` up to but excluding `high`. -/
def window (s : PathSegment μ) (low high : Nat) : List (Int × AsEntry) :=
  (s.numbered.take high).drop low

theorem length_numbered (s : PathSegment μ) : s.numbered.length = s.length := by
  rw [numbered, List.length_mapIdx, length]

theorem getElem_numbered (s : PathSegment μ) {i : Nat} (hi : i < s.entries.length)
    (h : i < s.numbered.length) : s.numbered[i] = ((i : Int), s.entries[i]) := by
  simp only [numbered, List.getElem_mapIdx]

theorem map_snd_numbered (s : PathSegment μ) : s.numbered.map Prod.snd = s.entries := by
  apply List.ext_getElem
  · rw [List.length_map, length_numbered, length]
  · intro i hnumbered hentries
    rw [List.getElem_map, s.getElem_numbered hentries]

theorem exists_of_mem_numbered {s : PathSegment μ} {x : Int × AsEntry} (h : x ∈ s.numbered) :
    ∃ (i : Nat) (hi : i < s.entries.length), x = ((i : Int), s.entries[i]) := by
  obtain ⟨i, hi, hx⟩ := List.mem_iff_getElem.1 h
  have hentries : i < s.entries.length := by rwa [length_numbered] at hi
  exact ⟨i, hentries, hx ▸ s.getElem_numbered hentries hi⟩

theorem entryAt_natCast (s : PathSegment μ) {i : Nat} (hi : i < s.entries.length) :
    s.entryAt i = .ok s.entries[i] := by
  have hnonneg : ¬ (i : Int) < 0 := Int.not_lt.2 (Int.natCast_nonneg i)
  simp only [entryAt]
  rw [if_neg hnonneg, if_neg hnonneg, Int.toNat_natCast, List.getElem?_eq_getElem hi]

theorem length_window (s : PathSegment μ) (low : Nat) {high : Nat} (h : high ≤ s.length) :
    (s.window low high).length = high - low := by
  rw [window, List.length_drop, List.length_take, length_numbered, Nat.min_eq_left h]

theorem window_eq_cons (s : PathSegment μ) {low high : Nat} (hlow : low < high)
    (hhigh : high ≤ s.length) : ∃ entry, s.entryAt low = .ok entry ∧
      s.window low high = ((low : Int), entry) :: s.window (low + 1) high := by
  have hbound : low < s.entries.length := Nat.lt_of_lt_of_le hlow hhigh
  have htake : low < (s.numbered.take high).length := by
    rw [List.length_take, length_numbered]
    exact Nat.lt_min.2 ⟨hlow, hbound⟩
  refine ⟨s.entries[low], s.entryAt_natCast hbound, ?_⟩
  rw [window, List.drop_eq_getElem_cons htake, List.getElem_take, s.getElem_numbered hbound, window]

theorem window_self (s : PathSegment μ) (low : Nat) : s.window low low = [] := by
  rw [window, List.drop_eq_nil_of_le (List.length_take_le low s.numbered)]

theorem window_append (s : PathSegment μ) {low middle high : Nat} (hlow : low ≤ middle)
    (hhigh : middle ≤ high) (hbound : high ≤ s.length) :
    s.window low high = s.window low middle ++ s.window middle high := by
  have hsplit : s.numbered.take high
      = s.numbered.take middle ++ (s.numbered.take high).drop middle := by
    conv_lhs => rw [← List.take_append_drop middle (s.numbered.take high)]
    rw [List.take_take, Nat.min_eq_left hhigh]
  have hmiddle : low ≤ (s.numbered.take middle).length := by
    rw [List.length_take, length_numbered, Nat.min_eq_left (Nat.le_trans hhigh hbound)]
    exact hlow
  rw [window, hsplit, List.drop_append_of_le_length hmiddle, window, window]

/-- A window splits at any of its entries, whose position says where. -/
theorem window_split (s : PathSegment μ) {low high : Nat} {before after : List (Int × AsEntry)}
    {x : Int × AsEntry} (hhigh : high ≤ s.length)
    (h : s.window low high = before ++ x :: after) :
    ∃ position : Nat, x.1 = position ∧ low ≤ position ∧ position < high ∧
      s.window low (position + 1) = before ++ [x] ∧ s.window position high = x :: after := by
  have hlength : before.length + (after.length + 1) = high - low := by
    rw [← s.length_window low hhigh, h, List.length_append, List.length_cons]
  have hposition : low + before.length < high := by omega
  have hfront := s.window_append (Nat.le_add_right low before.length) (Nat.le_of_lt hposition) hhigh
  have hlengths : (s.window low (low + before.length)).length = before.length := by
    rw [s.length_window low (by omega), Nat.add_sub_cancel_left]
  obtain ⟨hbefore, hfrom⟩ := List.append_inj (h.symm.trans hfront) hlengths.symm
  obtain ⟨entry, hentry, hcons⟩ := s.window_eq_cons hposition hhigh
  have hx : x = (((low + before.length : Nat) : Int), entry) := by
    rw [hcons] at hfrom
    exact (List.cons.inj hfrom).1
  refine ⟨low + before.length, by rw [hx], Nat.le_add_right .., hposition, ?_, hfrom.symm⟩
  obtain ⟨entry', hentry', hone⟩ := s.window_eq_cons
    (Nat.lt_succ_self (low + before.length)) (by omega)
  have hsame : entry' = entry := Except.ok.inj (hentry'.symm.trans hentry)
  rw [s.window_append (Nat.le_add_right low before.length) (Nat.le_succ _) (by omega), ← hbefore,
    hone, window_self, hsame, hx]

end PathSegment

namespace SegmentRange

variable {μ : Type}

def low (r : SegmentRange) : Nat := (if r.reversed then r.stop + 1 else r.start).toNat

def high (r : SegmentRange) : Nat := (if r.reversed then r.start + 1 else r.stop).toNat

/-- The numbered entries of a range, in path order. -/
def visited (r : SegmentRange) (s : PathSegment μ) : List (Int × AsEntry) :=
  if r.reversed then (s.window r.low r.high).reverse else s.window r.low r.high

/-- A range goes through a window of its segment entry by entry, and there is an entry. -/
inductive Fits (s : PathSegment μ) : SegmentRange → Prop
  | forward (index : Int) {low high : Nat} (hlow : low < high) (hhigh : high ≤ s.length) :
      Fits s ⟨index, low, high, 1⟩
  | reverse (index : Int) {low high : Nat} (hlow : low < high) (hhigh : high ≤ s.length) :
      Fits s ⟨index, (high : Int) - 1, (low : Int) - 1, -1⟩

@[simp] theorem reversed_forward (index start stop : Int) :
    (⟨index, start, stop, 1⟩ : SegmentRange).reversed = false := rfl

@[simp] theorem reversed_reverse (index start stop : Int) :
    (⟨index, start, stop, -1⟩ : SegmentRange).reversed = true := rfl

@[simp] theorem low_forward (index : Int) (low high : Nat) :
    (⟨index, low, high, 1⟩ : SegmentRange).low = low := rfl

@[simp] theorem high_forward (index : Int) (low high : Nat) :
    (⟨index, low, high, 1⟩ : SegmentRange).high = high := rfl

@[simp] theorem low_reverse (index : Int) (low high : Nat) :
    (⟨index, (high : Int) - 1, (low : Int) - 1, -1⟩ : SegmentRange).low = low := by
  rw [SegmentRange.low, if_pos (reversed_reverse ..), Int.sub_add_cancel, Int.toNat_natCast]

@[simp] theorem high_reverse (index : Int) (low high : Nat) :
    (⟨index, (high : Int) - 1, (low : Int) - 1, -1⟩ : SegmentRange).high = high := by
  rw [SegmentRange.high, if_pos (reversed_reverse ..), Int.sub_add_cancel, Int.toNat_natCast]

theorem visited_forward (s : PathSegment μ) (index : Int) (low high : Nat) :
    (⟨index, low, high, 1⟩ : SegmentRange).visited s = s.window low high := rfl

theorem visited_reverse (s : PathSegment μ) (index : Int) (low high : Nat) :
    (⟨index, (high : Int) - 1, (low : Int) - 1, -1⟩ : SegmentRange).visited s
      = (s.window low high).reverse := by
  rw [visited, if_pos (reversed_reverse ..), low_reverse, high_reverse]

theorem Fits.step_eq {r : SegmentRange} {s : PathSegment μ} (h : r.Fits s) :
    r.step = if r.reversed then -1 else 1 := by
  cases h <;> rfl

theorem Fits.reversed_eq_false_iff {r : SegmentRange} {s : PathSegment μ} (h : r.Fits s) :
    r.reversed = false ↔ r.step = 1 := by
  rw [h.step_eq]
  cases r.reversed <;> decide

theorem Fits.low_lt_high {r : SegmentRange} {s : PathSegment μ} (h : Fits s r) :
    r.low < r.high := by
  cases h with
  | forward index hlow hhigh => exact hlow
  | reverse index hlow hhigh => rwa [low_reverse, high_reverse]

theorem Fits.high_le {r : SegmentRange} {s : PathSegment μ} (h : Fits s r) :
    r.high ≤ s.length := by
  cases h with
  | forward index hlow hhigh => exact hhigh
  | reverse index hlow hhigh => rwa [high_reverse]

theorem Fits.length_eq {r : SegmentRange} {s : PathSegment μ} (h : Fits s r) :
    r.length = r.high - r.low := by
  cases h with
  | forward index hlow hhigh =>
      simp only [length, low_forward, high_forward]
      omega
  | reverse index hlow hhigh =>
      simp only [length, low_reverse, high_reverse]
      omega

theorem Fits.origin_eq {r : SegmentRange} {s : PathSegment μ} (h : Fits s r) :
    (if r.reversed then r.last else r.start) = (r.low : Int) := by
  cases h with
  | forward index hlow hhigh => rfl
  | reverse index hlow hhigh =>
      rw [low_reverse, if_pos (reversed_reverse ..), last, Int.sub_neg, Int.sub_add_cancel]

theorem Fits.length_pos {r : SegmentRange} {s : PathSegment μ} (h : Fits s r) : 0 < r.length := by
  rw [h.length_eq]
  exact Nat.sub_pos_of_lt h.low_lt_high

theorem Fits.length_visited {r : SegmentRange} {s : PathSegment μ} (h : Fits s r) :
    (r.visited s).length = r.length := by
  have hwindow := s.length_window r.low h.high_le
  rw [h.length_eq, visited]
  split
  · rw [List.length_reverse, hwindow]
  · exact hwindow

theorem map_fst_walkFrom {s : PathSegment μ} {step position : Int} {count : Nat}
    {walk : List (Int × AsEntry)} (h : walkFrom s step count position = .ok walk) :
    positionsFrom step count position = walk.map Prod.fst := by
  induction count generalizing position walk with
  | zero =>
      cases h
      rfl
  | succ count ih =>
      obtain ⟨entry, _, h⟩ := Outcome.bind_eq_ok_iff.1 h
      obtain ⟨rest, hrest, h⟩ := Outcome.bind_eq_ok_iff.1 h
      cases h
      rw [positionsFrom, ih hrest, List.map_cons]

/-- A search that does not leave the segment finds what is first on the walk. -/
theorem findFrom_eq_ok {s : PathSegment μ} {p : AsEntry → Bool} {step position : Int} {count : Nat}
    {walk : List (Int × AsEntry)} (h : walkFrom s step count position = .ok walk) :
    findFrom s p step count position = .ok ((walk.find? (p ·.2)).map Prod.fst) := by
  induction count generalizing position walk with
  | zero =>
      cases h
      rfl
  | succ count ih =>
      obtain ⟨entry, hentry, h⟩ := Outcome.bind_eq_ok_iff.1 h
      obtain ⟨rest, hrest, h⟩ := Outcome.bind_eq_ok_iff.1 h
      cases h
      simp only [findFrom, List.find?_cons]
      rw [hentry, Outcome.ok_bind]
      cases hp : p entry with
      | true => rfl
      | false => exact ih hrest

theorem walkFrom_window (s : PathSegment μ) {low count : Nat} (h : low + count ≤ s.length) :
    walkFrom s 1 count low = .ok (s.window low (low + count)) := by
  induction count generalizing low with
  | zero =>
      rw [Nat.add_zero, PathSegment.window_self]
      rfl
  | succ count ih =>
      obtain ⟨entry, hentry, hcons⟩ := s.window_eq_cons (by omega : low < low + (count + 1)) h
      have hnext : low + (count + 1) = low + 1 + count := by omega
      have htail := ih (by omega : low + 1 + count ≤ s.length)
      rw [Int.natCast_add, Int.natCast_one] at htail
      rw [walkFrom, hentry, hcons, hnext, Outcome.ok_bind, htail]
      rfl

theorem walkFrom_window_reverse (s : PathSegment μ) {low count : Nat}
    (h : low + count ≤ s.length) :
    walkFrom s (-1) count ((low + count : Nat) - 1) = .ok (s.window low (low + count)).reverse := by
  induction count with
  | zero =>
      rw [Nat.add_zero, PathSegment.window_self]
      rfl
  | succ count ih =>
      obtain ⟨entry, hentry, hcons⟩ := s.window_eq_cons
        (Nat.lt_succ_self (low + count)) (by omega)
      have hsplit := s.window_append (Nat.le_add_right low count) (Nat.le_succ (low + count)) h
      have hstart : ((low + (count + 1) : Nat) : Int) - 1 = ((low + count : Nat) : Int) := by omega
      have htail := ih (by omega : low + count ≤ s.length)
      rw [PathSegment.window_self] at hcons
      rw [← Nat.add_assoc, hsplit, hcons, List.reverse_append, Nat.add_assoc, hstart, walkFrom,
        hentry, Outcome.ok_bind]
      rw [← Int.sub_eq_add_neg, htail]
      rfl

theorem count_forward (index start stop : Int) :
    (⟨index, start, stop, 1⟩ : SegmentRange).count = (stop - start).toNat := by
  change (if (0 : Int) < 1 then ((stop - start + 1 - 1) / 1).toNat else _) = _
  rw [if_pos (by decide), Int.ediv_one, Int.add_sub_cancel]

theorem count_reverse (index start stop : Int) :
    (⟨index, start, stop, -1⟩ : SegmentRange).count = (start - stop).toNat := by
  change (if (0 : Int) < -1 then _ else ((start - stop - -1 - 1) / - -1).toNat) = _
  rw [if_neg (by decide), Int.neg_neg, Int.ediv_one, Int.sub_neg, Int.add_sub_cancel]

theorem walkFrom_eq_ok {s : PathSegment μ} {r : SegmentRange} (h : r.Fits s) :
    walkFrom s r.step r.count r.start = .ok (r.visited s) := by
  cases h with
  | @forward index low high hlow hhigh =>
      have hwalk := walkFrom_window s (by omega : low + (high - low) ≤ s.length)
      have hcount : ((high : Int) - low).toNat = high - low := by omega
      rw [Nat.add_sub_of_le (Nat.le_of_lt hlow)] at hwalk
      rw [visited_forward, count_forward, hcount, ← hwalk]
  | @reverse index low high hlow hhigh =>
      have hwalk := walkFrom_window_reverse s (by omega : low + (high - low) ≤ s.length)
      have hcount : ((high : Int) - 1 - (low - 1)).toNat = high - low := by omega
      rw [Nat.add_sub_of_le (Nat.le_of_lt hlow)] at hwalk
      rw [visited_reverse, count_reverse, hcount, ← hwalk]

theorem Fits.check_eq_ok {s : PathSegment μ} {r : SegmentRange} (h : r.Fits s) :
    r.check = .ok () := by
  cases h <;> rfl

theorem walk_eq_ok {s : PathSegment μ} {r : SegmentRange} (h : r.Fits s) :
    r.walk s = .ok (r.visited s) := by
  rw [walk, h.check_eq_ok, Outcome.ok_bind, walkFrom_eq_ok h]

theorem entries_eq_ok {s : PathSegment μ} {r : SegmentRange} (h : r.Fits s) :
    r.entries s = .ok ((r.visited s).map Prod.snd) := by
  rw [entries, walk_eq_ok h]
  rfl

theorem positions_eq_ok {s : PathSegment μ} {r : SegmentRange} (h : r.Fits s) :
    r.positions = .ok ((r.visited s).map Prod.fst) := by
  rw [positions, h.check_eq_ok, Outcome.ok_bind, map_fst_walkFrom (walkFrom_eq_ok h)]
  rfl

theorem Fits.map_fst_visited {s : PathSegment μ} {r : SegmentRange} (h : r.Fits s) :
    (r.visited s).map Prod.fst = positionsFrom r.step r.count r.start :=
  (map_fst_walkFrom (walkFrom_eq_ok h)).symm

/-- The last position is one step less than the number of steps away from the first one. -/
theorem Fits.last_eq {s : PathSegment μ} {r : SegmentRange} (h : r.Fits s) :
    r.last = r.start + (r.count - 1) * r.step := by
  cases h with
  | forward index hlow hhigh =>
      rw [count_forward]
      simp only [last]
      omega
  | reverse index hlow hhigh =>
      rw [count_reverse]
      simp only [last]
      omega

theorem find?_eq_ok {s : PathSegment μ} {r : SegmentRange} (h : r.Fits s) (p : AsEntry → Bool) :
    r.find? s p = .ok (((r.visited s).find? (p ·.2)).map Prod.fst) := by
  rw [find?, h.check_eq_ok, Outcome.ok_bind, findFrom_eq_ok (walkFrom_eq_ok h)]

/-- A range that stops behind a visited entry visits what comes up to it. -/
theorem Fits.stop_behind {s : PathSegment μ} {r : SegmentRange} (h : r.Fits s)
    {before after : List (Int × AsEntry)} {x : Int × AsEntry}
    (hx : r.visited s = before ++ x :: after) :
    ({ r with stop := x.1 + r.step } : SegmentRange).Fits s ∧
      ({ r with stop := x.1 + r.step } : SegmentRange).visited s = before ++ [x] := by
  cases h with
  | @forward index low high hlow hhigh =>
      obtain ⟨position, hposition, hlow', hhigh', hfront, _⟩ := s.window_split hhigh hx
      have hstop : x.1 + 1 = ((position + 1 : Nat) : Int) := by rw [hposition]; rfl
      simp only [hstop]
      exact ⟨.forward index (Nat.lt_succ_of_le hlow') (Nat.le_trans hhigh' hhigh), hfront⟩
  | @reverse index low high hlow hhigh =>
      rw [visited_reverse] at hx
      have hwindow : s.window low high = after.reverse ++ x :: before.reverse := by
        rw [← List.reverse_reverse (s.window low high), hx]
        simp
      obtain ⟨position, hposition, hlow', hhigh', _, hback⟩ := s.window_split hhigh hwindow
      have hstop : x.1 + -1 = (position : Int) - 1 := by rw [hposition]; rfl
      simp only [hstop]
      refine ⟨.reverse index hhigh' hhigh, ?_⟩
      rw [visited_reverse, hback]
      simp

/-- A range that starts at a visited entry visits what comes from it on. -/
theorem Fits.start_at {s : PathSegment μ} {r : SegmentRange} (h : r.Fits s)
    {before after : List (Int × AsEntry)} {x : Int × AsEntry}
    (hx : r.visited s = before ++ x :: after) :
    ({ r with start := x.1 } : SegmentRange).Fits s ∧
      ({ r with start := x.1 } : SegmentRange).visited s = x :: after := by
  cases h with
  | @forward index low high hlow hhigh =>
      obtain ⟨position, hposition, hlow', hhigh', _, hback⟩ := s.window_split hhigh hx
      simp only [hposition]
      exact ⟨.forward index hhigh' hhigh, hback⟩
  | @reverse index low high hlow hhigh =>
      rw [visited_reverse] at hx
      have hwindow : s.window low high = after.reverse ++ x :: before.reverse := by
        rw [← List.reverse_reverse (s.window low high), hx]
        simp
      obtain ⟨position, hposition, hlow', hhigh', hfront, _⟩ := s.window_split hhigh hwindow
      have hstart : x.1 = ((position + 1 : Nat) : Int) - 1 := by rw [hposition]; omega
      simp only [hstart]
      refine ⟨.reverse index (Nat.lt_succ_of_le hlow') (Nat.le_trans hhigh' hhigh), ?_⟩
      rw [visited_reverse, hfront]
      simp

theorem mem_numbered_of_mem_visited {s : PathSegment μ} {r : SegmentRange} {x : Int × AsEntry}
    (h : x ∈ r.visited s) : x ∈ s.numbered := by
  have hwindow : x ∈ s.window r.low r.high := by
    unfold visited at h
    split at h
    · exact List.mem_reverse.1 h
    · exact h
  exact List.mem_of_mem_take (List.mem_of_mem_drop hwindow)

theorem nonneg_of_mem_visited {s : PathSegment μ} {r : SegmentRange} {x : Int × AsEntry}
    (h : x ∈ r.visited s) : 0 ≤ x.1 := by
  obtain ⟨i, _, rfl⟩ := PathSegment.exists_of_mem_numbered (mem_numbered_of_mem_visited h)
  exact Int.natCast_nonneg i

theorem entryAt_of_mem_visited {s : PathSegment μ} {r : SegmentRange} {x : Int × AsEntry}
    (h : x ∈ r.visited s) : s.entryAt x.1 = .ok x.2 := by
  obtain ⟨i, hi, rfl⟩ := PathSegment.exists_of_mem_numbered (mem_numbered_of_mem_visited h)
  exact s.entryAt_natCast hi

end SegmentRange

def IsdAs.plain (isd number : UInt16) : IsdAs := ⟨isd.toNat * IsdAs.asLimit + number.toNat⟩

theorem IsdAs.plain_inRange (isd number : UInt16) : (IsdAs.plain isd number).InRange := by
  have hisd := isd.toNat_lt
  have hnumber := number.toNat_lt
  simp only [InRange, plain, asLimit]
  omega

def Mac.plain (first second : UInt8) : Mac := ⟨[first, second, 0, 0, 0, 0], rfl⟩

/-- An entry of an AS that says nothing but its interfaces, which are also its code. -/
def AsEntry.plain (isd number ingress egress : UInt16) : AsEntry where
  isdAs := .plain isd number
  isdAs_inRange := IsdAs.plain_inRange isd number
  hop := ⟨ingress, egress, .plain ingress.toUInt8 egress.toUInt8, 63⟩
  mtu := 1472
  ingressMtu := 0
  staticInfo := none

def PathSegment.plain (type : SegmentType) (first : AsEntry) (rest : List AsEntry) :
    PathSegment Unit where
  entries := first :: rest
  entries_ne_nil := List.cons_ne_nil first rest
  info := ⟨0, 0, true⟩
  type := type
  mark := ()

end PathAssembly

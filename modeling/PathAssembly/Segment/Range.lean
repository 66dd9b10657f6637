import PathAssembly.Segment.Basic

/-!
# Segment ranges

The entries of one segment that a path uses. Positions run from `start` in steps of `step` up to
but excluding `stop`; the step is 1 in construction direction and -1 against it. A range that makes
no progress has no positions and is refused, and so is one that leaves its segment, at the first
position outside.
-/

namespace PathAssembly

/-- The used entries of one segment: positions from `start` on, up to but excluding `stop`. -/
structure SegmentRange where
  segmentIndex : Int
  start : Int
  stop : Int
  step : Int
  deriving DecidableEq, Repr

namespace SegmentRange

variable {μ : Type}

def reversed (r : SegmentRange) : Bool := r.step == -1

def last (r : SegmentRange) : Int := r.stop - r.step

def length (r : SegmentRange) : Nat := (r.stop - r.start).natAbs

def maxLength : Nat := 0x7fff_ffff_ffff_ffff

def countedLength (r : SegmentRange) : Except Fault Nat :=
  if maxLength < r.length then .error .rangeUncountable else .ok r.length

/-- The number of positions; `step` is not zero. -/
def count (r : SegmentRange) : Nat :=
  if 0 < r.step then ((r.stop - r.start + r.step - 1) / r.step).toNat
  else ((r.start - r.stop - r.step - 1) / -r.step).toNat

def check (r : SegmentRange) : Except Fault Unit :=
  if r.step = 0 then .error .zeroStep else .ok ()

def positionsFrom (step : Int) : (count : Nat) → Int → List Int
  | 0, _ => []
  | count + 1, position => position :: positionsFrom step count (position + step)

def positions (r : SegmentRange) : Except Fault (List Int) := do
  r.check
  return positionsFrom r.step r.count r.start

def walkFrom (s : PathSegment μ) (step : Int) :
    (count : Nat) → Int → Except Fault (List (Int × AsEntry))
  | 0, _ => .ok []
  | count + 1, position => do
    let entry ← s.entryAt position
    return (position, entry) :: (← walkFrom s step count (position + step))

def walk (r : SegmentRange) (s : PathSegment μ) : Except Fault (List (Int × AsEntry)) := do
  r.check
  walkFrom s r.step r.count r.start

def entries (r : SegmentRange) (s : PathSegment μ) : Except Fault (List AsEntry) := do
  return (← r.walk s).map Prod.snd

/-- The first of `count` positions whose entry satisfies `p`; what stands behind it is not looked
at. -/
def findFrom (s : PathSegment μ) (p : AsEntry → Bool) (step : Int) :
    (count : Nat) → Int → Except Fault (Option Int)
  | 0, _ => .ok none
  | count + 1, position => do
    let entry ← s.entryAt position
    if p entry then return some position
    findFrom s p step count (position + step)

def find? (r : SegmentRange) (s : PathSegment μ) (p : AsEntry → Bool) :
    Except Fault (Option Int) := do
  r.check
  findFrom s p r.step r.count r.start

@[simp] theorem length_positionsFrom (step : Int) (count : Nat) (position : Int) :
    (positionsFrom step count position).length = count := by
  induction count generalizing position with
  | zero => rfl
  | succ count ih => simp [positionsFrom, ih]

theorem getElem?_positionsFrom {step : Int} {count i : Nat} {position : Int} (h : i < count) :
    (positionsFrom step count position)[i]? = some (position + i * step) := by
  induction count generalizing position i with
  | zero => omega
  | succ count ih =>
    cases i with
    | zero => simp [positionsFrom]
    | succ i =>
      have hi : i < count := by omega
      simp only [positionsFrom, List.getElem?_cons_succ, ih hi]
      rw [Int.natCast_succ, Int.add_mul, Int.one_mul]
      congr 1
      omega

end SegmentRange

end PathAssembly

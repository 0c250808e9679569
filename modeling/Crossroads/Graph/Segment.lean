import Crossroads.Feature

/-!
# Segments and joints

A `Segment` is the unit of travel: the stretch between two neighbouring points of a feature, in one
of two directions.  A `RoadPoint` is one point of one feature, and a `Joint` lists the road points
that coincide at one place.
-/

namespace Crossroads

/-- A travel time in tenths of a second. -/
abbrev Weight := UInt32

/-- The weight of a pair with no way between them. -/
def Weight.none : Weight := 0xFFFFFFFF

/-- The sum of two weights; no way if it is too great. -/
def Weight.plus (a b : Weight) : Weight :=
  if a.toNat + b.toNat < Weight.none.toNat then a + b else Weight.none

/-- One point of one feature. -/
structure RoadPoint where
  feature : FeatureId
  index : UInt32
deriving DecidableEq, Hashable, Repr

namespace RoadPoint

/-- Road points are ordered by feature, then by index. -/
instance : Ord RoadPoint := ⟨compareLex (compareOn RoadPoint.feature) (compareOn RoadPoint.index)⟩

instance : Std.TransOrd RoadPoint := inferInstanceAs (Std.TransCmp (compareLex _ _))

instance : Std.LawfulEqOrd RoadPoint where
  eq_of_compare {a b} h := by
    have h : (compareLex (compareOn RoadPoint.feature) (compareOn RoadPoint.index)) a b = .eq := h
    rw [compareLex_eq_eq] at h
    have hf : a.feature = b.feature := Std.LawfulEqOrd.eq_of_compare h.1
    have hi : a.index = b.index := Std.LawfulEqOrd.eq_of_compare h.2
    cases a; cases b; simp_all

/-- A road point in words. -/
def text (p : RoadPoint) : String := s!"RoadPoint({p.feature}, {p.index})"

end RoadPoint

/-- The road points that coincide at one place. -/
abbrev Joint := List RoadPoint

/-- The stretch between points `index` and `index + 1` of a feature, in one direction. -/
structure Segment where
  feature : FeatureId
  index : UInt32
  forward : Bool
deriving DecidableEq, Hashable, Repr

namespace Segment

/-- Segments are ordered by feature, then by index, backward before forward. -/
instance : Ord Segment :=
  ⟨compareLex (compareOn Segment.feature)
    (compareLex (compareOn Segment.index) (compareOn Segment.forward))⟩

instance : Std.TransOrd Segment := inferInstanceAs (Std.TransCmp (compareLex _ _))

instance : Std.LawfulEqOrd Segment where
  eq_of_compare {a b} h := by
    have h : (compareLex (compareOn Segment.feature)
      (compareLex (compareOn Segment.index) (compareOn Segment.forward))) a b = .eq := h
    rw [compareLex_eq_eq, compareLex_eq_eq] at h
    have hf : a.feature = b.feature := Std.LawfulEqOrd.eq_of_compare h.1
    have hi : a.index = b.index := Std.LawfulEqOrd.eq_of_compare h.2.1
    have hd : a.forward = b.forward := Std.LawfulEqOrd.eq_of_compare h.2.2
    cases a; cases b; simp_all

/-- The index of the segment's end (`front`) or of its start. -/
def pointIndex (s : Segment) (front : Bool) : UInt32 :=
  if s.forward == front then s.index + 1 else s.index

/-- The road point at the segment's end (`front`) or at its start. -/
def roadPoint (s : Segment) (front : Bool) : RoadPoint := ⟨s.feature, s.pointIndex front⟩

/-- The same stretch in the other direction. -/
def reversed (s : Segment) : Segment := { s with forward := !s.forward }

/-- A segment in words. -/
def text (s : Segment) : String :=
  let direction := if s.forward then "fwd" else "bwd"
  s!"Segment({s.feature}, {s.index}, {direction})"

@[simp]
theorem reversed_reversed (s : Segment) : s.reversed.reversed = s := by simp [reversed]

/-- A segment starts where the one in the other direction ends. -/
@[simp]
theorem roadPoint_reversed (s : Segment) (front : Bool) :
    s.reversed.roadPoint front = s.roadPoint (!front) := by
  obtain ⟨f, i, d⟩ := s
  cases d <;> cases front <;> rfl

/-- The ends of a segment that lies between the first `n` points are among these. -/
theorem toNat_pointIndex_lt {s : Segment} {n : Nat} (h : s.index.toNat + 1 < n) (front : Bool) :
    (s.pointIndex front).toNat < n := by
  rw [pointIndex]
  split
  · rw [UInt32.toNat_add]
    exact Nat.lt_of_le_of_lt (Nat.mod_le _ _) h
  · exact Nat.lt_of_succ_lt h

end Segment

/-- A step onto a segment at a cost. -/
structure Step where
  target : Segment
  weight : Weight
deriving DecidableEq, Repr

end Crossroads

import Crossroads.Box
import Crossroads.Overlay.Source

/-!
# Stretches

A stretch is the straight line between two neighbouring vertices of a road.  It is near a point when
its box and the line itself are (`Stretch.isWithin`).
-/

namespace Crossroads

/-- The straight line between two neighbouring vertices of a road. -/
structure Stretch (K : Type) where
  a : Point K
  b : Point K
  feature : FeatureId
  index : UInt32

namespace Stretch

variable {K : Type} [Scalar K]

/-- The same stretch of the same road, numerically. -/
instance : BEq (Stretch K) :=
  ⟨fun s t => s.a == t.a && s.b == t.b && s.feature == t.feature && s.index == t.index⟩

/-- The stretches of a road. -/
def ofRoad (id : FeatureId) (road : RoadLine K) : List (Stretch K) :=
  (road.junctions.zip road.junctions.tail).zipIdx.map fun ((a, b), i) =>
    ⟨a.point, b.point, id, UInt32.ofNat i⟩

/-- The point of a stretch nearest to a point. -/
def project (s : Stretch K) (p : Point K) : Point K := Point.project p s.a s.b

/-- The square of the distance between a stretch and a point. -/
def distanceSquared (s : Stretch K) (p : Point K) : K := Point.distanceSquared (s.project p) p

/-- The first stretch comes no later than the second in order of distance from a point, then of
feature, then of index. -/
def closer (p : Point K) (s t : Stretch K) : Bool :=
  let ds := s.distanceSquared p
  let dt := t.distanceSquared p
  if ds < dt then true
  else if dt < ds then false
  else decide (s.feature < t.feature) || (s.feature == t.feature && decide (s.index ≤ t.index))

/-- The box around a stretch. -/
def box (s : Stretch K) : Box K := Box.ofCorners s.a s.b

/-- All coordinates of a stretch are numbers. -/
def isMeasured (s : Stretch K) : Bool := s.a == s.a && s.b == s.b

/-- The distance between a stretch and a point is a number. -/
def isMeasuredFrom (p : Point K) (s : Stretch K) : Bool :=
  s.distanceSquared p == s.distanceSquared p

/-- The stretch is within a distance of a point, which is given by its square; so is then its box.
-/
def isWithin (reach : K) (p : Point K) (s : Stretch K) : Bool :=
  decide (s.box.distanceSquared p ≤ reach) && decide (s.distanceSquared p ≤ reach)

end Stretch

end Crossroads

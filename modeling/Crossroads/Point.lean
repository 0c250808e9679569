import Crossroads.Scalar

/-!
# Points of the plane

A point has a longitude `x` and a latitude `y`, in degrees.  Here are the planar notions that roads
are matched with: points that are almost equal, the point of a straight segment nearest to a given
one (`project`), and points that lie on a segment up to a tolerance (`onSegment`).
-/

namespace Crossroads

/-- A point of the plane. -/
structure Point (K : Type) where
  x : K
  y : K
deriving Repr

namespace Point

variable {K : Type} [Scalar K]

/-- The numeric equality of both coordinates. -/
instance : BEq (Point K) := ⟨fun a b => a.x == b.x && a.y == b.y⟩

/-- The tolerance within which two reconstructed places count as one. -/
def tolerance : K := 1e-6

/-- Both coordinates differ by less than `eps`. -/
def almostEqual (eps : K) (a b : Point K) : Bool :=
  decide (Scalar.magnitude (a.x - b.x) < eps) && decide (Scalar.magnitude (a.y - b.y) < eps)

/-- The square of the distance between two points. -/
def distanceSquared (a b : Point K) : K :=
  let dx := a.x - b.x
  let dy := a.y - b.y
  dx * dx + dy * dy

/-- The point of segment `ab` nearest to `p`. -/
def project (p a b : Point K) : Point K :=
  let dx := b.x - a.x
  let dy := b.y - a.y
  let lengthSquared := dx * dx + dy * dy
  if lengthSquared == 0.0 then a
  else
    let t := Scalar.clamp 0.0 1.0 (((p.x - a.x) * dx + (p.y - a.y) * dy) / lengthSquared)
    ⟨a.x + t * dx, a.y + t * dy⟩

/-- `p` lies on segment `ab` within the tolerance. -/
def onSegment (p a b : Point K) : Bool := almostEqual tolerance (project p a b) p

/-- Points by longitude. -/
def byLongitude (a b : Point K) : Ordering := Scalar.order a.x b.x

/-- Points by latitude. -/
def byLatitude (a b : Point K) : Ordering := Scalar.order a.y b.y

/-- Points in the total order of their coordinates, longitude first. -/
def compare : Point K → Point K → Ordering := compareLex byLongitude byLatitude

instance : Std.TransCmp (@byLongitude K _) where
  eq_swap := (Scalar.order_trans : Std.TransCmp (@Scalar.order K _)).eq_swap
  isLE_trans {_ b _} hab hbc :=
    (Scalar.order_trans : Std.TransCmp (@Scalar.order K _)).isLE_trans (b := b.x) hab hbc

instance : Std.TransCmp (@byLatitude K _) where
  eq_swap := (Scalar.order_trans : Std.TransCmp (@Scalar.order K _)).eq_swap
  isLE_trans {_ b _} hab hbc :=
    (Scalar.order_trans : Std.TransCmp (@Scalar.order K _)).isLE_trans (b := b.y) hab hbc

instance : Std.TransCmp (@compare K _) := inferInstanceAs (Std.TransCmp (compareLex _ _))

end Point

end Crossroads

import Crossroads.Feature
import Crossroads.Text.Decimal

/-!
# Junctions and edges

The nodes of the road graph are junctions, points with an altitude, and its arcs are edges between
them.  A real edge belongs to a segment of a feature; a fake edge belongs to none and splices a
point that is no vertex of a road into the graph.

The order of junctions looks at the point only.  Edges are ordered by their fields, fake ones first.
-/

namespace Crossroads

/-- A point in words. -/
def Point.text (p : Point Coordinate) : String :=
  "(" ++ Text.Decimal.fixed 7 p.x.toFloat ++ ", " ++ Text.Decimal.fixed 7 p.y.toFloat ++ ")"

/-- A node of the road graph. -/
structure Junction (K : Type) where
  point : Point K
  /-- In meters. -/
  altitude : Int16 := 0

namespace Junction

variable {K : Type} [Scalar K]

/-- The order of junctions is that of their points. -/
def compare (a b : Junction K) : Ordering := Point.compare a.point b.point

/-- The junctions are the same node. -/
def same (a b : Junction K) : Bool := compare a b == .eq

/-- The points are almost equal. -/
def almostEqual (eps : K) (a b : Junction K) : Bool := Point.almostEqual eps a.point b.point

/-- A junction in words. -/
def text (j : Junction Coordinate) : String := s!"Junction{j.point.text} @{j.altitude}m"

instance : Std.TransCmp (@compare K _) where
  eq_swap := (inferInstance : Std.TransCmp (@Point.compare K _)).eq_swap
  isLE_trans {_ b _} hab hbc :=
    (inferInstance : Std.TransCmp (@Point.compare K _)).isLE_trans (b := b.point) hab hbc

end Junction

/-- An arc of the road graph. -/
structure Edge (K : Type) where
  /-- None for a fake edge. -/
  feature : Option FeatureId
  forward : Bool := true
  /-- A fake edge covers a part of a real one. -/
  partOfReal : Bool := false
  index : UInt32 := 0
  start : Junction K
  stop : Junction K

namespace Edge

variable {K : Type}

/-- The fake edge between two junctions. -/
def fake (start stop : Junction K) (partOfReal : Bool) : Edge K :=
  { feature := none, partOfReal := partOfReal, start := start, stop := stop }

/-- The edge belongs to no feature. -/
def isFake (e : Edge K) : Bool := e.feature.isNone

/-- The same stretch in the other direction. -/
def reverse (e : Edge K) : Edge K :=
  { e with forward := !e.forward, start := e.stop, stop := e.start }

/-- The edges belong to the same segment and go in the same direction. -/
def sameSegment (a b : Edge K) : Bool :=
  a.feature == b.feature && a.forward == b.forward && a.index == b.index

/-- Edges by their starts. -/
def byStart [Scalar K] (a b : Edge K) : Ordering := Junction.compare a.start b.start

/-- Edges by their ends. -/
def byStop [Scalar K] (a b : Edge K) : Ordering := Junction.compare a.stop b.stop

/-- The order of edges. -/
def compare [Scalar K] : Edge K → Edge K → Ordering :=
  compareLex (compareOn Edge.feature)
    (compareLex (compareOn Edge.forward)
      (compareLex (compareOn Edge.partOfReal)
        (compareLex (compareOn Edge.index) (compareLex byStart byStop))))

instance [Scalar K] : Std.TransCmp (@byStart K _) where
  eq_swap := (inferInstance : Std.TransCmp (@Junction.compare K _)).eq_swap
  isLE_trans {_ b _} hab hbc :=
    (inferInstance : Std.TransCmp (@Junction.compare K _)).isLE_trans (b := b.start) hab hbc

instance [Scalar K] : Std.TransCmp (@byStop K _) where
  eq_swap := (inferInstance : Std.TransCmp (@Junction.compare K _)).eq_swap
  isLE_trans {_ b _} hab hbc :=
    (inferInstance : Std.TransCmp (@Junction.compare K _)).isLE_trans (b := b.stop) hab hbc

instance [Scalar K] : Std.TransCmp (@compare K _) := inferInstanceAs (Std.TransCmp (compareLex _ _))

/-- The edges are the same arc. -/
def same [Scalar K] (a b : Edge K) : Bool := compare a b == .eq

/-- An edge in words. -/
def text (e : Edge Coordinate) : String :=
  let kind := match e.feature with
    | some id => s!"feature {id}, seg {e.index}"
    | none => if e.partOfReal then "fake, part of real" else "fake"
  let direction := if e.forward then "fwd" else "bwd"
  s!"Edge({kind}, {direction}, {e.start.point.text} -> {e.stop.point.text})"

@[simp]
theorem reverse_reverse (e : Edge K) : e.reverse.reverse = e := by simp [reverse]

end Edge

end Crossroads

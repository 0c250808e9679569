import Crossroads.Border.Turn
import Crossroads.Coordinate

/-!
# Borders

The border of a country is a list of regions, each an outer ring with holes.  A point is inside when
it lies strictly inside some region: inside its outer ring, and neither in nor on any of its holes.

Where a point lies is decided by how often the ring winds around it, counting the sides that cross
the point's latitude by the way they turn about it (`Ring.locate`).
-/

namespace Crossroads

/-- A line of points; closed when it ends where it starts. -/
abbrev Ring := List (Point Coordinate)

/-- An outer ring with holes. -/
structure Region where
  outer : Ring
  holes : List Ring

/-- Where a point lies to a ring. -/
inductive Side
  | inside
  | outside
  | boundary
deriving DecidableEq, Repr

namespace Ring

/-- The ring, closed by its first point if it does not end there. -/
def close (ring : Ring) : Ring :=
  match ring.head?, ring.getLast? with
  | some first, some last => if first == last then ring else ring ++ [first]
  | _, _ => ring

/-- The number lies between two others, in whichever order these are. -/
def between (v a b : Coordinate) : Bool :=
  if a < b then decide (v ≥ a) && decide (v ≤ b) else decide (v ≥ b) && decide (v ≤ a)

/-- How the side from `a` to `b` counts for point `p`: by how much it winds around the point, or
nothing if the point lies on it. -/
def wind? (p a b : Point Coordinate) : Option Int :=
  if a.y ≤ p.y then
    if b.y ≥ p.y then
      match Turn.ofPoints a b p with
      | .left => some (if b.y == p.y then 0 else 1)
      | .straight => if between p.x a.x b.x then none else some 0
      | .right => some 0
    else some 0
  else if b.y ≤ p.y then
    match Turn.ofPoints a b p with
    | .right => some (-1)
    | .straight => if between p.x a.x b.x then none else some 0
    | .left => some 0
  else some 0

/-- Where a point lies to a closed ring. -/
def locate (p : Point Coordinate) (ring : Ring) : Side :=
  match ring with
  | [] => .outside
  | [q] => if p == q then .boundary else .outside
  | _ =>
    match (ring.zip ring.tail).mapM fun (a, b) => wind? p a b with
    | none => .boundary
    | some turns => if turns.foldr (· + ·) 0 = 0 then .outside else .inside

end Ring

namespace Region

/-- The region of a ring and holes, each closed. -/
def ofRings (outer : Ring) (holes : List Ring) : Region := ⟨Ring.close outer, holes.map Ring.close⟩

/-- The point lies strictly inside the region. -/
def contains (r : Region) (p : Point Coordinate) : Bool :=
  Ring.locate p r.outer == .inside && r.holes.all fun hole => Ring.locate p hole == .outside

end Region

/-- The border of a country. -/
abbrev Borders := List Region

namespace Borders

/-- The border of one ring without holes. -/
def ofRing (ring : Ring) : Borders := [Region.ofRings ring []]

/-- The point lies strictly inside some region. -/
def contains (borders : Borders) (p : Point Coordinate) : Bool := borders.any fun r => r.contains p

end Borders

end Crossroads

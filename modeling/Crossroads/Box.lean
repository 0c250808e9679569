import Crossroads.Point

/-!
# Boxes

A box is an upright rectangle.  A segment is nowhere nearer to a point than the box around it, so
that boxes tell cheaply what is out of reach.  A box whose corners are crossed holds nothing.
-/

namespace Crossroads

/-- An upright rectangle. -/
structure Box (K : Type) where
  lower : Point K
  upper : Point K

namespace Box

variable {K : Type} [Scalar K]

/-- The lesser of two numbers; the second if they cannot be compared. -/
def lesser (a b : K) : K := if a < b then a else b

/-- The greater of two numbers; the second if they cannot be compared. -/
def greater (a b : K) : K := if b < a then a else b

/-- The box with two points at opposite corners. -/
def ofCorners (a b : Point K) : Box K :=
  ⟨⟨lesser a.x b.x, lesser a.y b.y⟩, ⟨greater a.x b.x, greater a.y b.y⟩⟩

/-- The smallest box around two boxes. -/
def around (r s : Box K) : Box K :=
  ⟨⟨lesser r.lower.x s.lower.x, lesser r.lower.y s.lower.y⟩,
    ⟨greater r.upper.x s.upper.x, greater r.upper.y s.upper.y⟩⟩

/-- The part that two boxes have in common. -/
def common (r s : Box K) : Box K :=
  ⟨⟨greater r.lower.x s.lower.x, greater r.lower.y s.lower.y⟩,
    ⟨lesser r.upper.x s.upper.x, lesser r.upper.y s.upper.y⟩⟩

/-- The box that holds no number at all, if there is one. -/
def void? : Option (Box K) :=
  Scalar.greatest?.map fun far => ⟨⟨far, far⟩, ⟨0.0 - far, 0.0 - far⟩⟩

/-- The smallest box around some boxes, which all come in one after another. -/
def hull? : List (Box K) → Option (Box K)
  | [] => none
  | box :: rest => some (rest.foldl around (void?.elim box fun void => void.around box))

/-- The middle of a box. -/
def middle (box : Box K) : Point K :=
  ⟨(box.lower.x + box.upper.x) / 2.0, (box.lower.y + box.upper.y) / 2.0⟩

/-- The area of a box. -/
def area (box : Box K) : K :=
  greater (box.upper.y - box.lower.y) 0.0 * greater (box.upper.x - box.lower.x) 0.0

/-- Half the way around a box. -/
def girth (box : Box K) : K :=
  greater ((box.upper.x - box.lower.x) + (box.upper.y - box.lower.y)) 0.0

/-- The point lies in the box or on its rim. -/
def contains (box : Box K) (p : Point K) : Bool :=
  decide (box.lower.x ≤ p.x) && decide (box.lower.y ≤ p.y)
    && decide (p.x ≤ box.upper.x) && decide (p.y ≤ box.upper.y)

/-- Both ends of the second box lie in the first. -/
def encloses (r s : Box K) : Bool :=
  decide (r.lower.x ≤ s.lower.x) && decide (r.lower.y ≤ s.lower.y)
    && decide (s.upper.x ≤ r.upper.x) && decide (s.upper.y ≤ r.upper.y)

/-- The point of the box nearest to a point. -/
def nearest (box : Box K) (p : Point K) : Point K :=
  ⟨lesser box.upper.x (greater box.lower.x p.x), lesser box.upper.y (greater box.lower.y p.y)⟩

/-- The square of the distance between a box and a point. -/
def distanceSquared (box : Box K) (p : Point K) : K :=
  if box.contains p then 0.0 else Point.distanceSquared (box.nearest p) p

end Box

end Crossroads

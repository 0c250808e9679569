import Crossroads.Point
import Crossroads.Rounded

/-!
# Turns

Which way three points turn is the sign of the area between them.  A rounded area decides when it is
farther from zero than rounding can have moved it.  Otherwise it is computed again with more of what
rounding took away, and in the end with all of it (`Turn.signedArea`).  Where no step rounds, that
is the area itself (`Turn.signedArea_exact`).
-/

namespace Crossroads

/-- Which way three points turn. -/
inductive Turn
  | left
  | right
  | straight
deriving DecidableEq, Repr

namespace Turn

variable {K : Type} [Scalar K]

/-- The turn that a signed area stands for; straight if it is no number. -/
def ofSign (area : K) : Turn :=
  if area < 0.0 then right else if 0.0 < area then left else straight

/-! ## How far rounding can move an area -/

/-- The greatest relative error of one rounded step. -/
def roundoff : K := 1.0 / 9007199254740992.0

/-- The error of the area, by the size of its products. -/
def areaBound : K := 3.3306690621773722e-16

/-- The error once nothing but the differences is rounded, by the size of the products. -/
def differenceBound : K := (2.0 + 12.0 * roundoff) * roundoff

/-- The error once the differences are mended, by the size of the products. -/
def mendedBound : K := (9.0 + 64.0 * roundoff) * roundoff * roundoff

/-- The error of mending, by the size of the area. -/
def mendingBound : K := (3.0 + 8.0 * roundoff) * roundoff

/-- The area is at least as far from zero as the bound. -/
def clears (area bound : K) : Bool := decide (area ≥ bound) || decide (0.0 - area ≥ bound)

/-! ## The area -/

/-- The way from one point to another, with its errors. -/
def offset (a b : Point K) : Point (Rounded K) :=
  ⟨Rounded.difference b.x a.x, Rounded.difference b.y a.y⟩

/-- A way without its errors. -/
def values (u : Point (Rounded K)) : Point K := ⟨u.x.value, u.y.value⟩

/-- The errors of a way. -/
def errors (u : Point (Rounded K)) : Point K := ⟨u.x.error, u.y.error⟩

/-- The area between two ways, without loss. -/
def cross (u v : Point K) : Expansion K :=
  Expansion.difference (Rounded.product u.x v.y) (Rounded.product u.y v.x)

/-- The area between two ways, with all their errors. -/
def fullArea (u v : Point (Rounded K)) : K :=
  ((((cross (values u) (values v)).add (cross (errors u) (values v))).add
    (cross (values u) (errors v))).add (cross (errors u) (errors v))).leading

/-- The area between two ways whose products are of some size, with as many of the errors as it
takes to know its sign. -/
def mendedArea (u v : Point (Rounded K)) (size : K) : K :=
  let area := (cross (values u) (values v)).rough
  let isExact := u.x.error == 0.0 && u.y.error == 0.0 && v.x.error == 0.0 && v.y.error == 0.0
  if clears area (differenceBound * size) || isExact then area
  else
    let mended := area + ((u.x.value * v.y.error + v.y.value * u.x.error)
      - (u.y.value * v.x.error + v.x.value * u.y.error))
    if clears mended (mendedBound * size + mendingBound * Scalar.magnitude area) then mended
    else fullArea u v

/-- Twice the signed area of three points, of the right sign as long as no step leaves the range of
numbers. -/
def signedArea (a b c : Point K) : K :=
  let forth := (a.x - c.x) * (b.y - c.y)
  let back := (a.y - c.y) * (b.x - c.x)
  let size := Scalar.magnitude (forth + back)
  if clears (forth - back) (areaBound * size) then forth - back
  else mendedArea (offset c a) (offset c b) size

theorem signedArea_exact (a b c : Point Rat) :
    signedArea a b c = (a.x - c.x) * (b.y - c.y) - (a.y - c.y) * (b.x - c.x) := by
  have zero : ((0 : Rat) == 0.0) = true := by decide +kernel
  simp only [signedArea, mendedArea, offset, cross, values, Rounded.difference_exact,
    Rounded.product_exact, Expansion.rough_difference, zero, Bool.and_self, Bool.or_true, ite_true]
  split <;> grind

/-- The turn of the way from `a` over `b` to `c`. -/
def ofPoints (a b c : Point K) : Turn := ofSign (signedArea a b c)

end Turn

end Crossroads

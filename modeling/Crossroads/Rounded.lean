import Crossroads.Scalar

/-!
# What rounding takes away

The sum, difference or product of two floating-point numbers is rounded.  What rounding takes away
is again a floating-point number and is found by rounded steps alone, as long as no step leaves the
range of numbers.  `Rounded` is a result together with that error.

An `Expansion` is a list of numbers that stands for their exact sum.  Expansions are subtracted and
added without loss (`Expansion.difference`, `Expansion.add`), and the sign of one is that of its
last number.  Where no step rounds, nothing is taken away (`Rounded.sum_exact` and those after it).
-/

namespace Crossroads

/-- A rounded result, and the exact result less the rounded one. -/
structure Rounded (K : Type) where
  value : K
  error : K

namespace Rounded

variable {K : Type} [Scalar K]

/-- The sum of two numbers. -/
def sum (a b : K) : Rounded K :=
  let value := a + b
  let fromB := value - a
  let fromA := value - fromB
  ⟨value, (a - fromA) + (b - fromB)⟩

/-- The difference of two numbers. -/
def difference (a b : K) : Rounded K :=
  let value := a - b
  let fromB := a - value
  let fromA := value + fromB
  ⟨value, (a - fromA) + (fromB - b)⟩

/-- A number as the sum of two numbers of half its digits. -/
def halves (a : K) : K × K :=
  let wide := 134217729.0 * a
  let high := wide - (wide - a)
  (high, a - high)

/-- The product of two numbers. -/
def product (a b : K) : Rounded K :=
  let value := a * b
  let (highA, lowA) := halves a
  let (highB, lowB) := halves b
  ⟨value, lowA * lowB - (value - highA * highB - lowA * highB - highA * lowB)⟩

/-! ## Where no step rounds -/

theorem sum_exact (a b : Rat) : sum a b = ⟨a + b, 0⟩ := by
  simp only [sum, mk.injEq]
  grind

theorem difference_exact (a b : Rat) : difference a b = ⟨a - b, 0⟩ := by
  simp only [difference, mk.injEq]
  grind

theorem halves_exact (a : Rat) : halves a = (a, 0) := by
  simp only [halves, Prod.mk.injEq]
  grind

theorem product_exact (a b : Rat) : product a b = ⟨a * b, 0⟩ := by
  simp only [product, halves_exact, mk.injEq]
  grind

end Rounded

/-- Numbers that stand for their exact sum, least first. -/
abbrev Expansion (K : Type) := List K

namespace Expansion

variable {K : Type} [Scalar K]

/-- The exact value of `a` less that of `b`. -/
def difference (a b : Rounded K) : Expansion K :=
  let low := Rounded.difference a.error b.error
  let upper := Rounded.sum a.value low.value
  let middle := Rounded.difference upper.error b.value
  let high := Rounded.sum upper.value middle.value
  [low.error, middle.error, high.error, high.value]

/-- The sum, rounded at each step. -/
def rough : Expansion K → K
  | [] => 0.0
  | x :: rest => rest.foldl (· + ·) x

/-- The magnitude of `x` is no greater than that of `y`. -/
def noGreater (x y : K) : Bool := decide (x < y) == decide (0.0 - x < y)

/-- Adds numbers to a sum, one after another.  The errors are kept before it; zeros are left out
unless nothing else is there. -/
def gather (kept : Expansion K) (sum : K) : List K → Expansion K
  | [] => if sum == 0.0 && !kept.isEmpty then kept else kept ++ [sum]
  | x :: rest =>
    let next := Rounded.sum sum x
    gather (if next.error == 0.0 then kept else kept ++ [next.error]) next.value rest

/-- The sum of two expansions. -/
def add (a b : Expansion K) : Expansion K :=
  match a.merge b noGreater with
  | [] => []
  | x :: rest => gather [] x rest

/-- The last number, which outweighs all before it. -/
def leading (e : Expansion K) : K := e.getLast?.getD 0.0

theorem rough_difference (a b : Rounded Rat) :
    (difference a b).rough = a.value + a.error - (b.value + b.error) := by
  simp only [difference, Rounded.sum_exact, Rounded.difference_exact, rough, List.foldl]
  grind

end Expansion

end Crossroads

/-!
# Numbers that coordinates are made of

Planar geometry is written once, over any kind of number that can be added, multiplied, compared and
rounded.  A program computes with floating-point coordinates; the same definitions over the
rationals say what it computes when no step rounds.
-/

namespace Crossroads

/-- A kind of number that coordinates can be made of. -/
class Scalar (K : Type) extends
    Add K, Sub K, Mul K, Div K, BEq K, LT K, LE K, OfScientific K where
  decLt : DecidableLT K
  decLe : DecidableLE K
  /-- A count as a number. -/
  ofCount : Nat → K
  /-- A total order that tells apart all numbers that differ, also those that compare as neither. -/
  order : K → K → Ordering
  order_trans : Std.TransCmp order
  /-- The nearest word, halves away from zero; what lies outside the words goes to the nearer end,
  and what is no number to zero. -/
  nearest : K → UInt32
  /-- The greatest finite number, if the numbers end there. -/
  greatest? : Option K

instance Scalar.instDecidableLT {K : Type} [Scalar K] : DecidableLT K := Scalar.decLt

instance Scalar.instDecidableLE {K : Type} [Scalar K] : DecidableLE K := Scalar.decLe

attribute [instance] Scalar.order_trans

namespace Scalar

variable {K : Type} [Scalar K]

/-- The number without its sign. -/
def magnitude (x : K) : K := if x < 0.0 then 0.0 - x else x

/-- The first number is no greater than the second; what is no number comes after all numbers. -/
def notAfter (a b : K) : Bool := b != b || a == a && !decide (b < a)

/-- The number, or the bound that it lies beyond. -/
def clamp (low high x : K) : K := if x < low then low else if high < x then high else x

end Scalar

instance : Scalar Rat where
  decLt := inferInstance
  decLe := inferInstance
  ofCount n := (n : Rat)
  order x y := compareOfLessAndEq x y
  order_trans :=
    Std.TransOrd.compareOfLessAndEq_of_antisymm_of_trans_of_total_of_not_le
      (fun h h' => Rat.le_antisymm h h') (fun h h' => Rat.le_trans h h')
      (fun _ _ => Rat.le_total) Rat.not_le
  nearest x := UInt32.ofNat (min 4294967295 (x + 1 / 2).floor.toNat)
  greatest? := none

end Crossroads

import Crossroads.Double
import Crossroads.Scalar

/-!
# Floating-point coordinates

A coordinate is a floating-point number that is known bit by bit.  It is computed with and compared
as a number, but it has a place of its own in the order of coordinates (`order_eq_iff`), also if
it is no number: there are many of those, which differ in their sign and in the bits after it.

A step on coordinates that are no numbers hands on the first of them (`Coordinate.step`).
-/

namespace Crossroads

/-- A floating-point number, bit by bit. -/
structure Coordinate where
  bits : UInt64

namespace Coordinate

/-- The coordinate with a value. -/
def ofFloat (x : Float) : Coordinate := ⟨x.toBits⟩

/-- The value of a coordinate. -/
def toFloat (c : Coordinate) : Float := Float.ofBits c.bits

/-- The coordinate has no number for a value. -/
def isNaN (c : Coordinate) : Bool := 0x7FF0000000000000 < c.bits &&& 0x7FFFFFFFFFFFFFFF

/-- The place of a coordinate among all: negative ones first, from the one farthest from zero, with
`-0.0` right before `0.0`. -/
def rank (c : Coordinate) : UInt64 :=
  if c.bits < 0x8000000000000000 then c.bits + 0x8000000000000000 else 0xFFFFFFFFFFFFFFFF - c.bits

/-- No two coordinates have the same place. -/
theorem rank_inj {a b : Coordinate} (h : rank a = rank b) : a = b := by
  obtain ⟨a⟩ := a
  obtain ⟨b⟩ := b
  have ha := a.toNat_lt
  have hb := b.toNat_lt
  simp only [rank, UInt64.lt_iff_toNat_lt] at h
  have same : a.toNat = b.toNat := by
    split at h <;> split at h <;>
      simp_all [← UInt64.toNat_inj, UInt64.toNat_add, UInt64.toNat_sub] <;> omega
  rw [UInt64.toNat_inj.mp same]

/-! ## Steps -/

/-- What a step hands on of a coordinate that is no number. -/
def quiet (c : Coordinate) : Coordinate := ⟨c.bits ||| 0x0008000000000000⟩

/-- What a step on numbers gives that has no number for a result. -/
def undefined : Coordinate := ⟨0xFFF8000000000000⟩

/-- A step of arithmetic on coordinates. -/
def step (f : Float → Float → Float) (a b : Coordinate) : Coordinate :=
  if a.isNaN then a.quiet
  else if b.isNaN then b.quiet
  else
    let result := f a.toFloat b.toFloat
    if result.isNaN then undefined else ofFloat result

instance : Add Coordinate := ⟨step (· + ·)⟩

instance : Sub Coordinate := ⟨step (· - ·)⟩

instance : Mul Coordinate := ⟨step (· * ·)⟩

instance : Div Coordinate := ⟨step (· / ·)⟩

instance : OfScientific Coordinate := ⟨fun m s e => ofFloat (OfScientific.ofScientific m s e)⟩

/-! ## Comparisons -/

/-- The equality of values. -/
instance : BEq Coordinate := ⟨fun a b => a.toFloat == b.toFloat⟩

instance : LT Coordinate := ⟨fun a b => a.toFloat < b.toFloat⟩

instance : LE Coordinate := ⟨fun a b => a.toFloat ≤ b.toFloat⟩

/-- The lesser of two coordinates; what is no number gives way. -/
def lesser (a b : Coordinate) : Coordinate := if a.isNaN || b.toFloat < a.toFloat then b else a

/-- The greater of two coordinates; what is no number gives way. -/
def greater (a b : Coordinate) : Coordinate := if a.isNaN || a.toFloat < b.toFloat then b else a

instance : Scalar Coordinate where
  decLt a b := inferInstanceAs (Decidable (a.toFloat < b.toFloat))
  decLe a b := inferInstanceAs (Decidable (a.toFloat ≤ b.toFloat))
  ofCount n := ofFloat (Float.ofNat n)
  order := compareOn rank
  order_trans := inferInstance
  nearest c := Double.nearestWord c.toFloat
  greatest? := some ⟨0x7FEFFFFFFFFFFFFF⟩

/-- The order tells apart all coordinates that differ in a bit. -/
theorem order_eq_iff {a b : Coordinate} : Scalar.order a b = .eq ↔ a = b := by
  constructor
  · intro h
    exact rank_inj (Std.LawfulEqOrd.eq_of_compare h)
  · rintro rfl
    exact Std.ReflCmp.compare_self

end Coordinate

end Crossroads

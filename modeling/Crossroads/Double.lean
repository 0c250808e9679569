/-!
# Floating-point numbers

What a floating-point number is made of, and the few steps in which it matters what happens to one
that is no number.
-/

namespace Crossroads

namespace Double

/-- The nearest word, halves away from zero. -/
def nearestWord (x : Float) : UInt32 :=
  if x < 4294967295.0 then
    let whole := x.toUInt32
    if x - whole.toFloat ≥ 0.5 then whole + 1 else whole
  else x.toUInt32

/-- The lesser of two numbers; what is no number gives way. -/
def lesser (a b : Float) : Float := if a.isNaN || b < a then b else a

/-- A finite number as `(-1)^negative * mantissa * 2^exponent`. -/
def parts (x : Float) : Bool × Nat × Int :=
  let field := ((x.toBits >>> 52) &&& 0x7FF).toNat
  let fraction := (x.toBits &&& 0xFFFFFFFFFFFFF).toNat
  (decide (0x8000000000000000 ≤ x.toBits),
    if field = 0 then (fraction, -1074) else (0x10000000000000 + fraction, (field : Int) - 1075))

end Double

end Crossroads

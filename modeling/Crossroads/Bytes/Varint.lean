import Crossroads.Bytes

/-!
# Numbers of variable length

A number is written in groups of seven bits, lowest group first; every octet but the last has its
highest bit set.  Signed numbers are folded onto unsigned ones first, so that numbers near zero stay
short on both sides (`Zigzag`).
-/

namespace Crossroads

namespace Varint

/-- The octets of a number. -/
def encode (n : Nat) : Bytes :=
  if n < 128 then [UInt8.ofNat n] else UInt8.ofNat (n % 128 + 128) :: encode (n / 128)
termination_by n
decreasing_by omega

end Varint

namespace Zigzag

/-- Folds `0, -1, 1, -2, …` onto `0, 1, 2, 3, …`. -/
def encode (v : Int64) : UInt64 := ((v <<< 1) ^^^ (v >>> 63)).toUInt64

/-- Unfolds `0, 1, 2, 3, …` to `0, -1, 1, -2, …`. -/
def decode (u : UInt64) : Int64 := (u >>> 1).toInt64 ^^^ -((u &&& 1).toInt64)

end Zigzag

end Crossroads

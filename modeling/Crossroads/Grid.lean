import Crossroads.Point

/-!
# The coordinate grid

Both axes run from -180 to 180 degrees and are cut into `2 ^ bits - 1` equal steps, so that a
coordinate is stored as a number of `bits` bits.  A `Cell` is a point of that grid; two places count
as one location when they fall into the same cell.  A cell is known by one word, its key, and no two
cells have the same (`Cell.key_inj`).
-/

namespace Crossroads

namespace Grid

/-- The highest number on an axis. -/
def top (bits : Nat) : Nat := Nat.pow 2 bits - 1

variable {K : Type} [Scalar K]

/-- The grid number nearest to a coordinate; coordinates beyond the axis go to its ends. -/
def quantize (bits : Nat) (v : K) : UInt32 :=
  Scalar.nearest ((Scalar.clamp (0.0 - 180.0) 180.0 v - (0.0 - 180.0)) / 360.0 *
    Scalar.ofCount (top bits))

/-- The coordinate of a grid number. -/
def dequantize (bits : Nat) (n : UInt32) : K :=
  Scalar.ofCount n.toNat / Scalar.ofCount (top bits) * 360.0 + (0.0 - 180.0)

end Grid

/-- A point of the grid. -/
structure Cell where
  x : UInt32
  y : UInt32
deriving DecidableEq, Repr

namespace Cell

variable {K : Type} [Scalar K]

/-- The cell that a point falls into. -/
def ofPoint (bits : Nat) (p : Point K) : Cell := ⟨Grid.quantize bits p.x, Grid.quantize bits p.y⟩

/-- The point that a cell stands for. -/
def toPoint (bits : Nat) (c : Cell) : Point K :=
  ⟨Grid.dequantize bits c.x, Grid.dequantize bits c.y⟩

/-- A cell as one word, with `x` in the upper half and `y` in the lower one. -/
def key (c : Cell) : UInt64 := c.x.toUInt64 <<< 32 ||| c.y.toUInt64

theorem toNat_key (c : Cell) : c.key.toNat = 4294967296 * c.x.toNat + c.y.toNat := by
  have hx := c.x.toNat_lt
  have hshift : (c.x.toUInt64 <<< 32).toNat = 4294967296 * c.x.toNat := by
    rw [UInt64.toNat_shiftLeft, Nat.shiftLeft_eq, UInt32.toNat_toUInt64, Nat.mul_comm]
    exact Nat.mod_eq_of_lt (Nat.mul_lt_mul_of_pos_left hx (by decide))
  rw [key, UInt64.toNat_or, hshift, UInt32.toNat_toUInt64]
  exact (Nat.two_pow_add_eq_or_of_lt c.y.toNat_lt c.x.toNat).symm

/-- The halves of a key do not touch, so that no two cells have the same key. -/
theorem key_inj {a b : Cell} (h : a.key = b.key) : a = b := by
  obtain ⟨x, y⟩ := a
  obtain ⟨x', y'⟩ := b
  have hy := y.toNat_lt
  have hy' := y'.toNat_lt
  have hkeys := congrArg UInt64.toNat h
  simp only [toNat_key] at hkeys
  have hx : x = x' := UInt32.toNat_inj.mp (by omega)
  have hy : y = y' := UInt32.toNat_inj.mp (by omega)
  rw [hx, hy]

/-- Cells are ordered by their keys: by `x`, then by `y`. -/
instance : Ord Cell := ⟨compareOn key⟩

instance : Std.TransOrd Cell := inferInstanceAs (Std.TransCmp (compareOn key))

instance : Std.LawfulEqOrd Cell where
  eq_of_compare h := key_inj (Std.LawfulEqOrd.eq_of_compare h)

end Cell

end Crossroads

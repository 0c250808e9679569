import Crossroads.Graph.Network
import Crossroads.Proofs.Grid

/-!
# Travel times are never too great

A travel time is rounded to a word only after it has been compared with the greatest one, and what
is less does not round beyond it.  So no segment has the weight that stands for no way:
`Network.weight_lt_none`.
-/

namespace Crossroads

open Float.Model (UnpackedFloat)
open Rounding (AtMost)

namespace Pace

theorem unpacked_slowest : slowest.toModel.unpack
    = .finite .positive (4294967294 * 2 ^ 21) (-(21 : Nat)) (by decide) := rfl

/-- A number below zero has no whole part in a word. -/
theorem toUInt32_negative {m : Nat} {e : Int} (hm : 0 < m) :
    (UnpackedFloat.finite .negative m e hm).toUInt32 = 0 := by
  have hwhole : UnpackedFloat.toInt 0 (UInt32.size - 1) (.finite .negative m e hm) ≤ 0 := by
    show UnpackedFloat.Sign.negative.apply _ ≤ 0
    exact Int.neg_nonpos_of_nonneg (Int.natCast_nonneg _)
  rw [UnpackedFloat.toUInt32, Int.toNat_of_nonpos hwhole]
  rfl

/-- A number less than the greatest travel time is within it, or has no whole part in a word. -/
theorem atMost_of_lt {x : Float} (h : x < slowest) :
    AtMost 4294967294 x.toModel.unpack ∨ x.toUInt32 = 0 := by
  have hcompare : x.toModel.unpack.compare slowest.toModel.unpack = some .lt := by
    have hless : x.toModel < slowest.toModel := of_decide_eq_true h
    exact beq_iff_eq.mp hless
  rw [unpacked_slowest] at hcompare
  cases hx : x.toModel.unpack with
  | notANumber => exact .inl trivial
  | zero s => exact .inl trivial
  | infinity s =>
    rw [hx] at hcompare
    cases s with
    | negative =>
      right
      show x.toModel.unpack.toUInt32 = 0
      rw [hx]
      rfl
    | positive => cases hcompare
  | finite s m e hm =>
    cases s with
    | negative =>
      right
      show x.toModel.unpack.toUInt32 = 0
      rw [hx]
      exact toUInt32_negative hm
    | positive =>
      left
      have hle : e ≤ -((21 : Nat) : Int) ∧
          (e = -((21 : Nat) : Int) → m ≤ 4294967294 * 2 ^ 21) := by
        refine Grid.le_of_compare_ne ?_
        intro hgt
        rw [hx] at hcompare
        have hcompare : some ((compare e (-((21 : Nat) : Int))).then
            (compare m (4294967294 * 2 ^ 21))) = some .lt := hcompare
        rw [hgt] at hcompare
        cases hcompare
      exact Rounding.exists_le_mul_two_pow (Rounding.mantissa_lt_of_unpack hx) (by decide) hle

/-- No travel time stands for no way. -/
theorem time_lt_none (meters speed : Float) : (time meters speed).toNat < Weight.none.toNat := by
  unfold time
  dsimp only
  split
  · rename_i hlt
    rcases atMost_of_lt hlt with hatMost | hzero
    · exact Nat.lt_succ_of_le (Grid.nearestWord_le (by decide) (by decide) hatMost)
    · unfold Double.nearestWord
      dsimp only
      rw [hzero]
      split
      · split <;> decide
      · decide
  · decide

theorem weight_lt_none (p : Pace) (road : Road) (s : Segment) :
    (p.weight road s).toNat < Weight.none.toNat := by
  unfold weight
  split
  · dsimp only
    split
    · decide
    · exact time_lt_none _ _
  · decide

end Pace

/-- No segment has the weight that stands for no way. -/
theorem Network.weight_lt_none (g : Network) (s : Segment) :
    (g.weight s).toNat < Weight.none.toNat := by
  unfold weight
  split
  · exact Pace.weight_lt_none _ _ _
  · decide

end Crossroads

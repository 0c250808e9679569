import Crossroads.Grid
import Crossroads.Proofs.Coordinate

/-!
# Every point falls into a cell of the grid

A coordinate is first clamped to the axis, so that no step of `Grid.quantize` leaves the grid, however
it rounds: `Grid.quantize_le_top`.  A coordinate that is no number goes to zero.
-/

namespace Crossroads

open Float.Model (UnpackedFloat)
open Rounding (AtMost Around)

namespace Grid

/-! ## Steps of the quantization -/

/-- What does not come after a number in the order of exponents and mantissas. -/
theorem le_of_compare_ne {e f : Int} {m n : Nat}
    (h : (compare e f).then (compare m n) ≠ .gt) : e ≤ f ∧ (e = f → m ≤ n) := by
  cases hexponent : compare e f with
  | gt =>
    rw [hexponent] at h
    exact absurd rfl h
  | lt =>
    have hlt : e < f := Int.compare_eq_lt.mp hexponent
    exact ⟨Int.le_of_lt hlt, fun heq => absurd heq (Int.ne_of_lt hlt)⟩
  | eq =>
    have heq : e = f := Int.compare_eq_eq.mp hexponent
    rw [hexponent] at h
    exact ⟨Int.le_of_eq heq, fun _ => Nat.not_lt.mp fun hlt => h (Nat.compare_eq_gt.mpr hlt)⟩

/-- A number whose exponent and mantissa do not come after those of 180 is not greater. -/
theorem around_of_le {v : Coordinate} {s : UnpackedFloat.Sign} {m : Nat} {e : Int} {hm : 0 < m}
    (hv : v.unpacked = .finite s m e hm) (h : e ≤ -45 ∧ (e = -45 → m ≤ 180 * 2 ^ 45)) :
    Around 180 v.unpacked := by
  rw [hv]
  exact Rounding.exists_le_mul_two_pow (Rounding.mantissa_lt_of_unpack hv) (by decide) h

theorem unpacked_low : (0.0 - 180.0 : Coordinate).unpacked
    = .finite .negative (180 * 2 ^ 45) (-(45 : Nat)) (by decide) := rfl

theorem unpacked_high : (180.0 : Coordinate).unpacked
    = .finite .positive (180 * 2 ^ 45) (-(45 : Nat)) (by decide) := rfl

/-- A clamped coordinate lies on the axis, or is no number. -/
theorem around_clamp (v : Coordinate) :
    Around 180 (Scalar.clamp (0.0 - 180.0) 180.0 v).unpacked := by
  unfold Scalar.clamp
  split
  · rw [unpacked_low]
    exact ⟨45, rfl, Nat.le_refl _⟩
  · split
    · rw [unpacked_high]
      exact ⟨45, rfl, Nat.le_refl _⟩
    · rename_i hlow hhigh
      rw [Coordinate.lt_iff, unpacked_low] at hlow
      rw [Coordinate.lt_iff, unpacked_high] at hhigh
      cases hv : v.unpacked with
      | notANumber => trivial
      | zero s => trivial
      | infinity s =>
        rw [hv] at hlow hhigh
        cases s with
        | negative => exact absurd rfl hlow
        | positive => exact absurd rfl hhigh
      | finite s m e hm =>
        rw [← hv]
        rw [hv] at hlow hhigh
        cases s with
        | negative =>
          refine around_of_le hv (le_of_compare_ne fun hgt => hlow ?_)
          show some (((compare e (-45)).then (compare m (180 * 2 ^ 45))).swap) = some .lt
          rw [hgt]
          rfl
        | positive =>
          refine around_of_le hv (le_of_compare_ne fun hgt => hhigh ?_)
          show some ((compare (-45) e).then (compare (180 * 2 ^ 45) m)) = some .lt
          rw [← Int.compare_swap, ← Nat.compare_swap, ← Ordering.swap_then, hgt]
          rfl

theorem atMost_shifted (v : Coordinate) : AtMost 360
    (Scalar.clamp (0.0 - 180.0) 180.0 v - (0.0 - 180.0 : Coordinate)).unpacked := by
  apply Coordinate.atMost_step
  apply Rounding.atMost_unpack_pack (by decide)
  show AtMost 360 (UnpackedFloat.sub _ _ (0.0 - 180.0 : Coordinate).unpacked)
  rw [unpacked_low]
  exact (around_clamp v).sub_negative rfl _ (by decide)

theorem atMost_divided (v : Coordinate) : AtMost 1
    ((Scalar.clamp (0.0 - 180.0) 180.0 v - (0.0 - 180.0 : Coordinate)) / 360.0).unpacked := by
  apply Coordinate.atMost_step
  apply Rounding.atMost_unpack_pack (by decide)
  have hfull : (360.0 : Coordinate).unpacked
      = .finite .positive (360 * 2 ^ 44) (-(44 : Nat)) (by decide) := rfl
  show AtMost 1 (UnpackedFloat.div _ _ (360.0 : Coordinate).unpacked)
  rw [hfull]
  exact (atMost_shifted v).div rfl _

theorem atMost_ofCount {n : Nat} (hpos : 0 < n) (h : n < 2 ^ 53) :
    AtMost n (Scalar.ofCount n : Coordinate).unpacked := by
  have hcount : Float.ofNat n = n.toUInt64.toFloat * 1.0 := by
    show Float.ofScientific n false 0 = _
    unfold Float.ofScientific
    rw [dif_pos ⟨h, by decide⟩]
    rfl
  have hword : n.toUInt64.toNat = n := UInt64.toNat_ofNat_of_lt' (Nat.lt_trans h (by decide))
  have hwhole : AtMost n n.toUInt64.toFloat.toModel.unpack := by
    apply Rounding.atMost_unpack_pack hpos
    show AtMost n (UnpackedFloat.ofNat .binary64 n.toUInt64.toNat)
    rw [hword]
    exact Rounding.atMost_ofNat h
  have hone : AtMost 1 (1.0 : Float).toModel.unpack := ⟨52, rfl, Nat.le_refl _⟩
  show AtMost n (Coordinate.ofFloat (Float.ofNat n)).unpacked
  rw [Coordinate.unpacked_ofFloat, hcount]
  apply Rounding.atMost_unpack_pack hpos
  have hproduct := hwhole.mul hone (by rw [Nat.mul_one]; exact h)
  rwa [Nat.mul_one] at hproduct

/-- The word nearest to a number is within every whole bound of the number. -/
theorem nearestWord_le {bound : Nat} (hpos : 0 < bound) (hbound : bound < UInt32.size) {x : Float}
    (h : AtMost bound x.toModel.unpack) : (Double.nearestWord x).toNat ≤ bound := by
  have hwhole : x.toUInt32.toNat ≤ bound := by
    rcases h.toUInt32_le hpos hbound with hlt | heq
    · exact Nat.le_of_lt hlt
    · exact Nat.le_of_eq heq.1
  unfold Double.nearestWord
  split
  · simp only []
    split
    · rename_i hhalf
      rcases h.toUInt32_le hpos hbound with hlt | ⟨heq, k, hm, hx⟩
      · have hlt : x.toUInt32.toNat < bound := hlt
        have hone : (1 : UInt32).toNat = 1 := rfl
        have hsize : UInt32.size = 2 ^ 32 := rfl
        rw [UInt32.toNat_add]
        omega
      · -- The number is the bound itself, so that nothing is left of it.
        have heq : x.toUInt32.toNat = bound := heq
        have hsmall : bound < 2 ^ 53 := Nat.lt_trans hbound (by decide)
        obtain ⟨l, hn, hl, hlog, hofNat⟩ := Rounding.ofNat_eq_finite hpos hsmall
        have hback : x.toUInt32.toFloat.toModel.unpack
            = .finite .positive (bound * 2 ^ l) (-(l : Int)) hn := by
          show UnpackedFloat.unpack _ (UnpackedFloat.pack _
            (UnpackedFloat.ofNat .binary64 x.toUInt32.toNat)) = _
          rw [heq, hofNat]
          exact Rounding.unpack_pack_normal .positive hn hlog hl
        have hnothing : x - x.toUInt32.toFloat = .ofModel (.pack (.zero .positive)) := by
          show Float.ofModel (.pack (UnpackedFloat.sub .binary64 x.toModel.unpack
            x.toUInt32.toFloat.toModel.unpack)) = _
          rw [hback, hx, Rounding.sub_eq_zero rfl rfl]
        rw [hnothing] at hhalf
        exact absurd hhalf (by decide)
    · exact hwhole
  · exact hwhole

theorem top_pos {bits : Nat} (h : 1 ≤ bits) : 0 < top bits :=
  Nat.sub_pos_of_lt (Nat.one_lt_two_pow (Nat.one_le_iff_ne_zero.mp h))

/-- Every step of an axis is a word. -/
theorem top_lt_size {bits : Nat} (h : bits ≤ 32) : top bits < UInt32.size := by
  have hpower : 2 ^ bits ≤ 2 ^ 32 := Nat.pow_le_pow_right Nat.two_pos h
  have hunfold : top bits = 2 ^ bits - 1 := rfl
  have hsize : UInt32.size = 2 ^ 32 := rfl
  omega

/-- **Quantization stays on the grid**, for every coordinate and also where steps round. -/
theorem quantize_le_top {bits : Nat} (hlow : 1 ≤ bits) (hhigh : bits ≤ 32) (v : Coordinate) :
    (quantize bits v).toNat ≤ top bits := by
  have hpos := top_pos hlow
  have hword := top_lt_size hhigh
  have hsmall : top bits < 2 ^ 53 := Nat.lt_trans hword (by decide)
  refine nearestWord_le hpos hword ?_
  apply Coordinate.atMost_step
  apply Rounding.atMost_unpack_pack hpos
  have hproduct := (atMost_divided v).mul (atMost_ofCount hpos hsmall) (by rwa [Nat.one_mul])
  rwa [Nat.one_mul] at hproduct

/-- The number is that of a step on an axis. -/
def OnAxis (bits : Nat) (n : Int) : Prop := 0 ≤ n ∧ n ≤ top bits

instance (bits : Nat) (n : Int) : Decidable (OnAxis bits n) := inferInstanceAs (Decidable (_ ∧ _))

end Grid

/-- The point that a point's cell stands for. -/
def Point.snapped (bits : Nat) (p : Point Coordinate) : Point Coordinate :=
  (Cell.ofPoint bits p).toPoint bits

namespace Cell

/-- The cell lies on the grid. -/
def OnGrid (bits : Nat) (cell : Cell) : Prop :=
  cell.x.toNat ≤ Grid.top bits ∧ cell.y.toNat ≤ Grid.top bits

theorem onGrid_ofPoint {bits : Nat} (hlow : 1 ≤ bits) (hhigh : bits ≤ 32) (p : Point Coordinate) :
    (ofPoint bits p).OnGrid bits :=
  ⟨Grid.quantize_le_top hlow hhigh p.x, Grid.quantize_le_top hlow hhigh p.y⟩

end Cell

end Crossroads

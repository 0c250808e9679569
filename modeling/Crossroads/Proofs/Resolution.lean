import Crossroads.Proofs.Grid
import Crossroads.Proofs.Point
import Mathlib.Algebra.Order.Round
import Mathlib.Data.Rat.Floor
import Mathlib.Tactic.FieldSimp
import Mathlib.Tactic.Linarith
import Mathlib.Tactic.NormNum
import Mathlib.Tactic.Ring

/-!
# The grid without rounding errors

Over the rationals a coordinate is moved onto the axis, measured in steps of the grid
(`Grid.stepsTo`), and rounded to the nearest of them (`Grid.toNat_quantize`).  What the grid keeps of
a coordinate and what it tells apart follows from there.

* `Grid.quantize_dequantize` — the grid numbers are kept.
* `Grid.abs_dequantize_quantize_sub_le` — a coordinate moves by half a step at most.
* `Grid.quantize_resolves` — points with the same key are at most a step apart on each axis, points
  that are farther apart have different keys.
-/

namespace Crossroads

/-! ## Numbers -/

namespace Scalar

theorem round_le_round {x y : ℚ} (h : x ≤ y) : round x ≤ round y := by
  rw [round_eq, round_eq]
  exact Int.floor_le_floor (by linarith)

/-- From zero on, halves away from zero are halves upward. -/
theorem toNat_nearest {x : ℚ} (hlow : 0 ≤ x) (hhigh : x ≤ 4294967295) :
    ((nearest x).toNat : ℤ) = round x := by
  have hdefinition : nearest x = UInt32.ofNat (min 4294967295 ⌊x + 1 / 2⌋.toNat) := rfl
  have hnonneg : 0 ≤ ⌊x + 1 / 2⌋ := Int.floor_nonneg.mpr (by linarith)
  have hword : ⌊x + 1 / 2⌋ < 4294967296 := Int.floor_lt.mpr (by push_cast; linarith)
  have hmin : min 4294967295 ⌊x + 1 / 2⌋.toNat = ⌊x + 1 / 2⌋.toNat := min_eq_right (by omega)
  have hsize : UInt32.size = 4294967296 := rfl
  rw [hdefinition, hmin, UInt32.toNat_ofNat_of_lt' (by omega), round_eq, Int.toNat_of_nonneg hnonneg]

end Scalar

namespace Grid

variable {bits : ℕ}

/-! ## Steps -/

/-- The coordinates on an axis. -/
def axis : Set ℚ := Set.Icc (-180) 180

/-- How many steps of the grid lie before a coordinate, once it is moved onto the axis. -/
def stepsTo (bits : ℕ) (v : ℚ) : ℚ := (max (-180) (min 180 v) + 180) / 360 * top bits

theorem stepsTo_of_mem {v : ℚ} (h : v ∈ axis) : stepsTo bits v = (v + 180) / 360 * top bits := by
  rw [stepsTo, min_eq_right h.2, max_eq_right h.1]

theorem stepsTo_nonneg (v : ℚ) : 0 ≤ stepsTo bits v := by
  have hlow : -180 ≤ max (-180) (min 180 v) := le_max_left _ _
  exact mul_nonneg (div_nonneg (by linarith) (by norm_num)) (Nat.cast_nonneg _)

theorem stepsTo_le_top (v : ℚ) : stepsTo bits v ≤ top bits := by
  have hhigh : max (-180) (min 180 v) ≤ 180 := max_le (by norm_num) (min_le_left _ _)
  exact mul_le_of_le_one_left (Nat.cast_nonneg _) ((div_le_one (by norm_num)).mpr (by linarith))

theorem stepsTo_mono {v w : ℚ} (h : v ≤ w) : stepsTo bits v ≤ stepsTo bits w := by
  have haxis : max (-180) (min 180 v) ≤ max (-180) (min 180 w) :=
    max_le_max (le_refl _) (min_le_min (le_refl _) h)
  exact mul_le_mul_of_nonneg_right
    (div_le_div_of_nonneg_right (by linarith) (by norm_num)) (Nat.cast_nonneg _)

theorem quantize_eq (v : ℚ) : quantize bits v = Scalar.nearest (stepsTo bits v) := by
  have hlow : (0.0 - 180.0 : ℚ) = -180 := by norm_num
  have hhigh : (180.0 : ℚ) = 180 := by norm_num
  have hfull : (360.0 : ℚ) = 360 := by norm_num
  rw [quantize, hlow, hhigh, hfull, Scalar.clamp_eq_max_min (by norm_num), sub_neg_eq_add, stepsTo]
  rfl

theorem dequantize_eq (n : UInt32) :
    (dequantize bits n : ℚ) = n.toNat / top bits * 360 - 180 := by
  have hlow : (0.0 - 180.0 : ℚ) = -180 := by norm_num
  have hfull : (360.0 : ℚ) = 360 := by norm_num
  rw [dequantize, hlow, hfull, sub_eq_add_neg]
  rfl

/-! ## Rounding to a step -/

section

variable (hhigh : bits ≤ 32)

include hhigh

/-- Quantization rounds to the nearest step. -/
theorem toNat_quantize (v : ℚ) : ((quantize bits v).toNat : ℤ) = round (stepsTo bits v) := by
  have htop : (top bits : ℚ) ≤ 4294967295 := by
    exact_mod_cast Nat.le_of_lt_succ (top_lt_size hhigh)
  rw [quantize_eq, Scalar.toNat_nearest (stepsTo_nonneg v) ((stepsTo_le_top v).trans htop)]

theorem toNat_quantize_le_top (v : ℚ) : (quantize bits v).toNat ≤ top bits := by
  have hle : round (stepsTo bits v) ≤ round (top bits : ℚ) := Scalar.round_le_round (stepsTo_le_top v)
  rw [round_natCast, ← toNat_quantize hhigh] at hle
  exact_mod_cast hle

theorem quantize_mono {v w : ℚ} (h : v ≤ w) : quantize bits v ≤ quantize bits w := by
  have hle : round (stepsTo bits v) ≤ round (stepsTo bits w) := Scalar.round_le_round (stepsTo_mono h)
  rw [← toNat_quantize hhigh, ← toNat_quantize hhigh] at hle
  exact UInt32.le_iff_toNat_le.mpr (by exact_mod_cast hle)

variable (hlow : 1 ≤ bits)

include hlow

/-- The grid numbers are kept. -/
theorem quantize_dequantize {n : UInt32} (hn : n.toNat ≤ top bits) :
    quantize bits (dequantize bits n : ℚ) = n := by
  have htop : (0 : ℚ) < top bits := by exact_mod_cast top_pos hlow
  have hpart : (n.toNat : ℚ) / top bits ≤ 1 := (div_le_one htop).mpr (by exact_mod_cast hn)
  have hnonneg : 0 ≤ (n.toNat : ℚ) / top bits := div_nonneg (Nat.cast_nonneg _) htop.le
  have hmem : (dequantize bits n : ℚ) ∈ axis := by
    rw [dequantize_eq]
    exact ⟨by linarith, by linarith⟩
  have hsteps : stepsTo bits (dequantize bits n) = n.toNat := by
    rw [stepsTo_of_mem hmem, dequantize_eq]
    field_simp
    ring
  have hround := toNat_quantize hhigh (dequantize bits n : ℚ)
  rw [hsteps, round_natCast] at hround
  exact UInt32.toNat_inj.mp (by exact_mod_cast hround)

/-- A coordinate on the axis moves by half a step at most. -/
theorem abs_dequantize_quantize_sub_le {v : ℚ} (hv : v ∈ axis) :
    |dequantize bits (quantize bits v) - v| ≤ 180 / top bits := by
  have htop : (0 : ℚ) < top bits := by exact_mod_cast top_pos hlow
  have hstep : (0 : ℚ) < 360 / top bits := div_pos (by norm_num) htop
  -- in steps, the distance is that between a number and its rounding
  have hdistance : dequantize bits (quantize bits v) - v
      = ((quantize bits v).toNat - stepsTo bits v) * (360 / top bits) := by
    rw [dequantize_eq, stepsTo_of_mem hv]
    field_simp
    ring
  have hround : |((quantize bits v).toNat : ℚ) - stepsTo bits v| ≤ 1 / 2 := by
    have hnearest := abs_sub_round (stepsTo bits v)
    rw [← toNat_quantize hhigh, Int.cast_natCast] at hnearest
    rwa [abs_sub_comm]
  calc |dequantize bits (quantize bits v) - v|
      = |((quantize bits v).toNat : ℚ) - stepsTo bits v| * (360 / top bits) := by
        rw [hdistance, abs_mul, abs_of_pos hstep]
    _ ≤ 1 / 2 * (360 / top bits) := mul_le_mul_of_nonneg_right hround hstep.le
    _ = 180 / top bits := by ring

/-- Coordinates with the same grid number are at most a step apart. -/
theorem abs_sub_le_of_quantize_eq {v w : ℚ} (hv : v ∈ axis) (hw : w ∈ axis)
    (h : quantize bits v = quantize bits w) : |v - w| ≤ 360 / top bits := by
  have hleft := abs_dequantize_quantize_sub_le hhigh hlow hv
  have hright := abs_dequantize_quantize_sub_le hhigh hlow hw
  rw [h, abs_sub_comm] at hleft
  calc |v - w| ≤ |v - dequantize bits (quantize bits w)| + |dequantize bits (quantize bits w) - w| :=
        abs_sub_le _ _ _
    _ ≤ 180 / top bits + 180 / top bits := add_le_add hleft hright
    _ = 360 / top bits := by ring

/-- Points with the same key are at most a step apart on each axis. -/
theorem abs_sub_le_of_key_eq {p q : Point ℚ} (hp : p.x ∈ axis ∧ p.y ∈ axis)
    (hq : q.x ∈ axis ∧ q.y ∈ axis) (h : (Cell.ofPoint bits p).key = (Cell.ofPoint bits q).key) :
    |p.x - q.x| ≤ 360 / top bits ∧ |p.y - q.y| ≤ 360 / top bits := by
  have hcells := Cell.key_inj h
  exact ⟨abs_sub_le_of_quantize_eq hhigh hlow hp.1 hq.1 (congrArg Cell.x hcells),
    abs_sub_le_of_quantize_eq hhigh hlow hp.2 hq.2 (congrArg Cell.y hcells)⟩

end

/-! ## What the grid tells apart -/

/-- **The grid keeps coordinates up to half a step.**  At every precision grid numbers lie on the
grid, are in the order of the coordinates, and are kept; a coordinate on the axis moves by half a step
at most.  So points with the same key are at most a step apart on each axis, and points that are
farther apart on one of them have different keys. -/
theorem quantize_resolves {bits : ℕ} (hlow : 1 ≤ bits) (hhigh : bits ≤ 32) :
    (∀ v : ℚ, (quantize bits v).toNat ≤ top bits) ∧
    (∀ v w : ℚ, v ≤ w → quantize bits v ≤ quantize bits w) ∧
    (∀ n : UInt32, n.toNat ≤ top bits → quantize bits (dequantize bits n : ℚ) = n) ∧
    (∀ v ∈ axis, |dequantize bits (quantize bits v) - v| ≤ 180 / top bits) ∧
    (∀ p q : Point ℚ, p.x ∈ axis ∧ p.y ∈ axis → q.x ∈ axis ∧ q.y ∈ axis →
      (Cell.ofPoint bits p).key = (Cell.ofPoint bits q).key →
      |p.x - q.x| ≤ 360 / top bits ∧ |p.y - q.y| ≤ 360 / top bits) ∧
    ∀ p q : Point ℚ, p.x ∈ axis ∧ p.y ∈ axis → q.x ∈ axis ∧ q.y ∈ axis →
      360 / top bits < |p.x - q.x| ∨ 360 / top bits < |p.y - q.y| →
      (Cell.ofPoint bits p).key ≠ (Cell.ofPoint bits q).key := by
  refine ⟨toNat_quantize_le_top hhigh, fun _ _ h => quantize_mono hhigh h,
    fun _ hn => quantize_dequantize hhigh hlow hn,
    fun _ hv => abs_dequantize_quantize_sub_le hhigh hlow hv,
    fun _ _ hp hq h => abs_sub_le_of_key_eq hhigh hlow hp hq h, ?_⟩
  intro p q hp hq hfar hkey
  obtain ⟨hx, hy⟩ := abs_sub_le_of_key_eq hhigh hlow hp hq hkey
  rcases hfar with hfar | hfar
  · exact absurd hx (not_le.mpr hfar)
  · exact absurd hy (not_le.mpr hfar)

/-- The finest grid on the equator: its highest number is kept, a nanodegree may be lost, and a
microdegree is not. -/
theorem finest_grid :
    (0xFFFFFFFF : UInt32).toNat ≤ top 32 ∧ (0 : ℚ) ∈ axis ∧ (179.9999999 : ℚ) ∈ axis ∧
    quantize 32 (dequantize 32 0xFFFFFFFF : ℚ) = 0xFFFFFFFF ∧
    quantize 32 (179.9999999 : ℚ) ≤ quantize 32 (200 : ℚ) ∧
    |(dequantize 32 (quantize 32 (179.9999999 : ℚ)) : ℚ) - 179.9999999| ≤ 180 / 4294967295 ∧
    (Cell.ofPoint 32 (⟨0, 0⟩ : Point ℚ)).key = (Cell.ofPoint 32 (⟨1e-9, 0⟩ : Point ℚ)).key ∧
    |(0 : ℚ) - 1e-9| ≤ 360 / 4294967295 ∧
    (Cell.ofPoint 32 (⟨0, 0⟩ : Point ℚ)).key ≠ (Cell.ofPoint 32 (⟨1e-6, 0⟩ : Point ℚ)).key := by
  have htop : (top 32 : ℚ) = 4294967295 := rfl
  have hmax : (0xFFFFFFFF : UInt32).toNat ≤ top 32 := by decide
  have hzero : (0 : ℚ) ∈ axis := ⟨by norm_num, by norm_num⟩
  have heast : (179.9999999 : ℚ) ∈ axis := ⟨by norm_num, by norm_num⟩
  have hnano : (1e-9 : ℚ) ∈ axis := ⟨by norm_num, by norm_num⟩
  have hmicro : (1e-6 : ℚ) ∈ axis := ⟨by norm_num, by norm_num⟩
  have hkey : (Cell.ofPoint 32 (⟨0, 0⟩ : Point ℚ)).key
      = (Cell.ofPoint 32 (⟨1e-9, 0⟩ : Point ℚ)).key := by decide +kernel
  obtain ⟨-, hmono, hkept, hnear, hsame, hfar⟩ :=
    quantize_resolves (show 1 ≤ 32 by decide) (by decide)
  rw [htop] at hnear hsame hfar
  exact ⟨hmax, hzero, heast, hkept _ hmax, hmono _ _ (by norm_num), hnear _ heast, hkey,
    (hsame _ _ ⟨hzero, hzero⟩ ⟨hnano, hzero⟩ hkey).1,
    hfar _ _ ⟨hzero, hzero⟩ ⟨hmicro, hzero⟩ (.inl (by norm_num [abs_of_neg]))⟩

end Grid

end Crossroads

import Crossroads.Coordinate
import Crossroads.Proofs.Rounding
import Mathlib.Algebra.Order.Ring.Int
import Mathlib.Data.Prod.Lex

/-!
# Coordinates as numbers

A coordinate is compared and computed with as the number it stands for (`Coordinate.unpacked`), so
that what holds of numbers holds of coordinates:

* `Coordinate.atMost_step` — a step keeps to every bound that its operation keeps to.
* `Coordinate.magnitude_sub_lt_comm` — two coordinates are as far from each other both ways.
* `Coordinate.lt_iff_place`, `Coordinate.le_iff_place` — numbers are in one line.
-/

namespace Crossroads

open Float.Model (Format UnpackedFloat)
open Float.Model.UnpackedFloat (unpackExponent unpackMantissa)
open Rounding (AtMost)

namespace Coordinate

/-! ## Coordinates as numbers -/

/-- What a coordinate stands for, apart from the bits of what is no number. -/
def unpacked (c : Coordinate) : UnpackedFloat := c.toFloat.toModel.unpack

theorem toFloat_ofFloat (x : Float) : (ofFloat x).toFloat = x := Float.ofBits_toBits x

theorem unpacked_ofFloat (x : Float) : (ofFloat x).unpacked = x.toModel.unpack := by
  rw [unpacked, toFloat_ofFloat]

theorem unpacked_eq (c : Coordinate) : c.unpacked = UnpackedFloat.unpack .binary64
    (UnpackedFloat.pack .binary64 (UnpackedFloat.unpack .binary64 c.bits.toBitVec)) := rfl

theorem lt_iff (a b : Coordinate) : a < b ↔ a.unpacked.compare b.unpacked = some .lt := by
  show decide (a.toFloat.toModel < b.toFloat.toModel) = true ↔ _
  rw [decide_eq_true_iff]
  show (a.unpacked.compare b.unpacked == some .lt) = true ↔ _
  rw [beq_iff_eq]

theorem le_iff (a b : Coordinate) :
    a ≤ b ↔ (a.unpacked.compare b.unpacked).any (·.isLE) = true := by
  show decide (a.toFloat.toModel ≤ b.toFloat.toModel) = true ↔ _
  rw [decide_eq_true_iff]
  rfl

theorem ofFloat_lt_ofFloat (x y : Float) : ofFloat x < ofFloat y ↔ x < y := by
  show (ofFloat x).toFloat < (ofFloat y).toFloat ↔ _
  rw [toFloat_ofFloat, toFloat_ofFloat]

theorem ofFloat_le_ofFloat (x y : Float) : ofFloat x ≤ ofFloat y ↔ x ≤ y := by
  show (ofFloat x).toFloat ≤ (ofFloat y).toFloat ↔ _
  rw [toFloat_ofFloat, toFloat_ofFloat]

/-! ## What is no number -/

section Fields

variable (b c : BitVec Format.binary64.numBits)

theorem unpackExponent_or : unpackExponent (b ||| c) = unpackExponent b ||| unpackExponent c := by
  ext i hi
  simp [unpackExponent]

theorem unpackMantissa_or : unpackMantissa (b ||| c) = unpackMantissa b ||| unpackMantissa c := by
  ext i hi
  simp [unpackMantissa]

theorem toNat_unpackExponent : (unpackExponent b).toNat = b.toNat / 2 ^ 52 % 2 ^ 11 := by
  rw [← Nat.shiftRight_eq_div_pow]
  simp [unpackExponent]

theorem toNat_unpackMantissa : (unpackMantissa b).toNat = b.toNat % 2 ^ 52 := by
  simp [unpackMantissa]

end Fields

theorem lt_of_isNaN {c : Coordinate} (h : c.isNaN = true) :
    2047 * 2 ^ 52 < c.bits.toNat % 2 ^ 63 := by
  unfold isNaN at h
  rw [decide_eq_true_iff, UInt64.lt_iff_toNat_lt, UInt64.toNat_and] at h
  have hmask : c.bits.toNat &&& UInt64.toNat 0x7FFFFFFFFFFFFFFF = c.bits.toNat % 2 ^ 63 :=
    Nat.and_two_pow_sub_one_eq_mod _ 63
  rwa [hmask] at h

theorem unpackExponent_of_isNaN {c : Coordinate} (h : c.isNaN = true) :
    unpackExponent (show BitVec Format.binary64.numBits from c.bits.toBitVec) = -1#11 := by
  have hlow := lt_of_isNaN h
  apply BitVec.eq_of_toNat_eq
  rw [toNat_unpackExponent]
  show c.bits.toNat / 2 ^ 52 % 2 ^ 11 = 2047
  omega

theorem unpackMantissa_of_isNaN {c : Coordinate} (h : c.isNaN = true) :
    unpackMantissa (show BitVec Format.binary64.numBits from c.bits.toBitVec) ≠ 0#52 := by
  intro hzero
  have hfraction : c.bits.toNat % 2 ^ 52 = 0 :=
    (toNat_unpackMantissa c.bits.toBitVec).symm.trans (congrArg BitVec.toNat hzero)
  have hlow := lt_of_isNaN h
  omega

/-- What is no number bit by bit is none. -/
theorem unpacked_of_fields {c : Coordinate}
    (hexponent : unpackExponent (show BitVec Format.binary64.numBits from c.bits.toBitVec) = -1#11)
    (hmantissa : unpackMantissa (show BitVec Format.binary64.numBits from c.bits.toBitVec) ≠ 0#52) :
    c.unpacked = .notANumber := by
  have hnone : UnpackedFloat.unpack .binary64 c.bits.toBitVec = .notANumber := by
    unfold UnpackedFloat.unpack
    simp only []
    rw [if_pos hexponent, if_neg hmantissa]
  rw [unpacked_eq, hnone]
  rfl

theorem unpacked_of_isNaN {c : Coordinate} (h : c.isNaN = true) : c.unpacked = .notANumber :=
  unpacked_of_fields (unpackExponent_of_isNaN h) (unpackMantissa_of_isNaN h)

/-- A step hands on no number where it was given none. -/
theorem unpacked_quiet {c : Coordinate} (h : c.isNaN = true) : c.quiet.unpacked = .notANumber := by
  apply unpacked_of_fields
  · show unpackExponent ((show BitVec Format.binary64.numBits from c.bits.toBitVec)
      ||| (0x0008000000000000 : UInt64).toBitVec) = -1#11
    rw [unpackExponent_or, unpackExponent_of_isNaN h]
    rfl
  · show unpackMantissa ((show BitVec Format.binary64.numBits from c.bits.toBitVec)
      ||| (0x0008000000000000 : UInt64).toBitVec) ≠ 0#52
    rw [unpackMantissa_or]
    intro hzero
    exact absurd (BitVec.or_eq_zero_iff.mp hzero).2 (by decide)

theorem unpacked_undefined : undefined.unpacked = .notANumber := rfl

/-- A step on numbers gives what its operation gives. -/
theorem unpacked_step {f : Float → Float → Float} {a b : Coordinate} (ha : a.isNaN = false)
    (hb : b.isNaN = false) : (step f a b).unpacked = (f a.toFloat b.toFloat).toModel.unpack := by
  unfold step
  rw [if_neg (by rw [ha]; exact Bool.false_ne_true), if_neg (by rw [hb]; exact Bool.false_ne_true)]
  simp only []
  split
  · rename_i hnone
    have hresult : (f a.toFloat b.toFloat).toModel.unpack = .notANumber :=
      UnpackedFloat.isNaN_iff.mp hnone
    rw [unpacked_undefined, hresult]
  · exact unpacked_ofFloat _

/-- A step on what is no number gives none. -/
theorem unpacked_step_of_isNaN {f : Float → Float → Float} {a b : Coordinate}
    (h : a.isNaN = true ∨ b.isNaN = true) : (step f a b).unpacked = .notANumber := by
  unfold step
  split
  · rename_i ha
    exact unpacked_quiet ha
  · rename_i ha
    rcases h with ha' | hb
    · exact absurd ha' ha
    · rw [if_pos hb]
      exact unpacked_quiet hb

/-- A step keeps to every bound that its operation keeps to. -/
theorem atMost_step {bound : Nat} {f : Float → Float → Float} {a b : Coordinate}
    (h : AtMost bound (f a.toFloat b.toFloat).toModel.unpack) :
    AtMost bound (step f a b).unpacked := by
  cases ha : a.isNaN with
  | true =>
    rw [unpacked_step_of_isNaN (.inl ha)]
    trivial
  | false =>
    cases hb : b.isNaN with
    | true =>
      rw [unpacked_step_of_isNaN (.inr hb)]
      trivial
    | false => rwa [unpacked_step ha hb]

/-! ## Sizes -/

theorem abs_roundWithAccuracy (s : UnpackedFloat.Sign) (m : Nat) (e : Int)
    (accuracy : UnpackedFloat.Accuracy) :
    (UnpackedFloat.roundWithAccuracy .binary64 s m e accuracy).abs
      = (UnpackedFloat.roundWithAccuracy .binary64 .positive m e accuracy).abs := by
  unfold UnpackedFloat.roundWithAccuracy
  simp only []
  split <;> rfl

theorem abs_normalize_neg (m : Int) (e : Int) (s : UnpackedFloat.Sign) :
    (UnpackedFloat.normalize .binary64 (-m) e s).abs
      = (UnpackedFloat.normalize .binary64 m e s).abs := by
  unfold UnpackedFloat.normalize
  rcases Int.lt_trichotomy m 0 with hneg | rfl | hpos
  · rw [Int.compare_eq_lt.mpr hneg, Int.compare_eq_gt.mpr (by omega)]
    exact (abs_roundWithAccuracy .negative _ _ _).symm
  · rfl
  · rw [Int.compare_eq_gt.mpr hpos, Int.compare_eq_lt.mpr (by omega), Int.neg_neg]
    exact abs_roundWithAccuracy .negative _ _ _

/-- A difference has the same size both ways. -/
theorem abs_sub_comm (u v : UnpackedFloat) :
    (UnpackedFloat.sub .binary64 u v).abs = (UnpackedFloat.sub .binary64 v u).abs := by
  match u, v with
  | .notANumber, .notANumber => rfl
  | .notANumber, .infinity _ => rfl
  | .notANumber, .zero _ => rfl
  | .notANumber, .finite _ _ _ _ => rfl
  | .infinity _, .notANumber => rfl
  | .infinity s, .infinity t => cases s <;> cases t <;> rfl
  | .infinity _, .zero _ => rfl
  | .infinity _, .finite _ _ _ _ => rfl
  | .zero _, .notANumber => rfl
  | .zero _, .infinity _ => rfl
  | .zero s, .zero t => cases s <;> cases t <;> rfl
  | .zero _, .finite _ _ _ _ => rfl
  | .finite _ _ _ _, .notANumber => rfl
  | .finite _ _ _ _, .infinity _ => rfl
  | .finite _ _ _ _, .zero _ => rfl
  | .finite s m e _, .finite t n f _ =>
    show (UnpackedFloat.normalize _ (_ - _) (min e f) _).abs
      = (UnpackedFloat.normalize _ (_ - _) (min f e) _).abs
    rw [Int.min_comm f e, ← abs_normalize_neg, Int.neg_sub]

theorem abs_unpack_packComponents (s : UnpackedFloat.Sign) (e : BitVec 11) (m : BitVec 52) :
    (UnpackedFloat.unpack .binary64 (UnpackedFloat.packComponents .binary64 s e m)).abs
      = UnpackedFloat.unpack .binary64 (UnpackedFloat.packComponents .binary64 .positive e m) := by
  unfold UnpackedFloat.unpack
  simp only [UnpackedFloat.unpackMantissa_packComponents,
    UnpackedFloat.unpackExponent_packComponents, UnpackedFloat.unpackSign_packComponents,
    UnpackedFloat.Sign.ofBitVec_toBitVec]
  split
  · split <;> rfl
  · split
    · split <;> rfl
    · rfl

/-- The bits after the sign do not depend on it. -/
theorem exists_pack_finite (m : Nat) (e : Int) (hm : 0 < m) : ∃ (field : BitVec 11)
    (fraction : BitVec 52), ∀ s, UnpackedFloat.pack .binary64 (.finite s m e hm)
      = UnpackedFloat.packComponents .binary64 s field fraction := by
  unfold UnpackedFloat.pack
  simp only []
  split
  · exact ⟨_, _, fun _ => rfl⟩
  · split <;> exact ⟨_, _, fun _ => rfl⟩

/-- Storing a number and dropping its sign can be done in any order. -/
theorem abs_unpack_pack (u : UnpackedFloat) :
    (UnpackedFloat.unpack .binary64 (UnpackedFloat.pack .binary64 u)).abs
      = UnpackedFloat.unpack .binary64 (UnpackedFloat.pack .binary64 u.abs) := by
  cases u with
  | notANumber => rfl
  | infinity s => exact abs_unpack_packComponents s _ _
  | zero s => exact abs_unpack_packComponents s _ _
  | finite s m e hm =>
    obtain ⟨field, fraction, hpack⟩ := exists_pack_finite m e hm
    show _ = UnpackedFloat.unpack .binary64 (UnpackedFloat.pack .binary64 (.finite .positive m e hm))
    rw [hpack, hpack]
    exact abs_unpack_packComponents s field fraction

/-- What a coordinate stands for is stored as it is. -/
theorem unpack_pack_unpacked (c : Coordinate) :
    UnpackedFloat.unpack .binary64 (UnpackedFloat.pack .binary64 c.unpacked) = c.unpacked := by
  have hback : UnpackedFloat.pack .binary64 c.unpacked = c.toFloat.toModel.toBits.toBitVec :=
    UnpackedFloat.pack_unpack_of_valid c.toFloat.toModel.valid
  rw [hback]
  rfl

theorem compare_zero (s t : UnpackedFloat.Sign) (u : UnpackedFloat) :
    (UnpackedFloat.zero s).compare u = (UnpackedFloat.zero t).compare u := by
  match u with
  | .notANumber => rfl
  | .infinity .positive => rfl
  | .infinity .negative => rfl
  | .zero _ => rfl
  | .finite .positive _ _ _ => rfl
  | .finite .negative _ _ _ => rfl

/-- Taken from zero, a number below zero has its size. -/
theorem unpacked_zero_sub {c : Coordinate} (hneg : c < 0.0) :
    (0.0 - c).unpacked = c.unpacked.abs := by
  have hzero : (0.0 : Coordinate).unpacked = .zero .positive := rfl
  rw [lt_iff, hzero] at hneg
  have hnumber : c.isNaN = false := by
    cases hc : c.isNaN with
    | false => rfl
    | true =>
      rw [unpacked_of_isNaN hc] at hneg
      cases hneg
  show (step (· - ·) 0.0 c).unpacked = _
  rw [unpacked_step rfl hnumber]
  show UnpackedFloat.unpack .binary64 (UnpackedFloat.pack .binary64
    (UnpackedFloat.sub .binary64 (0.0 : Coordinate).unpacked c.unpacked)) = _
  rw [hzero, ← unpack_pack_unpacked c, abs_unpack_pack, unpack_pack_unpacked]
  congr 2
  cases hc : c.unpacked with
  | notANumber => rfl
  | infinity s =>
    cases s with
    | negative => rfl
    | positive =>
      rw [hc] at hneg
      cases hneg
  | zero s =>
    rw [hc] at hneg
    cases hneg
  | finite s m e hm =>
    cases s with
    | negative => rfl
    | positive =>
      rw [hc] at hneg
      cases hneg

/-- Sizes are compared without signs. -/
theorem magnitude_lt_iff (c eps : Coordinate) :
    Scalar.magnitude c < eps ↔ c.unpacked.abs.compare eps.unpacked = some .lt := by
  unfold Scalar.magnitude
  split
  · rename_i hneg
    rw [lt_iff, unpacked_zero_sub hneg]
  · rename_i hneg
    have hzero : (0.0 : Coordinate).unpacked = .zero .positive := rfl
    rw [lt_iff, hzero] at hneg
    rw [lt_iff]
    cases hc : c.unpacked with
    | notANumber => rfl
    | infinity s =>
      cases s with
      | positive => rfl
      | negative =>
        rw [hc] at hneg
        exact absurd rfl hneg
    | zero s => rw [compare_zero s .positive]; rfl
    | finite s m e hm =>
      cases s with
      | positive => rfl
      | negative =>
        rw [hc] at hneg
        exact absurd rfl hneg

/-- The difference of two coordinates has the same size both ways. -/
theorem abs_unpacked_sub_comm (a b : Coordinate) :
    (a - b).unpacked.abs = (b - a).unpacked.abs := by
  show (step (· - ·) a b).unpacked.abs = (step (· - ·) b a).unpacked.abs
  by_cases hnone : a.isNaN = true ∨ b.isNaN = true
  · rw [unpacked_step_of_isNaN hnone, unpacked_step_of_isNaN hnone.symm]
  · simp only [not_or, Bool.not_eq_true] at hnone
    rw [unpacked_step hnone.1 hnone.2, unpacked_step hnone.2 hnone.1]
    show (UnpackedFloat.unpack .binary64 (UnpackedFloat.pack .binary64
        (UnpackedFloat.sub .binary64 a.unpacked b.unpacked))).abs
      = (UnpackedFloat.unpack .binary64 (UnpackedFloat.pack .binary64
        (UnpackedFloat.sub .binary64 b.unpacked a.unpacked))).abs
    rw [abs_unpack_pack, abs_unpack_pack, abs_sub_comm]

/-- Two coordinates are as far from each other both ways. -/
theorem magnitude_sub_lt_comm (a b eps : Coordinate) :
    Scalar.magnitude (a - b) < eps ↔ Scalar.magnitude (b - a) < eps := by
  rw [magnitude_lt_iff, magnitude_lt_iff, abs_unpacked_sub_comm]

/-! ## Numbers in a line -/

/-- The place of a number: those of one sign are in order of exponent and mantissa. -/
def placeOf : UnpackedFloat → ℤ ×ₗ ℤ ×ₗ ℤ
  | .infinity .negative => toLex (-2, toLex (0, 0))
  | .finite .negative m e _ => toLex (-1, toLex (-e, -m))
  | .zero _ => toLex (0, toLex (0, 0))
  | .finite .positive m e _ => toLex (1, toLex (e, m))
  | .infinity .positive => toLex (2, toLex (0, 0))
  | .notANumber => toLex (0, toLex (0, 0))

/-- The place of a coordinate among numbers. -/
def place (c : Coordinate) : ℤ ×ₗ ℤ ×ₗ ℤ := placeOf c.unpacked

theorem compare_natCast (m n : ℕ) : compare (m : ℤ) n = compare m n := by
  rcases lt_trichotomy m n with h | h | h
  · rw [compare_lt_iff_lt.mpr h, compare_lt_iff_lt.mpr (Int.ofNat_lt.mpr h)]
  · rw [compare_eq_iff_eq.mpr h, compare_eq_iff_eq.mpr (congrArg Nat.cast h)]
  · rw [compare_gt_iff_gt.mpr h, compare_gt_iff_gt.mpr (Int.ofNat_lt.mpr h)]

theorem compare_neg (e f : ℤ) : compare (-e) (-f) = (compare e f).swap := by
  rw [Int.compare_swap]
  rcases lt_trichotomy f e with h | h | h
  · rw [compare_lt_iff_lt.mpr h, compare_lt_iff_lt.mpr (Int.neg_lt_neg h)]
  · rw [compare_eq_iff_eq.mpr h, compare_eq_iff_eq.mpr (by rw [h])]
  · rw [compare_gt_iff_gt.mpr h, compare_gt_iff_gt.mpr (Int.neg_lt_neg h)]

/-- Numbers compare like their places. -/
theorem compare_eq {u v : UnpackedFloat} (hu : u ≠ .notANumber) (hv : v ≠ .notANumber) :
    u.compare v = some (compare (placeOf u) (placeOf v)) := by
  match u, v with
  | .notANumber, _ => exact absurd rfl hu
  | _, .notANumber => exact absurd rfl hv
  | .infinity s, .infinity t => cases s <;> cases t <;> rfl
  | .infinity s, .zero _ => cases s <;> rfl
  | .infinity s, .finite t _ _ _ => cases s <;> cases t <;> rfl
  | .zero _, .infinity s => cases s <;> rfl
  | .zero _, .zero _ => rfl
  | .zero _, .finite s _ _ _ => cases s <;> rfl
  | .finite s _ _ _, .infinity t => cases s <;> cases t <;> rfl
  | .finite s _ _ _, .zero _ => cases s <;> rfl
  | .finite .positive _ _ _, .finite .negative _ _ _ => rfl
  | .finite .negative _ _ _, .finite .positive _ _ _ => rfl
  | .finite .positive m e _, .finite .positive n f _ =>
    show some ((compare e f).then (compare m n)) = some ((compare e f).then (compare (m : ℤ) n))
    rw [compare_natCast]
  | .finite .negative m e _, .finite .negative n f _ =>
    show some ((compare e f).then (compare m n)).swap
      = some ((compare (-e) (-f)).then (compare (-(m : ℤ)) (-n)))
    rw [compare_neg, compare_neg, compare_natCast, Ordering.swap_then]

theorem compare_of_notANumber {u v : UnpackedFloat} (h : u = .notANumber ∨ v = .notANumber) :
    u.compare v = none := by
  rcases h with rfl | rfl
  · rfl
  · cases u <;> rfl

/-- Coordinates are equal just if they are numbers with the same place. -/
theorem beq_iff (a b : Coordinate) : (a == b) = true
    ↔ (a.unpacked ≠ .notANumber ∧ b.unpacked ≠ .notANumber) ∧ a.place = b.place := by
  show (a.unpacked.compare b.unpacked == some .eq) = true ↔ _
  rw [beq_iff_eq]
  by_cases h : a.unpacked = .notANumber ∨ b.unpacked = .notANumber
  · rw [compare_of_notANumber h]
    exact iff_of_false nofun fun hboth => h.elim hboth.1.1 hboth.1.2
  · obtain ⟨ha, hb⟩ := not_or.mp h
    rw [compare_eq ha hb, Option.some_inj, compare_eq_iff_eq]
    exact (and_iff_right ⟨ha, hb⟩).symm

/-- Just numbers are equal to themselves. -/
theorem beq_self_iff (c : Coordinate) : (c == c) = true ↔ c.unpacked ≠ .notANumber := by
  rw [beq_iff, and_self, eq_self, and_true]

instance : PartialEquivBEq Coordinate where
  symm {a b} h := by
    rw [beq_iff] at h ⊢
    exact ⟨h.1.symm, h.2.symm⟩
  trans {a b c} hab hbc := by
    rw [beq_iff] at hab hbc ⊢
    exact ⟨⟨hab.1.1, hbc.1.2⟩, hab.2.trans hbc.2⟩

section

variable {a b : Coordinate} (ha : (a == a) = true) (hb : (b == b) = true)

include ha hb

theorem lt_iff_place : a < b ↔ a.place < b.place := by
  rw [lt_iff, compare_eq ((beq_self_iff a).mp ha) ((beq_self_iff b).mp hb), Option.some_inj,
    compare_lt_iff_lt]
  rfl

theorem le_iff_place : a ≤ b ↔ a.place ≤ b.place := by
  rw [le_iff, compare_eq ((beq_self_iff a).mp ha) ((beq_self_iff b).mp hb), Option.any_some,
    ← Ordering.ne_gt_iff_isLE]
  exact compare_le_iff_le

end

section

variable {a b c : Coordinate}

/-- Just numbers are in order. -/
theorem beq_self_of_le (h : a ≤ b) : (a == a) = true ∧ (b == b) = true := by
  rw [le_iff] at h
  rw [beq_self_iff, beq_self_iff]
  constructor
  · intro hnone
    rw [hnone] at h
    cases h
  · intro hnone
    rw [hnone] at h
    generalize a.unpacked = u at h
    cases u <;> cases h

protected theorem le_of_lt (h : a < b) : a ≤ b := by
  rw [lt_iff] at h
  rw [le_iff, h]
  rfl

protected theorem le_trans (hab : a ≤ b) (hbc : b ≤ c) : a ≤ c := by
  obtain ⟨ha, hb⟩ := beq_self_of_le hab
  have hc := (beq_self_of_le hbc).2
  rw [le_iff_place ha hb] at hab
  rw [le_iff_place hb hc] at hbc
  rw [le_iff_place ha hc]
  exact hab.trans hbc

end

end Coordinate

end Crossroads

import Crossroads.Overlay.Stretch
import Crossroads.Proofs.Grid

/-!
# Distances that are numbers

A number `Fits` a bound if its size is within it.  Sums, differences and products of numbers fit the
bounds that follow from theirs, so that nothing overflows, and no step of planar geometry leads from
points of a moderate size to what is no number.

* `Stretch.isMeasuredFrom_of_moderate` — the distance between a stretch and a point is a number.
-/

namespace Crossroads

open Float.Model (UnpackedFloat)

namespace Rounding

open Float.Model Float.Model.UnpackedFloat

/-- The number is one, and its size is within a bound. -/
def Fits (bound : ℕ) (u : UnpackedFloat) : Prop := u ≠ .notANumber ∧ AtMost bound u.abs

variable {a b : ℕ} {u v : UnpackedFloat}

theorem AtMost.abs (h : AtMost a u) : AtMost a u.abs := by
  match u, h with
  | .notANumber, _ => trivial
  | .zero _, _ => trivial
  | .finite .positive _ _ _, h => exact h

theorem Fits.mono (h : Fits a u) (hle : a ≤ b) : Fits b u := by
  refine ⟨h.1, ?_⟩
  match u, h with
  | .notANumber, h => exact absurd rfl h.1
  | .zero _, _ => trivial
  | .finite _ m e _, h =>
    obtain ⟨k, he, hm⟩ := h.2
    exact ⟨k, he, hm.trans (Nat.mul_le_mul_right _ hle)⟩

/-! ## Rounding gives numbers -/

theorem roundWithAccuracy_ne (s : Sign) (m : ℕ) (e : ℤ) (accuracy : Accuracy) :
    roundWithAccuracy .binary64 s m e accuracy ≠ .notANumber := by
  unfold roundWithAccuracy
  simp only []
  split <;> nofun

theorem normalize_ne (m e : ℤ) (s : Sign) : UnpackedFloat.normalize .binary64 m e s ≠ .notANumber := by
  unfold UnpackedFloat.normalize
  split
  · exact roundWithAccuracy_ne _ _ _ _
  · nofun
  · exact roundWithAccuracy_ne _ _ _ _

theorem fits_normalize {bound k : ℕ} {m : ℤ} (hbound : bound < 2 ^ 53)
    (h : m.natAbs ≤ bound * 2 ^ k) (s : Sign) :
    Fits bound (UnpackedFloat.normalize .binary64 m (-(k : ℤ)) s) := by
  refine ⟨normalize_ne _ _ _, ?_⟩
  rcases le_total 0 m with hpos | hneg
  · exact (atMost_normalize hbound hpos (by omega) s).abs
  · rw [← Coordinate.abs_normalize_neg]
    exact (atMost_normalize hbound (by omega) (by omega) s).abs

/-! ## Steps of arithmetic -/

theorem natAbs_apply (s : Sign) (m : ℕ) : (s.apply (m : ℤ)).natAbs = m := by
  cases s
  · exact (Int.natAbs_neg _).trans (Int.natAbs_natCast m)
  · exact Int.natAbs_natCast m

/-- Two mantissas that are shifted to a common exponent. -/
theorem exists_aligned {m n : ℕ} {e f : ℤ} (hm : ∃ k : ℕ, e = -(k : ℤ) ∧ m ≤ a * 2 ^ k)
    (hn : ∃ l : ℕ, f = -(l : ℤ) ∧ n ≤ b * 2 ^ l) : ∃ j : ℕ, min e f = -(j : ℤ)
      ∧ m <<< (e - min e f).toNat ≤ a * 2 ^ j ∧ n <<< (f - min e f).toNat ≤ b * 2 ^ j := by
  obtain ⟨k, rfl, hm⟩ := hm
  obtain ⟨l, rfl, hn⟩ := hn
  obtain ⟨j, c, d, hmin, hkc, hld⟩ := exists_common k l
  have hc : (-(k : ℤ) - -(j : ℤ)).toNat = c := by omega
  have hd : (-(l : ℤ) - -(j : ℤ)).toNat = d := by omega
  refine ⟨j, hmin, ?_, ?_⟩
  · rw [hmin, hc, Nat.shiftLeft_eq, ← hkc, Nat.pow_add, ← Nat.mul_assoc]
    exact Nat.mul_le_mul_right _ hm
  · rw [hmin, hd, Nat.shiftLeft_eq, ← hld, Nat.pow_add, ← Nat.mul_assoc]
    exact Nat.mul_le_mul_right _ hn

theorem Fits.add (hu : Fits a u) (hv : Fits b v) (h : a + b < 2 ^ 53) :
    Fits (a + b) (UnpackedFloat.add .binary64 u v) := by
  match u, v, hu, hv with
  | .notANumber, _, hu, _ => exact absurd rfl hu.1
  | _, .notANumber, _, hv => exact absurd rfl hv.1
  | .zero s, .zero t, _, _ =>
    show Fits _ (if _ then _ else _)
    split <;> exact ⟨nofun, trivial⟩
  | .zero _, .finite _ _ _ _, _, hv => exact hv.mono (Nat.le_add_left b a)
  | .finite _ _ _ _, .zero _, hu, _ => exact hu.mono (Nat.le_add_right a b)
  | .finite s m e _, .finite t n f _, hu, hv =>
    obtain ⟨j, hmin, hm, hn⟩ := exists_aligned hu.2 hv.2
    show Fits _ (UnpackedFloat.normalize _ (s.apply ↑(m <<< (e - min e f).toNat)
      + t.apply ↑(n <<< (f - min e f).toNat)) (min e f) _)
    rw [hmin] at hm hn ⊢
    refine fits_normalize h ((Int.natAbs_add_le _ _).trans ?_) _
    rw [natAbs_apply, natAbs_apply, Nat.add_mul]
    exact Nat.add_le_add hm hn

theorem apply_neg (s : Sign) (m : ℤ) : (-s).apply m = -s.apply m := by
  cases s
  · exact (Int.neg_neg m).symm
  · rfl

/-- A difference is the sum with the number of the other sign. -/
theorem sub_eq_add_neg (u v : UnpackedFloat) :
    UnpackedFloat.sub .binary64 u v = UnpackedFloat.add .binary64 u v.neg := by
  cases u <;> cases v
  case finite.finite s m e _ t n f _ =>
    show UnpackedFloat.normalize _ (s.apply _ - t.apply _) _ _
      = UnpackedFloat.normalize _ (s.apply _ + (-t).apply _) _ _
    rw [apply_neg, Int.sub_eq_add_neg]
  all_goals rfl

theorem Fits.neg (h : Fits a u) : Fits a u.neg := by
  match u, h with
  | .notANumber, h => exact absurd rfl h.1
  | .infinity _, h => exact h.2.elim
  | .zero _, _ => exact ⟨nofun, trivial⟩
  | .finite _ _ _ _, h => exact ⟨nofun, h.2⟩

theorem Fits.sub (hu : Fits a u) (hv : Fits b v) (h : a + b < 2 ^ 53) :
    Fits (a + b) (UnpackedFloat.sub .binary64 u v) := by
  rw [sub_eq_add_neg]
  exact hu.add hv.neg h

theorem Fits.mul (hu : Fits a u) (hv : Fits b v) (h : a * b < 2 ^ 53) :
    Fits (a * b) (UnpackedFloat.mul .binary64 u v) := by
  match u, v, hu, hv with
  | .notANumber, _, hu, _ => exact absurd rfl hu.1
  | _, .notANumber, _, hv => exact absurd rfl hv.1
  | .zero _, .zero _, _, _ => exact ⟨nofun, trivial⟩
  | .zero _, .finite _ _ _ _, _, _ => exact ⟨nofun, trivial⟩
  | .finite _ _ _ _, .zero _, _, _ => exact ⟨nofun, trivial⟩
  | .finite s m e hm, .finite t n f hn, hu, hv =>
    refine ⟨roundWithAccuracy_ne _ _ _ _, ?_⟩
    have hpositive : AtMost (a * b) (UnpackedFloat.mul .binary64 (.finite .positive m e hm)
      (.finite .positive n f hn)) := AtMost.mul hu.2 hv.2 h
    show AtMost _ (roundWithAccuracy .binary64 (s * t) _ _ _).abs
    rw [Coordinate.abs_roundWithAccuracy]
    exact hpositive.abs

/-- A quotient is a number unless the divisor is zero. -/
theorem Fits.div_ne (hu : Fits a u) (hv : Fits b v) (hzero : ∀ s, v ≠ .zero s) :
    UnpackedFloat.div .binary64 u v ≠ .notANumber := by
  match u, v, hu, hv with
  | .notANumber, _, hu, _ => exact absurd rfl hu.1
  | _, .notANumber, _, hv => exact absurd rfl hv.1
  | _, .zero s, _, _ => exact absurd rfl (hzero s)
  | .zero _, .finite _ _ _ _, _, _ => nofun
  | .finite _ _ _ _, .finite _ _ _ _, _, _ => exact roundWithAccuracy_ne _ _ _ _

/-! ## Storing a number -/

theorem unpack_packComponents_ne (s : Sign) {e : BitVec 11} (m : BitVec 52) (he : e ≠ -1#11) :
    UnpackedFloat.unpack .binary64 (packComponents .binary64 s e m) ≠ .notANumber := by
  unfold UnpackedFloat.unpack
  simp only [unpackMantissa_packComponents, unpackExponent_packComponents,
    unpackSign_packComponents, Sign.ofBitVec_toBitVec]
  rw [if_neg he]
  split
  · split <;> nofun
  · nofun

/-- What is stored of a number is a number, if not always a finite one. -/
theorem unpack_pack_ne (h : u ≠ .notANumber) :
    UnpackedFloat.unpack .binary64 (UnpackedFloat.pack .binary64 u) ≠ .notANumber := by
  cases u with
  | notANumber => exact absurd rfl h
  | infinity s => cases s <;> nofun
  | zero s => cases s <;> nofun
  | finite s m e hm =>
    unfold UnpackedFloat.pack
    simp only []
    generalize (e + (Format.binary64.exponentBias : ℤ)
      + (Format.binary64.mantissaBitsWithoutImplicit : ℤ)).toNat = biased
    split
    · cases s <;> nofun
    · rename_i hsmall
      have hlt : biased + 1 < 2048 := Nat.not_le.mp hsmall
      split
      · refine unpack_packComponents_ne _ _ fun heq => ?_
        have hones : biased % 2048 = 2047 :=
          (BitVec.toNat_ofNat biased 11).symm.trans (congrArg BitVec.toNat heq)
        omega
      · exact unpack_packComponents_ne _ _ (by decide)

theorem Fits.unpack_pack (h : Fits a u) (hpos : 0 < a) :
    Fits a (UnpackedFloat.unpack .binary64 (UnpackedFloat.pack .binary64 u)) := by
  refine ⟨unpack_pack_ne h.1, ?_⟩
  rw [Coordinate.abs_unpack_pack]
  exact atMost_unpack_pack hpos h.2

end Rounding

/-! ## Coordinates -/

open Rounding (Fits)

namespace Coordinate

variable {m n : ℕ} {a b : Coordinate}

theorem isNaN_of_ne (h : a.unpacked ≠ .notANumber) : a.isNaN = false := by
  rw [Bool.eq_false_iff]
  exact fun hnone => h (unpacked_of_isNaN hnone)

theorem fits_add (ha : Fits m a.unpacked) (hb : Fits n b.unpacked) (hpos : 0 < m + n)
    (h : m + n < 2 ^ 53) : Fits (m + n) (a + b).unpacked := by
  show Fits _ (step (· + ·) a b).unpacked
  rw [unpacked_step (isNaN_of_ne ha.1) (isNaN_of_ne hb.1)]
  exact (ha.add hb h).unpack_pack hpos

theorem fits_sub (ha : Fits m a.unpacked) (hb : Fits n b.unpacked) (hpos : 0 < m + n)
    (h : m + n < 2 ^ 53) : Fits (m + n) (a - b).unpacked := by
  show Fits _ (step (· - ·) a b).unpacked
  rw [unpacked_step (isNaN_of_ne ha.1) (isNaN_of_ne hb.1)]
  exact (ha.sub hb h).unpack_pack hpos

theorem fits_mul (ha : Fits m a.unpacked) (hb : Fits n b.unpacked) (hpos : 0 < m * n)
    (h : m * n < 2 ^ 53) : Fits (m * n) (a * b).unpacked := by
  show Fits _ (step (· * ·) a b).unpacked
  rw [unpacked_step (isNaN_of_ne ha.1) (isNaN_of_ne hb.1)]
  exact (ha.mul hb h).unpack_pack hpos

theorem div_ne (ha : Fits m a.unpacked) (hb : Fits n b.unpacked) (hzero : ¬ (b == 0.0) = true) :
    (a / b).unpacked ≠ .notANumber := by
  show (step (· / ·) a b).unpacked ≠ _
  rw [unpacked_step (isNaN_of_ne ha.1) (isNaN_of_ne hb.1)]
  refine Rounding.unpack_pack_ne (ha.div_ne hb fun s hs => hzero ?_)
  have hb : b.unpacked = .zero s := hs
  show (b.unpacked.compare (0.0 : Coordinate).unpacked == some .eq) = true
  rw [hb]
  rfl

/-- A coordinate between a whole bound and its negative fits the bound. -/
theorem fits_of_between {bound k : ℕ} {low c high : Coordinate} {hpos : 0 < bound * 2 ^ k}
    (hlow : low.unpacked = .finite .negative (bound * 2 ^ k) (-(k : ℤ)) hpos)
    (hhigh : high.unpacked = .finite .positive (bound * 2 ^ k) (-(k : ℤ)) hpos)
    (hbits : 2 ^ 52 ≤ bound * 2 ^ k) (hlc : low ≤ c) (hch : c ≤ high) : Fits bound c.unpacked := by
  rw [le_iff, hlow] at hlc
  rw [le_iff, hhigh] at hch
  cases hc : c.unpacked with
  | notANumber =>
    rw [hc] at hch
    cases hch
  | zero s => exact ⟨nofun, trivial⟩
  | infinity s =>
    rw [hc] at hlc hch
    cases s with
    | negative => cases hlc
    | positive => cases hch
  | finite s m e hm =>
    have hmantissa := Rounding.mantissa_lt_of_unpack hc
    rw [hc] at hlc hch
    refine ⟨nofun, Rounding.exists_le_mul_two_pow hmantissa hbits
      (Grid.le_of_compare_ne fun hgt => ?_)⟩
    cases s with
    | negative =>
      have hswapped : (((compare (-(k : ℤ)) e).then
        (compare (bound * 2 ^ k) m)).swap).isLE = true := hlc
      rw [Ordering.swap_then, Int.compare_swap, Nat.compare_swap, hgt] at hswapped
      cases hswapped
    | positive =>
      have hplain : ((compare e (-(k : ℤ))).then (compare m (bound * 2 ^ k))).isLE = true := hch
      rw [hgt] at hplain
      cases hplain

theorem fits_one : Fits 1 (1.0 : Coordinate).unpacked := ⟨nofun, 52, rfl, le_refl _⟩

theorem fits_zero : Fits 1 (0.0 : Coordinate).unpacked := ⟨nofun, trivial⟩

/-- A clamped number lies between zero and one. -/
theorem fits_clamp {x : Coordinate} (h : x.unpacked ≠ .notANumber) :
    Fits 1 (Scalar.clamp 0.0 1.0 x).unpacked := by
  have hx : (x == x) = true := (beq_self_iff x).mpr h
  unfold Scalar.clamp
  split
  · exact fits_zero
  · split
    · exact fits_one
    · rename_i hlow hhigh
      rw [lt_iff_place hx rfl, not_lt] at hlow
      rw [lt_iff_place rfl hx, not_lt] at hhigh
      have hleast : (0.0 - 1.0 : Coordinate).place ≤ (0.0 : Coordinate).place := by decide
      exact @fits_of_between 1 52 (0.0 - 1.0) _ 1.0 (by decide) rfl rfl (by decide)
        ((le_iff_place rfl hx).mpr (hleast.trans hlow)) ((le_iff_place hx rfl).mpr hhigh)

/-- A number of ten million at most in size. -/
def IsModerate (c : Coordinate) : Prop := 0.0 - 10000000.0 ≤ c ∧ c ≤ 10000000.0

instance (c : Coordinate) : Decidable c.IsModerate :=
  inferInstanceAs (Decidable (0.0 - 10000000.0 ≤ c ∧ c ≤ 10000000.0))

theorem IsModerate.fits {c : Coordinate} (h : c.IsModerate) : Fits 10000000 c.unpacked :=
  @fits_of_between 10000000 29 _ _ _ (by decide) rfl rfl (by decide) h.1 h.2

end Coordinate

/-! ## Points -/

namespace Point

variable {p q a b : Point Coordinate}

/-- Both coordinates fit a bound. -/
def Fits (bound : ℕ) (p : Point Coordinate) : Prop :=
  Rounding.Fits bound p.x.unpacked ∧ Rounding.Fits bound p.y.unpacked

/-- Both coordinates are of ten million at most in size. -/
def IsModerate (p : Point Coordinate) : Prop := p.x.IsModerate ∧ p.y.IsModerate

instance (p : Point Coordinate) : Decidable p.IsModerate :=
  inferInstanceAs (Decidable (p.x.IsModerate ∧ p.y.IsModerate))

theorem IsModerate.fits (h : p.IsModerate) : p.Fits 10000000 := ⟨h.1.fits, h.2.fits⟩

theorem fits_distanceSquared (hq : q.Fits 30000000) (hp : p.Fits 10000000) :
    Rounding.Fits 3200000000000000 (distanceSquared q p).unpacked := by
  have hx : Rounding.Fits 40000000 (q.x - p.x).unpacked :=
    Coordinate.fits_sub hq.1 hp.1 (by decide) (by decide)
  have hy : Rounding.Fits 40000000 (q.y - p.y).unpacked :=
    Coordinate.fits_sub hq.2 hp.2 (by decide) (by decide)
  have hxx : Rounding.Fits 1600000000000000 ((q.x - p.x) * (q.x - p.x)).unpacked :=
    Coordinate.fits_mul hx hx (by decide) (by decide)
  have hyy : Rounding.Fits 1600000000000000 ((q.y - p.y) * (q.y - p.y)).unpacked :=
    Coordinate.fits_mul hy hy (by decide) (by decide)
  exact Coordinate.fits_add hxx hyy (by decide) (by decide)

/-- The projection of a point to a segment does not go far. -/
theorem fits_project (hp : p.Fits 10000000) (ha : a.Fits 10000000) (hb : b.Fits 10000000) :
    (project p a b).Fits 30000000 := by
  have hdifference {u v : Coordinate} (hu : Rounding.Fits 10000000 u.unpacked)
      (hv : Rounding.Fits 10000000 v.unpacked) : Rounding.Fits 20000000 (u - v).unpacked :=
    Coordinate.fits_sub hu hv (by decide) (by decide)
  have hproducts {u v w x : Coordinate} (hu : Rounding.Fits 20000000 u.unpacked)
      (hv : Rounding.Fits 20000000 v.unpacked) (hw : Rounding.Fits 20000000 w.unpacked)
      (hx : Rounding.Fits 20000000 x.unpacked) :
      Rounding.Fits 800000000000000 (u * v + w * x).unpacked := by
    have huv : Rounding.Fits 400000000000000 (u * v).unpacked :=
      Coordinate.fits_mul hu hv (by decide) (by decide)
    have hwx : Rounding.Fits 400000000000000 (w * x).unpacked :=
      Coordinate.fits_mul hw hx (by decide) (by decide)
    exact Coordinate.fits_add huv hwx (by decide) (by decide)
  have hdx := hdifference hb.1 ha.1
  have hdy := hdifference hb.2 ha.2
  unfold project
  simp only []
  split
  · exact ⟨ha.1.mono (by decide), ha.2.mono (by decide)⟩
  · rename_i hlength
    have hquotient := Coordinate.div_ne (hproducts (hdifference hp.1 ha.1) hdx
      (hdifference hp.2 ha.2) hdy) (hproducts hdx hdx hdy hdy) hlength
    have hpart := Coordinate.fits_clamp hquotient
    have hmove {u v : Coordinate} (hu : Rounding.Fits 10000000 u.unpacked)
        (hv : Rounding.Fits 20000000 v.unpacked) : Rounding.Fits 30000000 (u + _ * v).unpacked :=
      Coordinate.fits_add hu (Coordinate.fits_mul hpart hv (by decide) (by decide)) (by decide)
        (by decide)
    exact ⟨hmove ha.1 hdx, hmove ha.2 hdy⟩

end Point

/-- Points of a moderate size are at a distance that is a number. -/
theorem Stretch.isMeasuredFrom_of_moderate {p : Point Coordinate} {s : Stretch Coordinate}
    (hp : p.IsModerate) (ha : s.a.IsModerate) (hb : s.b.IsModerate) :
    s.isMeasuredFrom p = true := by
  rw [isMeasuredFrom, Coordinate.beq_self_iff]
  exact (Point.fits_distanceSquared (Point.fits_project hp.fits ha.fits hb.fits) hp.fits).1

end Crossroads

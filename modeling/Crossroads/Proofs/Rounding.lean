import Mathlib

/-!
# Rounding stays below a bound

A floating-point number is `AtMost` a natural number if it is none, or lies between zero and that
number.  Whole numbers below `2 ^ 53` are numbers themselves, so that rounding never passes them:
`atMost_roundWithAccuracy`.  The steps of arithmetic inherit it, and so does storing a number.
-/

namespace Crossroads

namespace Rounding

open Float.Model Float.Model.UnpackedFloat

/-- The number is none, or lies between zero and a bound.  Its mantissa then counts fractions. -/
def AtMost (bound : Nat) : UnpackedFloat → Prop
  | .notANumber => True
  | .infinity _ => False
  | .zero _ => True
  | .finite .negative _ _ _ => False
  | .finite .positive m e _ => ∃ k : Nat, e = -(k : Int) ∧ m ≤ bound * 2 ^ k

/-! ## Rounding a mantissa -/

/-- The mantissa is within a bound, and so is the next one if something is cut off. -/
def Capped (bound : Nat) (em : ExtendedMantissa) : Prop :=
  em.mantissa ≤ bound ∧ (em.roundBit = true ∨ em.stickyBit = true → em.mantissa + 1 ≤ bound)

theorem Capped.shiftRightOne {bound : Nat} {em : ExtendedMantissa} (h : Capped (bound * 2) em) :
    Capped bound em.shiftRightOne := by
  obtain ⟨hmantissa, hrest⟩ := h
  unfold Capped ExtendedMantissa.shiftRightOne
  refine ⟨by show em.mantissa / 2 ≤ bound; omega, ?_⟩
  intro hcut
  show em.mantissa / 2 + 1 ≤ bound
  rcases hcut with hodd | hcut
  · have hodd : em.mantissa % 2 ≠ 0 := by simpa using hodd
    omega
  · have hmore := hrest (by simpa using hcut)
    omega

theorem Capped.shiftRight {bound : Nat} (n : Nat) :
    ∀ {em : ExtendedMantissa}, Capped (bound * 2 ^ n) em → Capped bound (em >>> n) := by
  induction n generalizing bound with
  | zero =>
    intro em h
    rwa [Nat.pow_zero, Nat.mul_one] at h
  | succ n ih =>
    intro em h
    have hpow : bound * 2 ^ (n + 1) = bound * 2 * 2 ^ n := by rw [Nat.pow_succ]; ring
    rw [hpow] at h
    exact (ih h).shiftRightOne

theorem Capped.roundedMantissa_le {bound : Nat} {em : ExtendedMantissa} (h : Capped bound em) :
    em.roundedMantissa ≤ bound := by
  obtain ⟨m, round, sticky⟩ := em
  obtain ⟨hmantissa, hrest⟩ := h
  cases round <;> cases sticky <;>
    simp_all [ExtendedMantissa.roundedMantissa, ExtendedMantissa.accuracy,
      Accuracy.roundToNearestEven]
  omega

theorem capped_of_accuracy {bound m : Nat} {accuracy : Accuracy} (h : m ≤ bound)
    (hrest : accuracy ≠ .exact → m + 1 ≤ bound) :
    Capped bound (.ofMantissaAndAccuracy m accuracy) := by
  cases accuracy with
  | exact => exact ⟨h, fun hcut => by simp [ExtendedMantissa.ofMantissaAndAccuracy] at hcut⟩
  | inexact order =>
    have hmore := hrest (by simp)
    cases order <;> exact ⟨h, fun _ => hmore⟩

/-- A whole number below `2 ^ 53` has an exponent that counts fractions. -/
theorem targetExponent_nonpos {bound m k : Nat} (hbound : bound < 2 ^ 53) (h : m ≤ bound * 2 ^ k) :
    Format.binary64.targetExponent (totalExponent m (-(k : Int))) ≤ 0 := by
  have hlog : m.log2 < 53 + k := by
    by_cases hm : m = 0
    · subst hm
      have hzero : Nat.log2 0 = 0 := by decide
      omega
    · rw [Nat.log2_lt hm, Nat.pow_add]
      exact Nat.lt_of_le_of_lt h (Nat.mul_lt_mul_of_pos_right hbound (Nat.two_pow_pos k))
  simp only [Format.targetExponent, totalExponent, Format.mantissaBits, Format.minExponent]
  omega

/-- Shifting to the exponent of the format keeps a mantissa within the bound. -/
theorem capped_shift {bound m k : Nat} {accuracy : Accuracy} (hbound : bound < 2 ^ 53)
    (h : m ≤ bound * 2 ^ k) (hrest : accuracy ≠ .exact → m + 1 ≤ bound * 2 ^ k) :
    ∃ k' : Nat, (shiftToTargetExponent .binary64 m (-(k : Int)) accuracy).2 = -(k' : Int) ∧
      Capped (bound * 2 ^ k') (shiftToTargetExponent .binary64 m (-(k : Int)) accuracy).1 := by
  have htarget := targetExponent_nonpos hbound h
  unfold shiftToTargetExponent shiftToExponent
  generalize Format.binary64.targetExponent (totalExponent m (-(k : Int))) = target at htarget
  obtain ⟨n, hn⟩ : ∃ n : Nat, (target - -(k : Int)).toNat = n := ⟨_, rfl⟩
  have hle : n ≤ k := by omega
  have hpow : bound * 2 ^ k = bound * 2 ^ (k - n) * 2 ^ n := by
    rw [Nat.mul_assoc, ← Nat.pow_add, Nat.sub_add_cancel hle]
  refine ⟨k - n, ?_, ?_⟩
  · show -(k : Int) + ((target - -(k : Int)).toNat : Int) = _
    omega
  · show Capped _ (ExtendedMantissa.ofMantissaAndAccuracy m accuracy >>> (target - -(k : Int)).toNat)
    rw [hn]
    apply Capped.shiftRight
    rw [← hpow]
    exact capped_of_accuracy h hrest

/-- Rounding does not pass the bound. -/
theorem atMost_roundWithAccuracy {bound m k : Nat} {accuracy : Accuracy} (hbound : bound < 2 ^ 53)
    (h : m ≤ bound * 2 ^ k) (hrest : accuracy ≠ .exact → m + 1 ≤ bound * 2 ^ k) :
    AtMost bound (roundWithAccuracy .binary64 .positive m (-(k : Int)) accuracy) := by
  obtain ⟨k₁, hexponent, hcapped⟩ := capped_shift hbound h hrest
  have hexact : Accuracy.exact ≠ .exact →
      (shiftToTargetExponent .binary64 m (-(k : Int)) accuracy).1.roundedMantissa + 1
        ≤ bound * 2 ^ k₁ := fun hne => absurd rfl hne
  obtain ⟨k₂, hexponent', hcapped'⟩ := capped_shift hbound hcapped.roundedMantissa_le hexact
  unfold roundWithAccuracy
  simp only [hexponent]
  split
  · trivial
  · exact ⟨k₂, hexponent', hcapped'.1⟩

/-! ## Storing a number -/

/-- The implicit highest bit of a mantissa. -/
theorem toNat_implicit (m : BitVec 52) : (1#1 ++ m).toNat = 2 ^ 52 + m.toNat := by
  rw [BitVec.toNat_append, ← Nat.shiftLeft_add_eq_or_of_lt m.isLt]
  rfl

theorem unpack_subnormal (s : Sign) (m : BitVec 52) :
    UnpackedFloat.unpack .binary64 (packComponents .binary64 s 0#11 m) =
      if h : m = 0#52 then .zero s
      else .finite s m.toNat (-1074) (by simpa [BitVec.toNat_pos, BitVec.pos_iff_ne_zero]) := by
  unfold UnpackedFloat.unpack
  simp only [unpackMantissa_packComponents, unpackExponent_packComponents,
    unpackSign_packComponents, Sign.ofBitVec_toBitVec]
  rfl

theorem unpack_normal (s : Sign) {e : BitVec 11} (m : BitVec 52) (hlow : e ≠ 0#11)
    (hhigh : e ≠ -1#11) :
    UnpackedFloat.unpack .binary64 (packComponents .binary64 s e m) =
      .finite s (2 ^ 52 + m.toNat) ((e.toNat : Int) - 1075) (by omega) := by
  unfold UnpackedFloat.unpack
  simp only [unpackMantissa_packComponents, unpackExponent_packComponents,
    unpackSign_packComponents, Sign.ofBitVec_toBitVec]
  rw [if_neg hhigh, if_neg hlow]
  congr 1
  exact toNat_implicit m

theorem le_mul_two_pow {bound m n k : Nat} (hpos : 0 < bound) (hm : m < 2 ^ n) (hle : n ≤ k) :
    m ≤ bound * 2 ^ k := by
  have hlt : m < 2 ^ k := Nat.lt_of_lt_of_le hm (Nat.pow_le_pow_right Nat.two_pos hle)
  exact Nat.le_trans (Nat.le_of_lt hlt) (Nat.le_mul_of_pos_left _ hpos)

/-- What is stored with the lowest exponent is below one. -/
theorem atMost_subnormal {bound : Nat} (hpos : 0 < bound) (m : BitVec 52) :
    AtMost bound (UnpackedFloat.unpack .binary64 (packComponents .binary64 .positive 0#11 m)) := by
  rw [unpack_subnormal]
  split
  · trivial
  · refine ⟨1074, rfl, ?_⟩
    exact le_mul_two_pow hpos m.isLt (by omega)

/-- A stored mantissa has 53 bits at most. -/
theorem mantissa_lt_of_unpack {b : BitVec Format.binary64.numBits} {s : Sign} {m : Nat} {e : Int}
    {hm : 0 < m} (h : UnpackedFloat.unpack .binary64 b = .finite s m e hm) : m < 2 ^ 53 := by
  unfold UnpackedFloat.unpack at h
  simp only [] at h
  split at h
  · split at h <;> cases h
  · split at h
    · split at h
      · cases h
      · injection h with _ hmantissa
        have hlt := (unpackMantissa b).isLt
        omega
    · injection h with _ hmantissa
      have hlt := (unpackMantissa b).isLt
      rw [toNat_implicit] at hmantissa
      omega

/-- What does not come after a bound in the order of exponents and mantissas is within it: with a
lesser exponent it is small, since a mantissa has 53 bits at most. -/
theorem exists_le_mul_two_pow {bound k m : Nat} {e : Int} (hm : m < 2 ^ 53)
    (hbound : 2 ^ 52 ≤ bound * 2 ^ k)
    (h : e ≤ -(k : Int) ∧ (e = -(k : Int) → m ≤ bound * 2 ^ k)) :
    ∃ j : Nat, e = -(j : Int) ∧ m ≤ bound * 2 ^ j := by
  by_cases heq : e = -(k : Int)
  · exact ⟨k, heq, h.2 heq⟩
  · obtain ⟨j, rfl⟩ : ∃ j : Nat, e = -((k + (1 + j) : Nat) : Int) := ⟨(-e - k - 1).toNat, by omega⟩
    refine ⟨k + (1 + j), rfl, ?_⟩
    rw [Nat.pow_add, Nat.pow_add, ← Nat.mul_assoc, ← Nat.mul_assoc]
    exact Nat.le_trans (by omega) (Nat.le_mul_of_pos_right _ (Nat.two_pow_pos j))

/-- The bits of a number that counts fractions. -/
theorem pack_finite (s : Sign) {m k : Nat} (hm : 0 < m) :
    UnpackedFloat.pack .binary64 (.finite s m (-(k : Int)) hm)
      = if m.log2 + 1 = 53 then
          packComponents .binary64 s (BitVec.ofNat 11 (1075 - k)) (BitVec.ofNat 52 m)
        else packComponents .binary64 s 0#11 (BitVec.ofNat 52 m) := by
  have hbiased : (-(k : Int) + 1023 + 52).toNat = 1075 - k := by omega
  rw [← hbiased]
  show (if 2 ^ 11 ≤ (-(k : Int) + 1023 + 52).toNat + 1 then _ else _) = _
  rw [if_neg (by omega)]
  rfl

/-- A number with all bits of its mantissa is stored as it is. -/
theorem unpack_pack_normal (s : Sign) {m k : Nat} (hm : 0 < m) (hlog : m.log2 = 52) (hk : k ≤ 1074) :
    UnpackedFloat.unpack .binary64 (UnpackedFloat.pack .binary64 (.finite s m (-(k : Int)) hm))
      = .finite s m (-(k : Int)) hm := by
  have hbits : (BitVec.ofNat 11 (1075 - k)).toNat = 1075 - k := by
    rw [BitVec.toNat_ofNat]
    omega
  have hlow : BitVec.ofNat 11 (1075 - k) ≠ 0#11 := by
    intro heq
    have hzero : 0 = 1075 - k := by rw [← hbits, heq]; rfl
    omega
  have hhigh : BitVec.ofNat 11 (1075 - k) ≠ -1#11 := by
    intro heq
    have hones : 2047 = 1075 - k := by rw [← hbits, heq]; rfl
    omega
  have hfloor : 2 ^ 52 ≤ m := (Nat.le_log2 (by omega)).mp (by omega)
  have hceil : m < 2 ^ 53 := (Nat.log2_lt (by omega)).mp (by omega)
  rw [pack_finite, if_pos (by omega), unpack_normal _ _ hlow hhigh]
  congr 1
  · rw [BitVec.toNat_ofNat]
    omega
  · omega

/-- Storing a number does not make it pass a bound. -/
theorem atMost_unpack_pack {bound : Nat} (hpos : 0 < bound) {x : UnpackedFloat}
    (h : AtMost bound x) :
    AtMost bound (UnpackedFloat.unpack .binary64 (UnpackedFloat.pack .binary64 x)) := by
  match x, h with
  | .notANumber, _ => trivial
  | .zero .positive, _ => trivial
  | .zero .negative, _ => trivial
  | .finite .positive m e hm, h =>
    obtain ⟨k, rfl, hle⟩ := h
    by_cases hnormal : m.log2 = 52 ∧ k ≤ 1074
    · rw [unpack_pack_normal .positive hm hnormal.1 hnormal.2]
      exact ⟨k, rfl, hle⟩
    · rw [pack_finite]
      split
      · have hbiased : 1075 - k = 0 := by omega
        rw [hbiased]
        exact atMost_subnormal hpos _
      · exact atMost_subnormal hpos _

/-! ## Steps of arithmetic -/

/-- The bounds of factors bound their product. -/
theorem AtMost.mul {a b : Nat} {x y : UnpackedFloat} (hx : AtMost a x) (hy : AtMost b y)
    (hbound : a * b < 2 ^ 53) : AtMost (a * b) (UnpackedFloat.mul .binary64 x y) := by
  match x, y, hx, hy with
  | .notANumber, _, _, _ => trivial
  | .zero _, .notANumber, _, _ => trivial
  | .zero _, .zero _, _, _ => trivial
  | .zero _, .finite .positive _ _ _, _, _ => trivial
  | .finite .positive _ _ _, .notANumber, _, _ => trivial
  | .finite .positive _ _ _, .zero _, _, _ => trivial
  | .finite .positive m e _, .finite .positive n f _, hx, hy =>
    obtain ⟨k, rfl, hm⟩ := hx
    obtain ⟨l, rfl, hn⟩ := hy
    show AtMost _ (roundWithAccuracy .binary64 .positive (m * n) (-(k : Int) + -(l : Int)) .exact)
    have hsum : -(k : Int) + -(l : Int) = -((k + l : Nat) : Int) := by omega
    have hproduct : m * n ≤ a * b * 2 ^ (k + l) := by
      calc m * n ≤ (a * 2 ^ k) * (b * 2 ^ l) := Nat.mul_le_mul hm hn
        _ = a * b * 2 ^ (k + l) := by rw [Nat.pow_add]; ring
    rw [hsum]
    exact atMost_roundWithAccuracy hbound hproduct fun hne => absurd rfl hne

theorem log2_add_lt {m n k l : Nat} (hm : 0 < m) (h : m * 2 ^ l ≤ n * 2 ^ k) :
    m.log2 + l < n.log2 + 1 + k := by
  have hlow : 2 ^ (m.log2 + l) ≤ n * 2 ^ k := by
    rw [Nat.pow_add]
    exact Nat.le_trans (Nat.mul_le_mul_right _ (Nat.log2_self_le (by omega))) h
  have hhigh : n * 2 ^ k < 2 ^ (n.log2 + 1 + k) := by
    rw [Nat.pow_add]
    exact Nat.mul_lt_mul_of_pos_right Nat.lt_log2_self (Nat.two_pow_pos k)
  exact (Nat.pow_lt_pow_iff_right (by decide)).mp (Nat.lt_of_le_of_lt hlow hhigh)

/-- Dividing a number by its bound gives one at most. -/
theorem AtMost.div {c n l : Nat} {x : UnpackedFloat} (hx : AtMost c x) (hn : n = c * 2 ^ l)
    (hpos : 0 < n) : AtMost 1 (UnpackedFloat.div .binary64 x (.finite .positive n (-(l : Int)) hpos)) := by
  match x, hx with
  | .notANumber, _ => trivial
  | .zero _, _ => trivial
  | .finite .positive m e hm, hx =>
    obtain ⟨k, rfl, hle⟩ := hx
    have hlog : m.log2 + l < n.log2 + 1 + k := by
      refine log2_add_lt hm ?_
      calc m * 2 ^ l ≤ c * 2 ^ k * 2 ^ l := Nat.mul_le_mul_right _ hle
        _ = n * 2 ^ k := by rw [hn]; ring
    obtain ⟨target, htarget⟩ : ∃ target, min (-(k : Int) - -(l : Int))
        (Format.binary64.targetExponent (totalExponent m (-(k : Int)) - totalExponent n (-(l : Int))))
          = target := ⟨_, rfl⟩
    have hnonpos : target ≤ 0 := by
      rw [← htarget]
      simp only [Format.targetExponent, totalExponent, Format.mantissaBits, Format.minExponent]
      omega
    have hlow : target ≤ -(k : Int) - -(l : Int) := by
      rw [← htarget]
      exact Int.min_le_left _ _
    obtain ⟨j, rfl⟩ : ∃ j : Nat, target = -(j : Int) := ⟨target.natAbs, by omega⟩
    obtain ⟨shift, hshift⟩ : ∃ shift : Nat, k + shift = l + j := ⟨l + j - k, by omega⟩
    have hamount : (-(k : Int) - -(l : Int) - -(j : Int)).toNat = shift := by omega
    have hcap : m * 2 ^ shift ≤ n * 2 ^ j := by
      calc m * 2 ^ shift ≤ c * 2 ^ k * 2 ^ shift := Nat.mul_le_mul_right _ hle
        _ = c * 2 ^ (k + shift) := by rw [Nat.pow_add]; ring
        _ = n * 2 ^ j := by rw [hshift, hn, Nat.pow_add]; ring
    show AtMost 1 (roundWithAccuracy .binary64 .positive _ _ _)
    simp only [htarget, hamount, Nat.shiftLeft_eq]
    refine atMost_roundWithAccuracy (by decide) ?_ ?_
    · rw [Nat.one_mul]
      exact Nat.div_le_of_le_mul hcap
    · intro hinexact
      have hrest : m * 2 ^ shift % n ≠ 0 := by
        intro hzero
        rw [hzero] at hinexact
        exact hinexact rfl
      rw [Nat.one_mul]
      have hdiv := Nat.div_add_mod (m * 2 ^ shift) n
      have hlt : n * (m * 2 ^ shift / n) < n * 2 ^ j := by omega
      exact Nat.lt_of_mul_lt_mul_left hlt

theorem atMost_round {bound m k : Nat} (hbound : bound < 2 ^ 53) (h : m ≤ bound * 2 ^ k) :
    AtMost bound (UnpackedFloat.round .binary64 .positive m (-(k : Int))) := by
  unfold UnpackedFloat.round decreaseExponent
  generalize Format.binary64.targetExponent (totalExponent m (-(k : Int))) = target
  obtain ⟨shift, hshift⟩ : ∃ shift : Nat, (-(k : Int) - target).toNat = shift := ⟨_, rfl⟩
  have hexponent : -(k : Int) - (shift : Int) = -((k + shift : Nat) : Int) := by omega
  have hcap : m * 2 ^ shift ≤ bound * 2 ^ (k + shift) := by
    rw [Nat.pow_add, ← Nat.mul_assoc]
    exact Nat.mul_le_mul_right _ h
  simp only [hshift, hexponent, Nat.shiftLeft_eq]
  exact atMost_roundWithAccuracy hbound hcap fun hne => absurd rfl hne

theorem atMost_normalize {bound k : Nat} {m : Int} (hbound : bound < 2 ^ 53) (hpos : 0 ≤ m)
    (h : m.toNat ≤ bound * 2 ^ k) (s : Sign) :
    AtMost bound (UnpackedFloat.normalize .binary64 m (-(k : Int)) s) := by
  unfold UnpackedFloat.normalize
  cases hm : compare m 0 with
  | lt =>
    have hlt : m < 0 := Int.compare_eq_lt.mp hm
    omega
  | eq => trivial
  | gt => exact atMost_round hbound h

/-- Whole numbers are numbers themselves. -/
theorem atMost_ofNat {n : Nat} (h : n < 2 ^ 53) : AtMost n (UnpackedFloat.ofNat .binary64 n) := by
  have hcap : (n : Int).toNat ≤ n * 2 ^ 0 := by simp
  exact atMost_normalize h (Int.natCast_nonneg n) hcap .positive

theorem log2_mul_two_pow {m : Nat} (hm : 0 < m) (k : Nat) : (m * 2 ^ k).log2 = m.log2 + k := by
  have hpos : m * 2 ^ k ≠ 0 := Nat.ne_of_gt (Nat.mul_pos hm (Nat.two_pow_pos k))
  rw [Nat.log2_eq_iff hpos]
  have hexponent : m.log2 + k + 1 = m.log2 + 1 + k := by omega
  rw [hexponent, Nat.pow_add, Nat.pow_add 2 (m.log2 + 1)]
  exact ⟨Nat.mul_le_mul_right _ (Nat.log2_self_le (by omega)),
    Nat.mul_lt_mul_of_pos_right Nat.lt_log2_self (Nat.two_pow_pos k)⟩

/-- A mantissa that has all its bits is not shifted. -/
theorem shiftToTargetExponent_normal {m k : Nat} (hlog : m.log2 = 52) (hk : k ≤ 1074)
    (accuracy : Accuracy) : shiftToTargetExponent .binary64 m (-(k : Int)) accuracy
      = (.ofMantissaAndAccuracy m accuracy, -(k : Int)) := by
  have htarget : Format.binary64.targetExponent (totalExponent m (-(k : Int))) = -(k : Int) := by
    simp only [Format.targetExponent, totalExponent, Format.mantissaBits, Format.minExponent]
    omega
  have hamount : (-(k : Int) - -(k : Int)).toNat = 0 := by omega
  rw [shiftToTargetExponent, htarget, shiftToExponent, hamount, Int.natCast_zero, Int.add_zero]
  rfl

/-- A whole number is a number itself, with a mantissa that has all its bits. -/
theorem ofNat_eq_finite {n : Nat} (hpos : 0 < n) (h : n < 2 ^ 53) : ∃ (k : Nat) (hm : 0 < n * 2 ^ k),
    k ≤ 1074 ∧ (n * 2 ^ k).log2 = 52 ∧
      UnpackedFloat.ofNat .binary64 n = .finite .positive (n * 2 ^ k) (-(k : Int)) hm := by
  have hlt : n.log2 < 53 := (Nat.log2_lt (by omega)).mpr h
  obtain ⟨k, hk⟩ : ∃ k, n.log2 + k = 52 := ⟨52 - n.log2, by omega⟩
  have hm : 0 < n * 2 ^ k := Nat.mul_pos hpos (Nat.two_pow_pos k)
  have hlog : (n * 2 ^ k).log2 = 52 := by rw [log2_mul_two_pow hpos, hk]
  have htarget : Format.binary64.targetExponent (totalExponent n 0) = -(k : Int) := by
    simp only [Format.targetExponent, totalExponent, Format.mantissaBits, Format.minExponent]
    omega
  refine ⟨k, hm, by omega, hlog, ?_⟩
  have hround : UnpackedFloat.ofNat .binary64 n = UnpackedFloat.round .binary64 .positive n 0 := by
    have hgt : compare (n : Int) 0 = .gt := Int.compare_eq_gt.mpr (by omega)
    rw [UnpackedFloat.ofNat, UnpackedFloat.ofInt, UnpackedFloat.normalize, hgt]
    rfl
  have hamount : (0 - -(k : Int)).toNat = k := by omega
  have hexponent : (0 : Int) - (k : Int) = -(k : Int) := by omega
  have hk' : k ≤ 1074 := by omega
  have hexact : (ExtendedMantissa.ofMantissaAndAccuracy (n * 2 ^ k) .exact).roundedMantissa
      = n * 2 ^ k := rfl
  rw [hround]
  unfold UnpackedFloat.round decreaseExponent roundWithAccuracy
  simp only [htarget, hamount, hexponent, Nat.shiftLeft_eq,
    shiftToTargetExponent_normal hlog hk', hexact]
  exact dif_neg (Nat.ne_of_gt hm)

/-- The common exponent of a sum, and how far each mantissa is shifted to it. -/
theorem exists_common (k l : Nat) : ∃ j a b : Nat,
    min (-(k : Int)) (-(l : Int)) = -(j : Int) ∧ k + a = j ∧ l + b = j :=
  ⟨max k l, max k l - k, max k l - l, by omega, by omega, by omega⟩

/-- The number is none, or its size is within a bound. -/
def Around (bound : Nat) : UnpackedFloat → Prop
  | .notANumber => True
  | .infinity _ => False
  | .zero _ => True
  | .finite _ m e _ => ∃ k : Nat, e = -(k : Int) ∧ m ≤ bound * 2 ^ k

/-- Adding a bound gives a number that is not negative. -/
theorem Around.sub_negative {c n l : Nat} {x : UnpackedFloat} (hx : Around c x)
    (hn : n = c * 2 ^ l) (hpos : 0 < n) (hbound : 2 * c < 2 ^ 53) :
    AtMost (2 * c) (UnpackedFloat.sub .binary64 x (.finite .negative n (-(l : Int)) hpos)) := by
  match x, hx with
  | .notANumber, _ => trivial
  | .zero _, _ => exact ⟨l, rfl, by rw [hn, Nat.mul_assoc]; omega⟩
  | .finite s m e _, hx =>
    obtain ⟨k, rfl, hle⟩ := hx
    obtain ⟨j, a, b, hmin, hka, hlb⟩ := exists_common k l
    have ha : (-(k : Int) - -(j : Int)).toNat = a := by omega
    have hb : (-(l : Int) - -(j : Int)).toNat = b := by omega
    have hsize : m * 2 ^ a ≤ c * 2 ^ j := by
      rw [← hka, Nat.pow_add, ← Nat.mul_assoc]
      exact Nat.mul_le_mul_right _ hle
    have hother : n * 2 ^ b = c * 2 ^ j := by rw [hn, ← hlb, Nat.pow_add, Nat.mul_assoc]
    have hdouble : 2 * c * 2 ^ j = c * 2 ^ j + c * 2 ^ j := by ring
    show AtMost _ (UnpackedFloat.normalize _ (s.apply ↑(m <<< (-(k : Int) - min (-(k : Int)) (-(l : Int))).toNat)
      - Sign.negative.apply ↑(n <<< (-(l : Int) - min (-(k : Int)) (-(l : Int))).toNat))
      (min (-(k : Int)) (-(l : Int))) _)
    rw [hmin, ha, hb, Nat.shiftLeft_eq, Nat.shiftLeft_eq, hother]
    generalize m * 2 ^ a = size at hsize ⊢
    refine atMost_normalize hbound ?_ ?_ .positive
    · cases s with
      | negative =>
        show (0 : Int) ≤ -(size : Int) - -((c * 2 ^ j : Nat) : Int)
        omega
      | positive =>
        show (0 : Int) ≤ (size : Int) - -((c * 2 ^ j : Nat) : Int)
        omega
    · rw [hdouble]
      cases s with
      | negative =>
        show (-(size : Int) - -((c * 2 ^ j : Nat) : Int)).toNat ≤ _
        omega
      | positive =>
        show ((size : Int) - -((c * 2 ^ j : Nat) : Int)).toNat ≤ _
        omega

/-- A number takes nothing from itself, however both are written. -/
theorem sub_eq_zero {c m n k l : Nat} (hm : m = c * 2 ^ k) (hn : n = c * 2 ^ l) (hmpos : 0 < m)
    (hnpos : 0 < n) :
    UnpackedFloat.sub .binary64 (.finite .positive m (-(k : Int)) hmpos)
      (.finite .positive n (-(l : Int)) hnpos) = .zero .positive := by
  obtain ⟨j, a, b, hmin, hka, hlb⟩ := exists_common k l
  have ha : (-(k : Int) - -(j : Int)).toNat = a := by omega
  have hb : (-(l : Int) - -(j : Int)).toNat = b := by omega
  have hfirst : m * 2 ^ a = c * 2 ^ j := by rw [hm, ← hka, Nat.pow_add, Nat.mul_assoc]
  have hother : n * 2 ^ b = c * 2 ^ j := by rw [hn, ← hlb, Nat.pow_add, Nat.mul_assoc]
  show UnpackedFloat.normalize _ (Sign.positive.apply ↑(m <<< (-(k : Int) - min (-(k : Int)) (-(l : Int))).toNat)
    - Sign.positive.apply ↑(n <<< (-(l : Int) - min (-(k : Int)) (-(l : Int))).toNat)) _ _ = _
  rw [hmin, ha, hb, Nat.shiftLeft_eq, Nat.shiftLeft_eq, hfirst, hother, Int.sub_self]
  rfl

/-! ## Words -/

theorem mantissa_shiftRight (em : ExtendedMantissa) (k : Nat) :
    (em >>> k).mantissa = em.mantissa / 2 ^ k := by
  induction k with
  | zero => exact (Nat.div_one _).symm
  | succ k ih =>
    show (em >>> k).mantissa / 2 = _
    rw [ih, Nat.div_div_eq_div_mul, ← Nat.pow_succ]

/-- The whole part of a number. -/
theorem toInt_finite (low high : Int) {m k : Nat} (hm : 0 < m) :
    UnpackedFloat.toInt low high (.finite .positive m (-(k : Int)) hm) = (m / 2 ^ k : Nat) := by
  have hdecrease : (-(k : Int) - 0).toNat = 0 := by omega
  have hamount : (0 - (-(k : Int) - (0 : Nat))).toNat = k := by omega
  show roundToInt .positive m (-(k : Int)) = _
  unfold roundToInt decreaseExponent shiftToExponent
  simp only [hdecrease, hamount, mantissa_shiftRight]
  show ((m <<< 0 / 2 ^ k : Nat) : Int) = _
  rw [Nat.shiftLeft_zero]

/-- A number within a bound has a whole part within it, and reaches the bound if that does. -/
theorem AtMost.toUInt32_le {bound : Nat} {x : UnpackedFloat} (h : AtMost bound x) (hpos : 0 < bound)
    (hbound : bound < UInt32.size) : x.toUInt32.toNat < bound ∨ x.toUInt32.toNat = bound ∧
      ∃ (k : Nat) (hm : 0 < bound * 2 ^ k), x = .finite .positive (bound * 2 ^ k) (-(k : Int)) hm := by
  match x, h with
  | .notANumber, _ => exact .inl hpos
  | .zero _, _ => exact .inl hpos
  | .finite .positive m e hm, h =>
    obtain ⟨k, rfl, hle⟩ := h
    have hwhole : m / 2 ^ k ≤ bound := Nat.div_le_of_le_mul (by rwa [Nat.mul_comm])
    have hword : (UnpackedFloat.toUInt32 (.finite .positive m (-(k : Int)) hm)).toNat = m / 2 ^ k := by
      have hlt : m / 2 ^ k < UInt32.size := Nat.lt_of_le_of_lt hwhole hbound
      rw [UnpackedFloat.toUInt32, toInt_finite, Int.toNat_natCast, UInt32.ofNatClamp_eq_ofNat _ hlt,
        UInt32.toNat_ofNat_of_lt' hlt]
    rw [hword]
    rcases Nat.lt_or_eq_of_le hwhole with hlt | heq
    · exact .inl hlt
    · have hexact : m = bound * 2 ^ k := by
        have hdiv := Nat.div_add_mod m (2 ^ k)
        rw [heq, Nat.mul_comm] at hdiv
        omega
      subst hexact
      exact .inr ⟨heq, k, hm, rfl⟩

end Rounding

end Crossroads

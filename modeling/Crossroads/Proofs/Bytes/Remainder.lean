import Crossroads.Proofs.Bytes.Checksum
import Mathlib.RingTheory.AdjoinRoot
import Mathlib.RingTheory.Polynomial.DegreeLT
import Mathlib.Algebra.Field.ZMod
import Mathlib.Tactic.ComputeDegree
import Mathlib.Tactic.LinearCombination

/-!
# Checksums are remainders

The bits of octets are the coefficients of a polynomial over the field of two elements, the first bit
at the highest degree and the lowest bit of an octet first.  Taken in by a remainder, they are divided
by `Checksum.divisor`: a division step multiplies by `X` (`Checksum.residue_shift`), and an octet enters
sixty-four degrees up (`Checksum.residue_absorb`).

* `Checksum.reflected_checksum` — the checksum is what remains of the octets, moved up by sixty-four
  degrees, once their first sixty-four bits have been flipped, and then all bits of it are flipped.
-/

namespace Crossroads

open Polynomial

namespace Checksum

/-! ## Bits as coefficients -/

/-- The polynomial of the lowest bits of a number; the lowest of them stands at the highest degree. -/
noncomputable def reflected (width n : Nat) : (ZMod 2)[X] :=
  ∑ i ∈ Finset.range width, if n.testBit i then X ^ (width - 1 - i) else 0

/-- What octets are divided by. -/
noncomputable def divisor : (ZMod 2)[X] := X ^ 64 + (X ^ 4 + X ^ 3 + X + 1)

/-- The polynomial of a word with all bits set. -/
noncomputable def full : (ZMod 2)[X] := ∑ i ∈ Finset.range 64, X ^ i

theorem reflected_zero (width : Nat) : reflected width 0 = 0 := by
  simp [reflected]

theorem reflected_xor (width m n : Nat) :
    reflected width (m ^^^ n) = reflected width m + reflected width n := by
  rw [reflected, reflected, reflected, ← Finset.sum_add_distrib]
  refine Finset.sum_congr rfl fun i _ => ?_
  rw [Nat.testBit_xor]
  cases m.testBit i <;> cases n.testBit i <;> simp [CharTwo.add_self_eq_zero]

/-- The low bits of a number stand above the others. -/
theorem reflected_add (low high n : Nat) : reflected (low + high) n
    = X ^ high * reflected low n + reflected high (n / 2 ^ low) := by
  rw [reflected, reflected, reflected, Finset.sum_range_add, Finset.mul_sum]
  congr 1
  · refine Finset.sum_congr rfl fun i hi => ?_
    rw [Finset.mem_range] at hi
    have hdegree : low + high - 1 - i = high + (low - 1 - i) := by omega
    rw [mul_ite, mul_zero, ← pow_add, hdegree]
  · refine Finset.sum_congr rfl fun i _ => ?_
    have hdegree : low + high - 1 - (low + i) = high - 1 - i := by omega
    rw [Nat.testBit_div_two_pow, hdegree, Nat.add_comm i]

theorem degree_reflected_lt (width n : Nat) : (reflected width n).degree < width := by
  rw [← mem_degreeLT]
  refine Submodule.sum_mem _ fun i hi => ?_
  rw [Finset.mem_range] at hi
  split
  · rw [mem_degreeLT, degree_X_pow]
    exact_mod_cast (by omega : width - 1 - i < width)
  · exact Submodule.zero_mem _

theorem reflected_ones : reflected 64 ones.toNat = full := by
  have hones : ones.toNat = 2 ^ 64 - 1 := rfl
  rw [reflected, full, hones, ← Finset.sum_range_reflect fun i => X ^ i]
  refine Finset.sum_congr rfl fun i hi => ?_
  rw [Finset.mem_range] at hi
  rw [Nat.testBit_two_pow_sub_one, decide_eq_true hi, if_pos rfl]

theorem reflected_generator : reflected 64 generator.toNat = X ^ 4 + X ^ 3 + X + 1 := by
  have hgenerator : generator.toNat = 2 ^ 56 * 0xD8 := rfl
  have hlow : reflected 56 (2 ^ 56 * 0xD8) = 0 := by
    refine Finset.sum_eq_zero fun i hi => ?_
    rw [Finset.mem_range] at hi
    rw [Nat.testBit_two_pow_mul, decide_eq_false (Nat.not_le.mpr hi), Bool.false_and]
    rfl
  rw [hgenerator, reflected_add 56 8, hlow, mul_zero, zero_add, Nat.mul_div_cancel_left _ (by decide)]
  simp [reflected, Finset.sum_range_succ, Nat.testBit]

/-! ## The divisor -/

theorem divisor_eq : divisor = X ^ 64 + reflected 64 generator.toNat := by
  rw [reflected_generator, divisor]

theorem monic_divisor : divisor.Monic := by
  rw [divisor]
  apply monic_X_pow_add
  compute_degree!

theorem degree_divisor : divisor.degree = (64 : Nat) := by
  rw [divisor]
  compute_degree!

/-! ## Division steps -/

/-- One degree up, the lowest bit of a word leaves it at the high end. -/
theorem X_mul_reflected (r : UInt64) : X * reflected 64 r.toNat
    = X ^ 64 * (if r.toNat % 2 = 1 then 1 else 0) + reflected 64 (r.toNat / 2) := by
  have hhigh : reflected (64 + 1) r.toNat = X * reflected 64 r.toNat := by
    rw [reflected_add, Nat.div_eq_of_lt r.toNat_lt, reflected_zero, add_zero, pow_one]
  have hlow : reflected 1 r.toNat = if r.toNat % 2 = 1 then 1 else 0 := by
    rw [reflected, Finset.sum_range_one, Nat.testBit_zero]
    simp
  rw [← hhigh, Nat.add_comm, reflected_add, hlow, pow_one]

/-- The residue that a remainder stands for. -/
noncomputable def residue (r : UInt64) : AdjoinRoot divisor :=
  AdjoinRoot.mk divisor (reflected 64 r.toNat)

/-- A division step multiplies by `X`. -/
theorem residue_shift (r : UInt64) : residue (shift r) = AdjoinRoot.root divisor * residue r := by
  rw [residue, residue, ← AdjoinRoot.mk_X, ← map_mul, X_mul_reflected]
  rcases Nat.mod_two_eq_zero_or_one r.toNat with heven | hodd
  · rw [shift_of_even heven, toNat_half, heven]
    simp
  · -- the bit that leaves is taken off with the divisor
    have hdivisor : X ^ 64 + reflected 64 (r.toNat / 2)
        = reflected 64 (r.toNat / 2 ^^^ generator.toNat) + divisor := by
      rw [divisor_eq, reflected_xor]
      linear_combination - CharTwo.add_self_eq_zero (reflected 64 generator.toNat)
    rw [shift_of_odd hodd, UInt64.toNat_xor, toNat_half, if_pos hodd, mul_one, hdivisor, map_add,
      AdjoinRoot.mk_self, add_zero]

theorem residue_shifts (n : Nat) (r : UInt64) :
    residue (shifts n r) = AdjoinRoot.root divisor ^ n * residue r := by
  induction n generalizing r with
  | zero => rw [shifts, pow_zero, one_mul]
  | succ n ih => rw [shifts, ih, residue_shift, pow_succ, mul_assoc]

/-- Before its division steps an octet stands in the highest eight degrees of a word. -/
theorem residue_xor_octet (r : UInt64) (b : UInt8) : residue (r ^^^ b.toUInt64)
    = residue r + AdjoinRoot.root divisor ^ 56 * AdjoinRoot.mk divisor (reflected 8 b.toNat) := by
  have hword : reflected 64 b.toNat = X ^ 56 * reflected 8 b.toNat := by
    rw [reflected_add 8 56, Nat.div_eq_of_lt b.toNat_lt, reflected_zero, add_zero]
  rw [residue, UInt64.toNat_xor, UInt8.toNat_toUInt64, reflected_xor, hword, map_add, map_mul,
    map_pow, AdjoinRoot.mk_X, residue]

/-- An octet enters sixty-four degrees up, and moves what is there by its own eight. -/
theorem residue_absorb (r : UInt64) (b : UInt8) :
    residue (absorb r b) = AdjoinRoot.root divisor ^ 8 * residue r
      + AdjoinRoot.root divisor ^ 64 * AdjoinRoot.mk divisor (reflected 8 b.toNat) := by
  rw [absorb, residue_shifts, residue_xor_octet]
  ring

end Checksum

/-- The polynomial of a byte string: its bits in order, the lowest of an octet first, the first of all
at the highest degree. -/
noncomputable def Bytes.polynomial : Bytes → (ZMod 2)[X]
  | [] => 0
  | b :: rest => X ^ (8 * rest.length) * Checksum.reflected 8 b.toNat + polynomial rest

namespace Checksum

theorem residue_foldl_absorb (r : UInt64) (bytes : Bytes) :
    residue (bytes.foldl absorb r) = AdjoinRoot.root divisor ^ (8 * bytes.length) * residue r
      + AdjoinRoot.root divisor ^ 64 * AdjoinRoot.mk divisor bytes.polynomial := by
  induction bytes generalizing r with
  | nil => simp [Bytes.polynomial]
  | cons b bytes ih =>
    rw [List.foldl_cons, ih, residue_absorb, Bytes.polynomial, List.length_cons, map_add, map_mul,
      map_pow, AdjoinRoot.mk_X]
    ring

/-- A remainder is what the division leaves of its residue. -/
theorem reflected_eq_of_residue_eq {r : UInt64} {p : (ZMod 2)[X]}
    (h : residue r = AdjoinRoot.mk divisor p) : reflected 64 r.toNat = p %ₘ divisor := by
  have hsmall : (reflected 64 r.toNat).degree < divisor.degree := by
    rw [degree_divisor]
    exact degree_reflected_lt 64 _
  rw [← modByMonic_eq_of_dvd_sub monic_divisor (AdjoinRoot.mk_eq_mk.mp h),
    (modByMonic_eq_self_iff monic_divisor).mpr hsmall]

/-- A checksum is what the division leaves of the octets, with the first sixty-four bits flipped before
it and all bits flipped after it. -/
theorem reflected_checksum (bytes : Bytes) : reflected 64 (checksum bytes).toNat
    = (X ^ 64 * bytes.polynomial + X ^ (8 * bytes.length) * full) %ₘ divisor + full := by
  have hchecksum : checksum bytes = bytes.foldl absorb ones ^^^ ones := rfl
  have hresidue : residue (bytes.foldl absorb ones)
      = AdjoinRoot.mk divisor (X ^ 64 * bytes.polynomial + X ^ (8 * bytes.length) * full) := by
    rw [residue_foldl_absorb, residue, reflected_ones, map_add, map_mul, map_mul, map_pow, map_pow,
      AdjoinRoot.mk_X, add_comm]
  rw [hchecksum, UInt64.toNat_xor, reflected_xor, reflected_ones,
    reflected_eq_of_residue_eq hresidue]

end Checksum

end Crossroads

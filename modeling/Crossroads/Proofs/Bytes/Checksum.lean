import Crossroads.Bytes.Checksum
import Mathlib.Data.Nat.Bitwise
import Mathlib.Data.UInt
import Mathlib.Tactic.Ring

/-!
# Checksums tell bursts apart

A division step is linear (`Checksum.shift_xor`) and loses nothing (`Checksum.shift_injective`).  So
remainders that differ differ for ever, and the octets of one word do to a remainder what the word
does at once (`Checksum.foldl_absorb_word`).

A `Bytes.Burst` is damage within eight neighbouring octets, which is as much as a remainder holds:

* `Digest.update_ne_of_burst` — after a burst, every digest is another one.
* `Digest.update_checksum` — octets that are followed by their checksum always leave the same
  remainder, so that a burst is noticed in the checksum as well.
-/

namespace Crossroads

namespace Bytes

/-- Words of one width that stand for one number are the same. -/
theorem eq_of_ofLittleEndian_eq {xs ys : Bytes} (hlength : xs.length = ys.length)
    (h : ofLittleEndian xs = ofLittleEndian ys) : xs = ys := by
  induction xs generalizing ys with
  | nil => exact (List.length_eq_zero_iff.mp hlength.symm).symm
  | cons x xs ih =>
    cases ys with
    | nil => cases hlength
    | cons y ys =>
      have hx := x.toNat_lt
      have hy := y.toNat_lt
      rw [ofLittleEndian, ofLittleEndian] at h
      have hfirst : x = y := UInt8.toNat_inj.mp (by omega)
      rw [hfirst, ih (Nat.succ.inj hlength) (by omega)]

/-! ## Bursts -/

/-- The second byte string is the first one after damage: it is as long but not the same, and differs
only within some eight neighbouring octets. -/
structure Burst (xs ys : Bytes) : Prop where
  length : ys.length = xs.length
  damaged : ys ≠ xs
  window : ∃ start, ∀ i, ys[i]? ≠ xs[i]? → start ≤ i ∧ i < start + 8

/-- Other octets in place of as many make a difference there only. -/
theorem inside_of_getElem?_ne {front old new rest : Bytes} (hlength : old.length = new.length)
    {i : Nat} (h : (front ++ new ++ rest)[i]? ≠ (front ++ old ++ rest)[i]?) :
    front.length ≤ i ∧ i < front.length + old.length := by
  by_contra houtside
  apply h
  rcases Nat.lt_or_ge i front.length with hbefore | hafter
  · rw [List.append_assoc, List.append_assoc, List.getElem?_append_left hbefore,
      List.getElem?_append_left hbefore]
  · have hold : (front ++ old).length ≤ i := by
      rw [List.length_append]
      omega
    have hnew : (front ++ new).length ≤ i := by
      rwa [List.length_append, ← hlength, ← List.length_append]
    rw [List.getElem?_append_right hnew, List.getElem?_append_right hold, List.length_append,
      List.length_append, hlength]

/-- A burst puts other octets in place of eight at most. -/
theorem burst_iff {xs ys : Bytes} : Burst xs ys ↔ ∃ front old new rest : Bytes,
    xs = front ++ old ++ rest ∧ ys = front ++ new ++ rest ∧
      old.length = new.length ∧ old.length ≤ 8 ∧ old ≠ new := by
  constructor
  · rintro ⟨hlength, hdamaged, start, hwindow⟩
    have hsame : ∀ i, i < start ∨ start + 8 ≤ i → ys[i]? = xs[i]? := by
      intro i hi
      by_contra hne
      have hinside := hwindow i hne
      omega
    have hfront : ys.take start = xs.take start := by
      apply List.ext_getElem?
      intro i
      rw [List.getElem?_take, List.getElem?_take]
      split
      · rename_i hi
        exact hsame i (.inl hi)
      · rfl
    have hrest : ys.drop (start + 8) = xs.drop (start + 8) := by
      apply List.ext_getElem?
      intro i
      rw [List.getElem?_drop, List.getElem?_drop]
      exact hsame _ (.inr (Nat.le_add_right _ _))
    have hsplit : ∀ zs : Bytes,
        zs = zs.take start ++ (zs.drop start).take 8 ++ zs.drop (start + 8) := by
      intro zs
      rw [List.append_assoc, ← List.drop_drop, List.take_append_drop, List.take_append_drop]
    refine ⟨xs.take start, (xs.drop start).take 8, (ys.drop start).take 8, xs.drop (start + 8),
      hsplit xs, ?_, ?_, List.length_take_le 8 _, ?_⟩
    · rw [← hfront, ← hrest]
      exact hsplit ys
    · rw [List.length_take, List.length_take, List.length_drop, List.length_drop, hlength]
    · intro heq
      apply hdamaged
      rw [hsplit ys, hfront, hrest, ← heq, ← hsplit xs]
  · rintro ⟨front, old, new, rest, rfl, rfl, hlength, hshort, hne⟩
    refine ⟨?_, ?_, front.length, ?_⟩
    · simp only [List.length_append, hlength]
    · intro heq
      exact hne (List.append_cancel_left (List.append_cancel_right heq)).symm
    · intro i hi
      have hinside := inside_of_getElem?_ne hlength hi
      omega

end Bytes

namespace Checksum

/-! ## Division steps -/

section Steps

variable {r : UInt64}

theorem toNat_low (r : UInt64) : (r &&& 1).toNat = r.toNat % 2 := by
  rw [UInt64.toNat_and]
  exact Nat.and_one_is_mod _

theorem shift_of_even (h : r.toNat % 2 = 0) : shift r = r >>> 1 := by
  have hlow : r &&& 1 = 0 := UInt64.toNat_inj.mp ((toNat_low r).trans h)
  rw [shift, hlow]
  rfl

theorem shift_of_odd (h : r.toNat % 2 = 1) : shift r = r >>> 1 ^^^ generator := by
  have hlow : r &&& 1 = 1 := UInt64.toNat_inj.mp ((toNat_low r).trans h)
  rw [shift, hlow]
  rfl

theorem toNat_half (r : UInt64) : (r >>> 1).toNat = r.toNat / 2 := by
  rw [UInt64.toNat_shiftRight]
  exact Nat.shiftRight_eq_div_pow _ 1

/-- A division step is linear: the difference of two remainders becomes the difference of what they
become. -/
theorem shift_xor (r s : UInt64) : shift (r ^^^ s) = shift r ^^^ shift s := by
  have hparity : (r ^^^ s).toNat % 2 = (r.toNat % 2) ^^^ (s.toNat % 2) := by
    rw [UInt64.toNat_xor]
    exact Nat.xor_mod_two_pow (n := 1)
  rcases Nat.mod_two_eq_zero_or_one r.toNat with hr | hr <;>
    rcases Nat.mod_two_eq_zero_or_one s.toNat with hs | hs <;>
    rw [hr, hs] at hparity
  · rw [shift_of_even hparity, shift_of_even hr, shift_of_even hs, UInt64.shiftRight_xor]
  · rw [shift_of_odd hparity, shift_of_even hr, shift_of_odd hs, UInt64.shiftRight_xor,
      UInt64.xor_assoc]
  · rw [shift_of_odd hparity, shift_of_odd hr, shift_of_even hs, UInt64.shiftRight_xor,
      UInt64.xor_assoc, UInt64.xor_assoc, UInt64.xor_comm (s >>> 1)]
  · -- the generator is taken off both, so it leaves the difference alone
    rw [shift_of_even hparity, shift_of_odd hr, shift_of_odd hs, UInt64.shiftRight_xor,
      UInt64.xor_comm (s >>> 1), UInt64.xor_assoc, ← UInt64.xor_assoc generator,
      UInt64.xor_self, UInt64.zero_xor]

/-- Only an empty remainder becomes empty: a bit that leaves it at the low end comes in again at the
high end, with the leading term of the generator. -/
theorem eq_zero_of_shift_eq_zero (h : shift r = 0) : r = 0 := by
  have hhalf := toNat_half r
  have hr := r.toNat_lt
  rcases Nat.mod_two_eq_zero_or_one r.toNat with heven | hodd
  · rw [shift_of_even heven] at h
    rw [h, UInt64.toNat_zero] at hhalf
    apply UInt64.toNat_inj.mp
    rw [UInt64.toNat_zero]
    omega
  · rw [shift_of_odd hodd, UInt64.xor_eq_zero_iff] at h
    have hgenerator : generator.toNat = 0xD800000000000000 := rfl
    rw [h, hgenerator] at hhalf
    omega

theorem shift_injective : Function.Injective shift := by
  intro r s h
  apply UInt64.xor_eq_zero_iff.mp
  apply eq_zero_of_shift_eq_zero
  rw [shift_xor, h, UInt64.xor_self]

theorem shift_double {n : Nat} (h : 2 * n < UInt64.size) :
    shift (UInt64.ofNat (2 * n)) = UInt64.ofNat n := by
  have hdouble : (UInt64.ofNat (2 * n)).toNat = 2 * n := UInt64.toNat_ofNat_of_lt' h
  have hn : (UInt64.ofNat n).toNat = n := UInt64.toNat_ofNat_of_lt' (by omega)
  rw [shift_of_even (by omega)]
  apply UInt64.toNat_inj.mp
  rw [toNat_half]
  omega

end Steps

theorem shifts_add (m n : Nat) (r : UInt64) : shifts (m + n) r = shifts n (shifts m r) := by
  induction m generalizing r with
  | zero => rw [Nat.zero_add, shifts]
  | succ m ih => rw [Nat.succ_add, shifts, shifts, ih]

theorem shifts_xor (n : Nat) (r s : UInt64) : shifts n (r ^^^ s) = shifts n r ^^^ shifts n s := by
  induction n generalizing r s with
  | zero => rfl
  | succ n ih => rw [shifts, shifts, shifts, shift_xor, ih]

theorem shifts_injective (n : Nat) : Function.Injective (shifts n) := by
  induction n with
  | zero => exact Function.injective_id
  | succ n ih => exact ih.comp shift_injective

/-- Bits that have not come to the low end only move towards it. -/
theorem shifts_two_pow_mul {k n : Nat} (h : 2 ^ k * n < UInt64.size) :
    shifts k (UInt64.ofNat (2 ^ k * n)) = UInt64.ofNat n := by
  induction k with
  | zero => rw [pow_zero, Nat.one_mul, shifts]
  | succ k ih =>
    have hdouble : 2 ^ (k + 1) * n = 2 * (2 ^ k * n) := by ring
    rw [hdouble] at h ⊢
    rw [shifts, shift_double h, ih (by omega)]

/-! ## Octets -/

theorem absorb_injective (b : UInt8) : Function.Injective fun r => absorb r b :=
  (shifts_injective 8).comp fun _ _ h => (UInt64.xor_left_inj _).mp h

/-- Remainders that differ differ for ever. -/
theorem foldl_absorb_injective (bytes : Bytes) : Function.Injective fun r => bytes.foldl absorb r := by
  induction bytes with
  | nil => exact Function.injective_id
  | cons b bytes ih => exact ih.comp (absorb_injective b)

/-- The lowest octet of a word has no bit in common with the others. -/
theorem ofNat_octet_add (b : UInt8) (n : Nat) :
    UInt64.ofNat (b.toNat + 256 * n) = b.toUInt64 ^^^ UInt64.ofNat (2 ^ 8 * n) := by
  have hb : b.toNat < 2 ^ 8 := b.toNat_lt
  have hword : b.toUInt64 = UInt64.ofNat b.toNat := by
    apply UInt64.toNat_inj.mp
    rw [UInt8.toNat_toUInt64, UInt64.toNat_ofNat_of_lt' (Nat.lt_trans hb (by decide))]
  have hsum : b.toNat + 256 * n = 2 ^ 8 * n + b.toNat := Nat.add_comm _ _
  have hdisjoint : b.toNat + 256 * n = b.toNat ^^^ (2 ^ 8 * n + 0) := by
    apply Nat.eq_of_testBit_eq
    intro i
    rw [Nat.testBit_xor, hsum, Nat.testBit_two_pow_mul_add n hb,
      Nat.testBit_two_pow_mul_add n (Nat.two_pow_pos 8)]
    by_cases hi : i < 8
    · simp [hi]
    · have hhigh : b.toNat < 2 ^ i :=
        Nat.lt_of_lt_of_le hb (Nat.pow_le_pow_right Nat.two_pos (Nat.not_lt.mp hi))
      simp [hi, Nat.testBit_lt_two_pow hhigh]
  rw [hdisjoint, UInt64.ofNat_xor, hword, Nat.add_zero]

/-- The octets of a word, lowest first, can all be taken in before the first division step. -/
theorem foldl_absorb_word (r : UInt64) {bytes : Bytes} (h : bytes.length ≤ 8) :
    bytes.foldl absorb r
      = shifts (8 * bytes.length) (r ^^^ UInt64.ofNat (Bytes.ofLittleEndian bytes)) := by
  induction bytes generalizing r with
  | nil => exact UInt64.xor_zero.symm
  | cons b bytes ih =>
    rw [List.length_cons] at h ⊢
    have hroom : 2 ^ 8 * Bytes.ofLittleEndian bytes < UInt64.size := by
      have hlt := Bytes.ofLittleEndian_lt bytes
      have hle : Nat.pow 256 bytes.length ≤ Nat.pow 256 7 :=
        Nat.pow_le_pow_right (by decide) (by omega)
      have hpow : 2 ^ 8 * Nat.pow 256 7 = UInt64.size := rfl
      omega
    have hsteps : 8 * (bytes.length + 1) = 8 + 8 * bytes.length := by omega
    rw [List.foldl_cons, ih _ (by omega), hsteps, shifts_add]
    congr 1
    rw [Bytes.ofLittleEndian, ofNat_octet_add, ← UInt64.xor_assoc, shifts_xor,
      shifts_two_pow_mul hroom, absorb]

/-- Octets that fit into a word can be told from what they do to a remainder. -/
theorem eq_of_foldl_absorb_eq {r : UInt64} {old new : Bytes} (hlength : old.length = new.length)
    (hshort : old.length ≤ 8) (h : old.foldl absorb r = new.foldl absorb r) : old = new := by
  have hword : ∀ {bytes : Bytes}, bytes.length ≤ 8 →
      Bytes.ofLittleEndian bytes < UInt64.size := by
    intro bytes hbytes
    exact Nat.lt_of_lt_of_le (Bytes.ofLittleEndian_lt bytes)
      (Nat.pow_le_pow_right (by decide) hbytes)
  rw [foldl_absorb_word r hshort, foldl_absorb_word r (hlength ▸ hshort), hlength] at h
  have hsame := (UInt64.xor_right_inj r).mp (shifts_injective _ h)
  apply Bytes.eq_of_ofLittleEndian_eq hlength
  rw [← UInt64.toNat_ofNat_of_lt' (hword hshort), hsame,
    UInt64.toNat_ofNat_of_lt' (hword (hlength ▸ hshort))]

end Checksum

/-! ## Digests -/

namespace Digest

/-- After a burst, every digest is another one. -/
theorem update_ne_of_burst (d : Digest) {xs ys : Bytes} (h : xs.Burst ys) :
    d.update ys ≠ d.update xs := by
  obtain ⟨front, old, new, rest, rfl, rfl, hlength, hshort, hne⟩ := Bytes.burst_iff.mp h
  intro heq
  rw [update_append, update_append, update_append, update_append] at heq
  have hwindow := Checksum.foldl_absorb_injective rest (congrArg remainder heq)
  exact hne (Checksum.eq_of_foldl_absorb_eq hlength hshort hwindow.symm)

theorem checksum_ne_of_burst {xs ys : Bytes} (h : xs.Burst ys) : checksum ys ≠ checksum xs := by
  intro heq
  have hremainder := (UInt64.xor_left_inj _).mp heq
  exact empty.update_ne_of_burst h (congrArg mk hremainder)

/-- Octets that are followed by their checksum always leave the same remainder. -/
theorem update_checksum {bytes word : Bytes} (hlength : word.length = 8)
    (h : Bytes.ofLittleEndian word = (checksum bytes).toNat) :
    empty.update (bytes ++ word) = ⟨Checksum.shifts 64 Checksum.ones⟩ := by
  have hword : UInt64.ofNat (Bytes.ofLittleEndian word)
      = (empty.update bytes).remainder ^^^ Checksum.ones := by
    rw [h, UInt64.ofNat_toNat]
    rfl
  rw [update_append, update, Checksum.foldl_absorb_word _ (Nat.le_of_eq hlength), hword, hlength,
    ← UInt64.xor_assoc, UInt64.xor_self, UInt64.zero_xor]

end Digest

end Crossroads

import Crossroads.Proofs.Bytes.Number

/-!
# Words read back, from as few octets as can be

A word is written by taking seven bits after another off its lower end (`Varint.encode_toNat`), and
no fewer octets are read as the same word (`Varint.exists_taken`).  Signed words are folded onto
unsigned ones before that.  What folding and unfolding do to the number that a word stands for is
said by `Zigzag.toNat_encode` and `Zigzag.toInt_decode`, and that they undo one another follows from
there.

* `Varint.words_read_back` — all of it, for any number of words one after another.
-/

namespace Crossroads

namespace Varint

/-! ## The octets of a word -/

theorem toNat_shiftRight_group (u : UInt64) : (u >>> 7).toNat = u.toNat / 128 := by
  rw [UInt64.toNat_shiftRight]
  exact Nat.shiftRight_eq_div_pow _ _

/-- The highest bit of an octet can be set whether or not it is. -/
theorem toNat_or_high (b : UInt8) : (b ||| 0x80).toNat = b.toNat % 128 + 128 := by
  have hb := b.toNat_lt
  have hhigh (low : ℕ) (h : low < 2 ^ 7) : 128 ||| low = low + 128 := by
    rw [Nat.add_comm]
    exact (Nat.two_pow_add_eq_or_of_lt h 1).symm
  rw [UInt8.toNat_or]
  show b.toNat ||| 128 = _
  rcases Nat.lt_or_ge b.toNat 128 with hclear | hset
  · rw [Nat.or_comm, hhigh _ hclear, Nat.mod_eq_of_lt hclear]
  · have hlow : b.toNat - 128 < 2 ^ 7 := by omega
    have hparts : b.toNat = 128 ||| (b.toNat - 128) := by
      rw [hhigh _ hlow]
      omega
    rw [hparts, Nat.or_comm, ← Nat.or_assoc, Nat.or_self, hhigh _ hlow]
    omega

/-- A word is written by shifting it to the right, seven bits at a time. -/
theorem encode_toNat (u : UInt64) : encode u.toNat
    = if u < 0x80 then [u.toUInt8] else (u.toUInt8 ||| 0x80) :: encode (u >>> 7).toNat := by
  have hoctet : u.toUInt8.toNat = u.toNat % 256 := UInt64.toNat_toUInt8 u
  have hsmall : u < 0x80 ↔ u.toNat < 128 := UInt64.lt_iff_toNat_lt
  rw [encode, if_congr hsmall rfl rfl]
  split
  · rfl
  · have hfirst : UInt8.ofNat (u.toNat % 128 + 128) = u.toUInt8 ||| 0x80 := by
      apply UInt8.toNat_inj.mp
      rw [toNat_or_high, hoctet, UInt8.toNat_ofNat_of_lt' (show _ < 256 by omega)]
      omega
    rw [hfirst, toNat_shiftRight_group]

/-! ## No fewer octets -/

theorem IsNumber.length_pos {octets : Bytes} (h : IsNumber octets) : 0 < octets.length := by
  cases h <;> exact Nat.succ_pos _

/-- Octets that stand for a number are no fewer than those it is written with. -/
theorem length_encode_le_of_le_value {octets : Bytes} (h : IsNumber octets) {n : ℕ}
    (hn : n ≤ value octets) : (encode n).length ≤ octets.length := by
  obtain ⟨k, hk⟩ := Nat.exists_eq_add_of_le' h.length_pos
  have hlt := value_lt octets
  rw [hk] at hlt ⊢
  exact Decoder.length_encode_le (Nat.lt_of_le_of_lt hn hlt)

/-- However a word is read, at least as many octets are taken as it is written with. -/
theorem exists_taken {what : String} {bytes rest : Bytes} {u : UInt64}
    (h : Decoder.runOn (Decoder.number what) bytes = (.ok u, rest)) :
    ∃ taken, bytes = taken ++ rest ∧ (encode u.toNat).length ≤ taken.length := by
  rcases exists_number_or 10 bytes with ⟨taken, left, rfl, hnumber, hlength⟩ | hendless
  · have hread : Decoder.Reads (Decoder.number what) taken _ :=
      Decoder.reads_number_of_isNumber hnumber hlength
    rw [hread left] at h
    cases h
    -- what is beyond the word is lost, so that the number can only be less
    have hle : (UInt64.ofNat (value taken)).toNat ≤ value taken := by
      rw [UInt64.toNat_ofNat']
      exact Nat.mod_le _ _
    exact ⟨taken, rfl, length_encode_le_of_le_value hnumber hle⟩
  · rw [Decoder.runOn_number_of_forall hendless] at h
    cases h

end Varint

/-! ## Signed numbers -/

namespace Zigzag

theorem toNat_shiftLeft_one (b : BitVec 64) : (b <<< 1).toNat = 2 * b.toNat % 2 ^ 64 := by
  rw [BitVec.toNat_shiftLeft, Nat.shiftLeft_eq, Nat.pow_one, Nat.mul_comm]

theorem toNat_ushiftRight_one (b : BitVec 64) : (b >>> 1).toNat = b.toNat / 2 := by
  rw [BitVec.toNat_ushiftRight, Nat.shiftRight_eq_div_pow, Nat.pow_one]

theorem and_one_eq {b : BitVec 64} {n : Nat} (h : b.toNat % 2 = n) :
    b &&& 1 = BitVec.ofNat 64 n := by
  apply BitVec.eq_of_toNat_eq
  rw [BitVec.toNat_and, BitVec.toNat_ofNat]
  have hone : b.toNat &&& (1 : BitVec 64).toNat = b.toNat % 2 := Nat.and_one_is_mod _
  omega

/-- The sign, in all bits. -/
theorem sshiftRight_sign (b : BitVec 64) :
    b.sshiftRight 63 = if 2 * b.toNat < 2 ^ 64 then 0#64 else BitVec.allOnes 64 := by
  have hb := b.isLt
  apply BitVec.eq_of_toNat_eq
  split
  · rename_i hpos
    rw [BitVec.sshiftRight_eq_of_msb_false (BitVec.msb_eq_false_iff_two_mul_lt.mpr hpos),
      BitVec.toNat_ushiftRight, Nat.shiftRight_eq_div_pow, BitVec.toNat_ofNat]
    omega
  · rename_i hneg
    rw [BitVec.sshiftRight_eq_of_msb_true
        (BitVec.msb_eq_true_iff_two_mul_ge.mpr (Nat.not_lt.mp hneg)),
      BitVec.toNat_not, BitVec.toNat_ushiftRight, BitVec.toNat_not, Nat.shiftRight_eq_div_pow,
      BitVec.toNat_allOnes]
    omega

/-- Folding doubles the size of a number and puts the sign below it. -/
theorem toNat_encode (v : Int64) : ((encode v).toNat : ℤ)
    = if 0 ≤ v.toInt then 2 * v.toInt else -2 * v.toInt - 1 := by
  have hbits : (encode v).toNat = (v.toBitVec <<< 1 ^^^ v.toBitVec.sshiftRight 63).toNat := rfl
  have hvalue : v.toInt = v.toBitVec.toInt := rfl
  rw [hbits, hvalue, BitVec.toInt_eq_toNat_cond, sshiftRight_sign]
  generalize v.toBitVec = b
  have hb := b.isLt
  split
  · rw [BitVec.xor_zero, toNat_shiftLeft_one]
    omega
  · rw [BitVec.xor_allOnes, BitVec.toNat_not, toNat_shiftLeft_one]
    omega

/-- Unfolding halves a number, and turns the odd ones. -/
theorem toInt_decode (u : UInt64) : (decode u).toInt
    = if u.toNat % 2 = 0 then (u.toNat : ℤ) / 2 else -((u.toNat : ℤ) / 2) - 1 := by
  have hvalue : (decode u).toInt = (u.toBitVec >>> 1 ^^^ -(u.toBitVec &&& 1)).toInt := rfl
  have hu : u.toNat = u.toBitVec.toNat := rfl
  rw [hvalue, hu]
  generalize u.toBitVec = b
  have hb := b.isLt
  split
  · rename_i heven
    rw [and_one_eq heven, BitVec.neg_zero, BitVec.xor_zero, BitVec.toInt_eq_toNat_cond,
      toNat_ushiftRight_one]
    omega
  · rename_i hodd
    have hones : -1#64 = BitVec.allOnes 64 := by decide
    rw [and_one_eq (Nat.mod_two_ne_zero.mp hodd), hones, BitVec.xor_allOnes,
      BitVec.toInt_eq_toNat_cond, BitVec.toNat_not, toNat_ushiftRight_one]
    omega

theorem decode_encode (v : Int64) : decode (encode v) = v := by
  have hencode := toNat_encode v
  apply Int64.toInt_inj.mp
  rw [toInt_decode]
  split at hencode <;> split <;> omega

theorem encode_decode (u : UInt64) : encode (decode u) = u := by
  have hencode := toNat_encode (decode u)
  rw [toInt_decode] at hencode
  apply UInt64.toNat_inj.mp
  split at hencode <;> split at hencode <;> omega

end Zigzag

namespace Varint

open Decoder (runOn)

/-! ## Words one after another -/

/-- **Words read back, and are written as short as can be.**  Words that are written one after
another, each by shifting it to the right, are read back in order, and just what follows them is left.
No fewer octets are read as the same word.  Signed words are folded onto all others and back. -/
theorem words_read_back (what : String) :
    (∀ u : UInt64, encode u.toNat
      = if u < 0x80 then [u.toUInt8] else (u.toUInt8 ||| 0x80) :: encode (u >>> 7).toNat) ∧
    (∀ (words : List UInt64) (rest : Bytes),
      runOn (Decoder.times (Decoder.number what) words.length)
        (words.flatMap (fun u => encode u.toNat) ++ rest) = (.ok words, rest)) ∧
    (∀ (bytes rest : Bytes) (u : UInt64), runOn (Decoder.number what) bytes = (.ok u, rest) →
      ∃ taken, bytes = taken ++ rest ∧ (encode u.toNat).length ≤ taken.length) ∧
    (∀ v : Int64, Zigzag.decode (Zigzag.encode v) = v) ∧
    (∀ u : UInt64, Zigzag.encode (Zigzag.decode u) = u) ∧
    ∀ v : Int64, ((Zigzag.encode v).toNat : ℤ)
      = if 0 ≤ v.toInt then 2 * v.toInt else -2 * v.toInt - 1 := by
  refine ⟨encode_toNat, ?_, fun _ _ _ h => exists_taken h, Zigzag.decode_encode,
    Zigzag.encode_decode, Zigzag.toNat_encode⟩
  intro words rest
  have hread := Decoder.Reads.times words fun u _ => Decoder.reads_number what u
  rw [List.map_id'] at hread
  exact hread rest

/-- The greatest word between others, five in more octets than it takes, and the least signed word. -/
theorem greatest_word_read_back :
    runOn (Decoder.times (Decoder.number "list") 3)
      ([300, 0xFFFFFFFFFFFFFFFF, 0].flatMap (fun u : UInt64 => encode u.toNat) ++ [1, 2])
        = (.ok [300, 0xFFFFFFFFFFFFFFFF, 0], [1, 2]) ∧
    runOn (Decoder.number "list") [0x85, 0x80, 0x00, 7] = (.ok 5, [7]) ∧
    (∃ taken : Bytes, [0x85, 0x80, 0x00, 7] = taken ++ [7] ∧
      (encode (5 : UInt64).toNat).length ≤ taken.length) ∧
    Zigzag.decode (Zigzag.encode Int64.minValue) = Int64.minValue ∧
    ((Zigzag.encode Int64.minValue).toNat : ℤ) = 2 ^ 64 - 1 := by
  obtain ⟨-, hwords, hshortest, hunfold, -, hfold⟩ := words_read_back "list"
  have hlong : runOn (Decoder.number "list") [0x85, 0x80, 0x00, 7] = (.ok 5, [7]) := rfl
  exact ⟨hwords [300, 0xFFFFFFFFFFFFFFFF, 0] [1, 2], hlong, hshortest _ _ _ hlong, hunfold _,
    (hfold _).trans (by decide)⟩

end Varint

end Crossroads

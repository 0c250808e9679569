import Crossroads.Proofs.Bytes.Decoder
import Mathlib.Data.Nat.Digits.Defs

/-!
# Numbers that no word holds

Ten octets have room for seventy bits, six more than a word.  A number that takes them is not
refused: it is read modulo what a word can hold, and so comes back as a smaller one, which then
passes for an identifier, a count or a weight.

* `Decoder.reads_number_of_isNumber`, `Decoder.runOn_number_of_forall` — what is read of octets that
  nobody wrote.
* `Decoder.numbers_exact_iff` — when that is the number itself.
-/

namespace Crossroads

namespace Varint

/-- The octets of one number: all but the last have their highest bit set. -/
inductive IsNumber : Bytes → Prop
  | last {b : UInt8} (h : b < 128) : IsNumber [b]
  | more {b : UInt8} {octets : Bytes} (h : 128 ≤ b) (rest : IsNumber octets) : IsNumber (b :: octets)

/-- The number that octets stand for, seven bits each, the lowest ones first. -/
def value (octets : Bytes) : Nat := Nat.ofDigits 128 (octets.map fun b => b.toNat % 128)

theorem isNumber_concat {front : Bytes} {last : UInt8} (hfront : ∀ b ∈ front, 128 ≤ b)
    (hlast : last < 128) : IsNumber (front ++ [last]) := by
  induction front with
  | nil => exact .last hlast
  | cons b front ih =>
    obtain ⟨hb, hrest⟩ := List.forall_mem_cons.mp hfront
    exact .more hb (ih hrest)

theorem value_lt (octets : Bytes) : value octets < 128 ^ octets.length := by
  have hlt : ∀ digit ∈ octets.map fun b => b.toNat % 128, digit < 128 := by
    intro digit hdigit
    obtain ⟨b, -, rfl⟩ := List.mem_map.mp hdigit
    exact Nat.mod_lt _ (by decide)
  have hdigits := Nat.ofDigits_lt_base_pow_length (by decide : 1 < 128) hlt
  rwa [List.length_map] at hdigits

/-- Octets begin with a number, unless their highest bits go on being set. -/
theorem exists_number_or (limit : Nat) (bytes : Bytes) :
    (∃ taken rest, bytes = taken ++ rest ∧ IsNumber taken ∧ taken.length ≤ limit) ∨
      ∀ b ∈ bytes.take limit, 128 ≤ b := by
  induction limit generalizing bytes with
  | zero => exact .inr fun b hb => nomatch hb
  | succ limit ih =>
    cases bytes with
    | nil => exact .inr fun b hb => nomatch hb
    | cons b bytes =>
      rcases UInt8.lt_or_le b 128 with hlast | hmore
      · exact .inl ⟨[b], bytes, rfl, .last hlast, Nat.succ_le_succ (Nat.zero_le _)⟩
      · rcases ih bytes with ⟨taken, rest, rfl, hnumber, hlength⟩ | hall
        · exact .inl ⟨b :: taken, rest, rfl, .more hmore hnumber, Nat.succ_le_succ hlength⟩
        · exact .inr (List.forall_mem_cons.mpr ⟨hmore, hall⟩)

theorem IsNumber.exists_last {octets : Bytes} (h : IsNumber octets) :
    ∃ front last, octets = front ++ [last] ∧ last < 128 := by
  induction h with
  | @last b hlast => exact ⟨[], b, rfl, hlast⟩
  | @more b octets _ _ ih =>
    obtain ⟨front, last, rfl, hlast⟩ := ih
    exact ⟨b :: front, last, rfl, hlast⟩

/-- A number of up to nine octets fits into a word.  The tenth octet may only have the one bit for
which there is still room. -/
theorem value_lt_size_iff {taken : Bytes} (h : IsNumber taken) (hlength : taken.length ≤ 10) :
    value taken < UInt64.size ↔ ∀ tenth ∈ taken[9]?, tenth ≤ 1 := by
  obtain ⟨front, last, rfl, hlast⟩ := h.exists_last
  have hsize : UInt64.size = 2 * 128 ^ 9 := rfl
  rw [List.length_append, List.length_singleton] at hlength
  rcases Nat.lt_or_ge front.length 9 with hshort | hlong
  · have hnone : (front ++ [last])[9]? = none := by
      rw [List.getElem?_eq_none_iff, List.length_append, List.length_singleton]
      exact hshort
    have hvalue := value_lt (front ++ [last])
    rw [List.length_append, List.length_singleton] at hvalue
    have hpower : 128 ^ (front.length + 1) ≤ 128 ^ 9 := Nat.pow_le_pow_right (by decide) hshort
    rw [hnone]
    exact iff_of_true (by omega) fun _ htenth => nomatch htenth
  · have hnine : front.length = 9 := by omega
    have htenth : (front ++ [last])[9]? = some last := by
      rw [← hnine, List.getElem?_concat_length]
    have hvalue : value (front ++ [last]) = value front + 128 ^ 9 * last.toNat := by
      have hb : last.toNat % 128 = last.toNat := Nat.mod_eq_of_lt (UInt8.lt_iff_toNat_lt.mp hlast)
      rw [value, List.map_append, Nat.ofDigits_append, List.length_map, hnine, List.map_singleton,
        Nat.ofDigits_singleton, hb, value]
    have hfront := value_lt front
    rw [hnine] at hfront
    have hone : last ≤ 1 ↔ last.toNat ≤ 1 := UInt8.le_iff_toNat_le
    rw [htenth, hvalue]
    simp only [Option.mem_def, Option.some.injEq, forall_eq', hone]
    omega

end Varint

namespace Decoder

open Varint (IsNumber value)

variable {α : Type} {what : String} {taken rest : Bytes}

/-! ## Octets that nobody wrote -/

theorem reads_groups_of_isNumber (h : IsNumber taken) :
    ∀ limit, taken.length ≤ limit → Reads (groups what limit) taken (value taken) := by
  induction h with
  | @last b hlast =>
    intro limit hlimit
    obtain ⟨limit, rfl⟩ := Nat.exists_eq_add_of_le' hlimit
    refine (reads_octet what b).bind_pure ?_
    have hb : b.toNat % 128 = b.toNat := Nat.mod_eq_of_lt (UInt8.lt_iff_toNat_lt.mp hlast)
    rw [if_pos hlast, value, List.map_singleton, Nat.ofDigits_singleton, hb]
  | @more b octets hmore _ ih =>
    intro limit hlimit
    obtain ⟨limit, rfl⟩ := Nat.exists_eq_add_of_le' (Nat.le_trans (Nat.succ_pos _) hlimit)
    have hrest := ih limit (Nat.le_of_succ_le_succ hlimit)
    refine (reads_octet what b).bind ?_
    rw [if_neg (UInt8.not_lt.mpr hmore)]
    refine hrest.bind_pure ?_
    rw [value, value, List.map_cons, Nat.ofDigits_cons]

theorem runOn_groups_of_forall {limit : Nat} {bytes : Bytes} (h : ∀ b ∈ bytes.take limit, 128 ≤ b) :
    runOn (groups what limit) bytes
      = (.error (if bytes.length < limit then .truncated what else .endlessNumber what),
        bytes.drop limit) := by
  induction limit generalizing bytes with
  | zero => rfl
  | succ limit ih =>
    cases bytes with
    | nil => rfl
    | cons b bytes =>
      obtain ⟨hb, hrest⟩ := List.forall_mem_cons.mp h
      have hoctet : runOn (octet what) (b :: bytes) = (.ok b, bytes) := rfl
      rw [groups, runOn_bind_ok hoctet, if_neg (UInt8.not_lt.mpr hb), runOn_bind_error (ih hrest)]
      simp

/-- Octets that go on as a number for ten octets, or up to their end, are refused. -/
theorem runOn_number_of_forall {bytes : Bytes} (h : ∀ b ∈ bytes.take 10, 128 ≤ b) :
    runOn (number what) bytes
      = (.error (if bytes.length < 10 then .truncated what else .endlessNumber what),
        bytes.drop 10) := by
  rw [number_eq, runOn_bind_error (runOn_groups_of_forall h)]

/-- A number of at most ten octets is read modulo what a word can hold. -/
theorem reads_number_of_isNumber (h : IsNumber taken) (hlength : taken.length ≤ 10) :
    Reads (number what) taken (UInt64.ofNat (value taken)) := by
  rw [number_eq]
  exact (reads_groups_of_isNumber h 10 hlength).bind_pure rfl

/-! ## Exact numbers -/

/-- Reading comes to the number `n` if it is below the bound, and to a failure otherwise. -/
def Yields (d : Decoder Damage α) (toNat : α → Nat) (bound n : Nat) (bytes rest : Bytes) : Prop :=
  if n < bound then ∃ a, runOn d bytes = (.ok a, rest) ∧ toNat a = n
  else ∃ damage left, runOn d bytes = (.error damage, left)

/-- What comes to a number modulo what a word can hold comes to the number itself, unless less than
all of it is accepted. -/
theorem yields_iff {d : Decoder Damage α} {toNat : α → Nat} {bound n : Nat} {bytes : Bytes}
    (h : Yields d toNat bound (n % UInt64.size) bytes rest) :
    Yields d toNat bound n bytes rest ↔ n < UInt64.size ∨ bound ≤ n % UInt64.size := by
  have hle := Nat.mod_le n UInt64.size
  by_cases hword : n < UInt64.size
  · rw [Nat.mod_eq_of_lt hword] at h
    exact iff_of_true h (.inl hword)
  by_cases hbound : bound ≤ n % UInt64.size
  · refine iff_of_true ?_ (.inr hbound)
    rw [Yields, if_neg (Nat.not_lt.mpr hbound)] at h
    rw [Yields, if_neg (Nat.not_lt.mpr (Nat.le_trans hbound hle))]
    exact h
  · refine iff_of_false ?_ (not_or.mpr ⟨hword, hbound⟩)
    have hless : n % UInt64.size < n :=
      Nat.lt_of_lt_of_le (Nat.mod_lt _ (by decide)) (Nat.not_lt.mp hword)
    rw [Yields, if_pos (Nat.not_le.mp hbound)] at h
    obtain ⟨a, hrun, ha⟩ := h
    intro hyields
    rw [Yields, hrun] at hyields
    split at hyields
    · obtain ⟨a', hrun', ha'⟩ := hyields
      cases hrun'
      omega
    · obtain ⟨damage, left, hrun'⟩ := hyields
      cases hrun'

section Runs

variable (rest) (h : IsNumber taken) (hlength : taken.length ≤ 10)

include h hlength

theorem yields_number : Yields (number what) UInt64.toNat UInt64.size
    (value taken % UInt64.size) (taken ++ rest) rest := by
  rw [Yields, if_pos (Nat.mod_lt _ (by decide))]
  exact ⟨_, reads_number_of_isNumber h hlength rest, UInt64.toNat_ofNat'⟩

theorem yields_number32 : Yields (number32 what) UInt32.toNat UInt32.size
    (value taken % UInt64.size) (taken ++ rest) rest := by
  have hword : (UInt64.ofNat (value taken)).toNat = value taken % UInt64.size := UInt64.toNat_ofNat'
  rw [Yields, runOn_number32 (reads_number_of_isNumber h hlength rest), hword]
  split
  · rename_i hlt
    exact ⟨_, rfl, UInt32.toNat_ofNat_of_lt' hlt⟩
  · exact ⟨_, _, rfl⟩

theorem yields_count : Yields (count what) id (rest.length + 1)
    (value taken % UInt64.size) (taken ++ rest) rest := by
  have hword : (UInt64.ofNat (value taken)).toNat = value taken % UInt64.size := UInt64.toNat_ofNat'
  rw [Yields, count, runOn_bind_ok (reads_number_of_isNumber h hlength rest),
    runOn_bind_ok (runOn_get rest), hword]
  by_cases hleft : rest.length < value taken % UInt64.size
  · rw [if_neg (by omega)]
    exact ⟨_, _, by rw [if_pos hleft]; rfl⟩
  · rw [if_pos (by omega)]
    exact ⟨_, by rw [if_neg hleft]; rfl, rfl⟩

end Runs

/-- **Numbers are read modulo what a word can hold.**  Octets begin with a number of at most ten
octets, or are refused.  The number comes back as it is just when it fits into a word, which only a
tenth octet can prevent.  A greater number should be refused and is not; as a number of 32 bits or as
a count it is refused just when what is left of it is too great as well. -/
theorem numbers_exact_iff (what : String) :
    (∀ bytes : Bytes, (∀ b ∈ bytes.take 10, 128 ≤ b) ∨
      ∃ taken rest, bytes = taken ++ rest ∧ IsNumber taken ∧ taken.length ≤ 10) ∧
    (∀ bytes : Bytes, (∀ b ∈ bytes.take 10, 128 ≤ b) →
      let damage := if bytes.length < 10 then Damage.truncated what else .endlessNumber what
      runOn (number what) bytes = (.error damage, bytes.drop 10) ∧
      runOn (number32 what) bytes = (.error damage, bytes.drop 10) ∧
      runOn (count what) bytes = (.error damage, bytes.drop 10)) ∧
    ∀ taken rest, IsNumber taken → taken.length ≤ 10 →
      let n := value taken
      let bytes := taken ++ rest
      runOn (number what) bytes = (.ok (UInt64.ofNat n), rest) ∧
      (Yields (number what) UInt64.toNat UInt64.size n bytes rest ↔ n < UInt64.size) ∧
      (Yields (number32 what) UInt32.toNat UInt32.size n bytes rest ↔
        n < UInt64.size ∨ UInt32.size ≤ n % UInt64.size) ∧
      (Yields (count what) id (rest.length + 1) n bytes rest ↔
        n < UInt64.size ∨ rest.length < n % UInt64.size) ∧
      (n < UInt64.size ↔ ∀ tenth ∈ taken[9]?, tenth ≤ 1) := by
  refine ⟨fun bytes => (Varint.exists_number_or 10 bytes).symm, ?_, ?_⟩
  · intro bytes hall
    have hnumber : runOn (number what) bytes = _ := runOn_number_of_forall hall
    exact ⟨hnumber, runOn_bind_error hnumber, runOn_bind_error hnumber⟩
  · intro taken rest h hlength
    refine ⟨reads_number_of_isNumber h hlength rest, ?_, yields_iff (yields_number32 rest h hlength),
      yields_iff (yields_count rest h hlength), Varint.value_lt_size_iff h hlength⟩
    have hmod : ¬ UInt64.size ≤ value taken % UInt64.size :=
      Nat.not_le.mpr (Nat.mod_lt _ (by decide))
    rw [yields_iff (yields_number rest h hlength), or_iff_left hmod]

/-- Ten octets, the last of which is 2. -/
def beyondWord : Bytes := [0x85, 0x80, 0x80, 0x80, 0x80, 0x80, 0x80, 0x80, 0x80, 2]

/-- A number beyond `2 ^ 64` is read as 5, also where five octets are left to be counted. -/
theorem beyondWord_reads_as_five :
    IsNumber beyondWord ∧ beyondWord.length ≤ 10 ∧ value beyondWord = 2 ^ 64 + 5 ∧
    runOn (number "list") (beyondWord ++ [1, 2, 3, 4, 5]) = (.ok 5, [1, 2, 3, 4, 5]) ∧
    ¬ Yields (number "list") UInt64.toNat UInt64.size (2 ^ 64 + 5)
      (beyondWord ++ [1, 2, 3, 4, 5]) [1, 2, 3, 4, 5] ∧
    ¬ Yields (number32 "list") UInt32.toNat UInt32.size (2 ^ 64 + 5)
      (beyondWord ++ [1, 2, 3, 4, 5]) [1, 2, 3, 4, 5] ∧
    ¬ Yields (count "list") id 6 (2 ^ 64 + 5) (beyondWord ++ [1, 2, 3, 4, 5]) [1, 2, 3, 4, 5] := by
  have hmiddle : ∀ b ∈ List.replicate 8 (0x80 : UInt8), 128 ≤ b := by
    intro b hb
    rw [List.eq_of_mem_replicate hb]
    decide
  have h : IsNumber beyondWord :=
    .more (by decide) (Varint.isNumber_concat hmiddle (by decide : (2 : UInt8) < 128))
  have hvalue : value beyondWord = 2 ^ 64 + 5 := rfl
  obtain ⟨hnumber, hyields, hyields32, hcount, -⟩ :=
    (numbers_exact_iff "list").2.2 beyondWord [1, 2, 3, 4, 5] h (by decide)
  rw [hvalue] at hnumber hyields hyields32 hcount
  exact ⟨h, by decide, hvalue, hnumber, mt hyields.mp (by decide), mt hyields32.mp (by decide),
    mt hcount.mp (by decide)⟩

end Decoder

end Crossroads

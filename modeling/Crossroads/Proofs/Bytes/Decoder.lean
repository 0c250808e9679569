import Crossroads.Bytes.Decoder
import Crossroads.Bytes.Varint
import Mathlib.Data.Nat.Bitwise
import Mathlib.Data.UInt

/-!
# Reading back what was written

A decoder `Reads` bytes as a value when it takes just these bytes off the front of any byte string
and answers the value.  That is kept by doing one decoder after another (`Reads.bind`), by reading
many values of one kind (`Reads.times`), and by reading a counted list (`Reads.counted`).

What a decoder `Answers` is said for bytes that nobody wrote: unless it fails, it takes some octets
and its value meets a condition.  A decoder is `Steady` if bytes that are added behind do not change
what it answers; of what a steady decoder accepts as a whole, nothing is the beginning of anything
else (`SelfDelimiting`).

* `reads_number`, `reads_number32` — numbers of variable length read back.
-/

namespace Crossroads

namespace Decoder

variable {ε α β : Type}

/-! ## Running -/

@[simp]
theorem runOn_pure (a : α) (bytes : Bytes) :
    runOn (pure a : Decoder ε α) bytes = (.ok a, bytes) := rfl

@[simp]
theorem runOn_throw (e : ε) (bytes : Bytes) :
    runOn (throw e : Decoder ε α) bytes = (.error e, bytes) := rfl

@[simp]
theorem runOn_get (bytes : Bytes) :
    runOn (get : Decoder ε Bytes) bytes = (.ok bytes, bytes) := rfl

@[simp]
theorem runOn_set (left bytes : Bytes) :
    runOn (set left : Decoder ε PUnit) bytes = (.ok ⟨⟩, left) := rfl

theorem runOn_bind (d : Decoder ε α) (f : α → Decoder ε β) (bytes : Bytes) :
    runOn (d >>= f) bytes = match runOn d bytes with
      | (.ok a, rest) => runOn (f a) rest
      | (.error e, rest) => (.error e, rest) := by
  show (ExceptT.bindCont f ((ExceptT.run d).run bytes).1).run ((ExceptT.run d).run bytes).2 = _
  unfold runOn
  rcases (ExceptT.run d).run bytes with ⟨_ | _, _⟩ <;> rfl

theorem runOn_bind_ok {d : Decoder ε α} {f : α → Decoder ε β} {bytes rest : Bytes} {a : α}
    (h : runOn d bytes = (.ok a, rest)) : runOn (d >>= f) bytes = runOn (f a) rest := by
  rw [runOn_bind, h]

theorem runOn_bind_error {d : Decoder ε α} {f : α → Decoder ε β} {bytes rest : Bytes} {e : ε}
    (h : runOn d bytes = (.error e, rest)) : runOn (d >>= f) bytes = (.error e, rest) := by
  rw [runOn_bind, h]

/-- Of two steps that answer a value the first one answers one. -/
theorem exists_of_runOn_bind {d : Decoder ε α} {f : α → Decoder ε β} {bytes rest : Bytes} {b : β}
    (h : runOn (d >>= f) bytes = (.ok b, rest)) :
    ∃ a left, runOn d bytes = (.ok a, left) ∧ runOn (f a) left = (.ok b, rest) := by
  rw [runOn_bind] at h
  split at h
  · rename_i a left hfirst
    exact ⟨a, left, hfirst, h⟩
  · cases h

/-! ## Reading a value off the front -/

/-- The decoder takes just these bytes off the front of any byte string, and answers the value. -/
def Reads (d : Decoder ε α) (bytes : Bytes) (a : α) : Prop :=
  ∀ rest, runOn d (bytes ++ rest) = (.ok a, rest)

namespace Reads

variable {d : Decoder ε α} {bytes : Bytes} {a : α}

theorem pure (a : α) : Reads (pure a : Decoder ε α) [] a := fun _ => rfl

theorem bind {f : α → Decoder ε β} {more : Bytes} {b : β} (h : Reads d bytes a)
    (h' : Reads (f a) more b) : Reads (d >>= f) (bytes ++ more) b := by
  intro rest
  rw [List.append_assoc, runOn_bind_ok (h (more ++ rest))]
  exact h' rest

/-- Computing something from the value takes no more bytes. -/
theorem bind_pure {b : β} (h : Reads d bytes a) {f : α → Decoder ε β} (hf : f a = Pure.pure b) :
    Reads (d >>= f) bytes b := by
  intro rest
  rw [runOn_bind_ok (h rest), hf]
  rfl

/-- Many values of one kind, one after another. -/
theorem times {encode : α → Bytes} {image : α → β} {item : Decoder ε β} (items : List α)
    (h : ∀ a ∈ items, Reads item (encode a) (image a)) :
    Reads (Decoder.times item items.length) (items.flatMap encode) (items.map image) := by
  induction items with
  | nil => exact .pure []
  | cons a items ih =>
    have hfirst := h a List.mem_cons_self
    have hrest := ih fun b hb => h b (List.mem_cons_of_mem a hb)
    rw [List.flatMap_cons]
    exact hfirst.bind (hrest.bind_pure rfl)

end Reads

/-! ## Reading what nobody wrote -/

/-- Whatever bytes are read, if the decoder answers a value, then it takes at least so many octets
and the value meets the condition. -/
def Answers (d : Decoder ε α) (least : Nat) (P : α → Prop) : Prop :=
  ∀ bytes a rest, runOn d bytes = (.ok a, rest) → rest.length + least ≤ bytes.length ∧ P a

namespace Answers

variable {d : Decoder ε α} {least : Nat} {P : α → Prop}

theorem pure {a : α} (h : P a) : Answers (pure a : Decoder ε α) 0 P := by
  intro bytes a' rest hrun
  rw [runOn_pure] at hrun
  cases hrun
  exact ⟨Nat.le_refl _, h⟩

theorem throw (e : ε) : Answers (throw e : Decoder ε α) least P := by
  intro bytes a rest hrun
  rw [runOn_throw] at hrun
  cases hrun

theorem bind {f : α → Decoder ε β} {more : Nat} {Q : β → Prop} (h : Answers d least P)
    (h' : ∀ a, P a → Answers (f a) more Q) : Answers (d >>= f) (least + more) Q := by
  intro bytes b rest hrun
  obtain ⟨a, left, hfirst, hsecond⟩ := exists_of_runOn_bind hrun
  obtain ⟨htaken, ha⟩ := h _ _ _ hfirst
  obtain ⟨htaken', hb⟩ := h' a ha _ _ _ hsecond
  exact ⟨by omega, hb⟩

theorem of_le {fewer : Nat} (h : Answers d least P) (hle : fewer ≤ least) : Answers d fewer P := by
  intro bytes a rest hrun
  obtain ⟨htaken, ha⟩ := h _ _ _ hrun
  exact ⟨by omega, ha⟩

/-- As many values as were asked for, each of which meets the condition. -/
theorem times (h : Answers d least P) (n : Nat) :
    Answers (Decoder.times d n) (least * n) fun as => as.length = n ∧ ∀ a ∈ as, P a := by
  induction n with
  | zero => exact .pure ⟨rfl, fun a ha => nomatch ha⟩
  | succ n ih =>
    have hsum : least * (n + 1) = least + (least * n + 0) := by
      rw [Nat.mul_succ, Nat.add_comm, Nat.add_zero]
    rw [hsum]
    refine h.bind fun a ha => ih.bind fun as has => .pure ?_
    exact ⟨congrArg (· + 1) has.1, List.forall_mem_cons.mpr ⟨ha, has.2⟩⟩

end Answers

/-! ## Reading what goes on -/

/-- A value that is read stays the same when more bytes follow, and these are left. -/
def Steady (d : Decoder ε α) : Prop :=
  ∀ bytes a rest, runOn d bytes = (.ok a, rest) →
    ∀ more, runOn d (bytes ++ more) = (.ok a, rest ++ more)

namespace Steady

variable {d : Decoder ε α}

theorem pure (a : α) : Steady (pure a : Decoder ε α) := by
  intro bytes a' rest hrun more
  rw [runOn_pure] at hrun ⊢
  cases hrun
  rfl

theorem throw (e : ε) : Steady (throw e : Decoder ε α) := by
  intro bytes a rest hrun more
  rw [runOn_throw] at hrun
  cases hrun

theorem bind {f : α → Decoder ε β} (h : Steady d) (h' : ∀ a, Steady (f a)) :
    Steady (d >>= f) := by
  intro bytes b rest hrun more
  obtain ⟨a, left, hfirst, hsecond⟩ := exists_of_runOn_bind hrun
  rw [runOn_bind_ok (h _ _ _ hfirst more)]
  exact h' a _ _ _ hsecond more

theorem times (h : Steady d) (n : Nat) : Steady (Decoder.times d n) := by
  induction n with
  | zero => exact .pure []
  | succ n ih => exact h.bind fun a => ih.bind fun as => .pure (a :: as)

end Steady

/-- Going on unless something is wrong. -/
theorem steady_guarded {d : Decoder ε α} {c : Prop} [Decidable c] (e : ε) (h : Steady d) :
    Steady (do
      if c then throw e
      d) := by
  dsimp only
  split
  · exact .bind (.throw e) fun _ => h
  · exact h

/-! ## Octets and words -/

theorem answers_take (short : ε) (n : Nat) : Answers (take short n) n (·.length = n) := by
  intro bytes a rest hrun
  rw [take, runOn_bind_ok (runOn_get _)] at hrun
  split at hrun
  · cases hrun
  · rename_i hlong
    rw [runOn_bind_ok (runOn_set _ _), runOn_pure] at hrun
    cases hrun
    rw [List.length_drop]
    exact ⟨by omega, List.length_take_of_le (Nat.not_lt.mp hlong)⟩

theorem answers_octet (what : String) : Answers (octet what) 1 fun _ => True := by
  intro bytes b rest hrun
  cases bytes with
  | nil => cases hrun
  | cons first left =>
    cases hrun
    exact ⟨Nat.le_refl _, trivial⟩

theorem answers_word (short : ε) (width : Nat) :
    Answers (word short width) width (· < Nat.pow 256 width) :=
  (answers_take short width).bind fun bytes hlength =>
    .pure (hlength ▸ Bytes.ofLittleEndian_lt bytes)

theorem reads_take (short : ε) (bytes : Bytes) : Reads (take short bytes.length) bytes bytes := by
  intro rest
  rw [take, runOn_bind_ok (runOn_get _), if_neg, runOn_bind_ok (runOn_set _ _), List.drop_left,
    List.take_left]
  · rfl
  · rw [List.length_append]
    omega

/-- A word that the data has room for is read. -/
theorem runOn_word (short : ε) {width : Nat} {bytes : Bytes} (h : width ≤ bytes.length) :
    runOn (word short width) bytes
      = (.ok (Bytes.ofLittleEndian (bytes.take width)), bytes.drop width) := by
  have htake := reads_take short (bytes.take width) (bytes.drop width)
  rw [List.take_append_drop, List.length_take_of_le h] at htake
  rw [word, runOn_bind_ok htake, runOn_pure]

/-- Words of a fixed width read back. -/
theorem reads_word (short : ε) {width n : Nat} (h : n < Nat.pow 256 width) :
    Reads (word short width) (Bytes.littleEndian width n) n := by
  have htake := reads_take short (Bytes.littleEndian width n)
  rw [Bytes.length_littleEndian] at htake
  refine htake.bind_pure ?_
  rw [Bytes.ofLittleEndian_littleEndian, Nat.mod_eq_of_lt h]

/-! ## Numbers -/

theorem reads_octet (what : String) (b : UInt8) : Reads (octet what) [b] b := fun _ => rfl

/-- A number of at most `limit` groups of seven bits, however great it is. -/
def groups (what : String) : Nat → Decoder Damage Nat
  | 0 => throw (.endlessNumber what)
  | limit + 1 => do
    let b ← octet what
    if b < 128 then return b.toNat
    else return b.toNat % 128 + 128 * (← groups what limit)

theorem and_high_eq_zero_iff (b : UInt8) : b &&& 0x80 = 0 ↔ b < 128 := by
  have hb := b.toNat_lt
  have hhigh : (b &&& 0x80).toNat = b.toNat / 2 ^ 7 % 2 * 2 ^ 7 := by
    rw [UInt8.toNat_and, ← Nat.toNat_testBit]
    exact Nat.and_two_pow b.toNat 7
  rw [← UInt8.toNat_inj, hhigh, UInt8.lt_iff_toNat_lt]
  show b.toNat / 2 ^ 7 % 2 * 2 ^ 7 = 0 ↔ b.toNat < 128
  omega

/-- A group goes above the bits that are there, as far as the word reaches. -/
theorem place_group {word : UInt64} {place : Nat} (hplace : place < 64)
    (hword : word.toNat < 2 ^ place) (b : UInt8) :
    word ||| (b &&& 0x7F).toUInt64 <<< UInt64.ofNat place
      = UInt64.ofNat (word.toNat + 2 ^ place * (b.toNat % 128)) := by
  have hgroup : (b &&& 0x7F).toNat = b.toNat % 128 := by
    rw [UInt8.toNat_and]
    exact Nat.and_two_pow_sub_one_eq_mod b.toNat 7
  have hshift : (UInt64.ofNat place).toNat % 64 = place := by
    rw [UInt64.toNat_ofNat_of_lt' (Nat.lt_trans hplace (by decide)), Nat.mod_eq_of_lt hplace]
  have hsize : 2 ^ 64 = 2 ^ place * 2 ^ (64 - place) := by
    rw [← Nat.pow_add, Nat.add_sub_cancel' (Nat.le_of_lt hplace)]
  have hpos : 0 < 2 ^ place := Nat.two_pow_pos place
  apply UInt64.toNat_inj.mp
  rw [UInt64.toNat_or, UInt64.toNat_shiftLeft, UInt8.toNat_toUInt64, hgroup, hshift,
    Nat.shiftLeft_eq, UInt64.toNat_ofNat', hsize, Nat.mul_comm (b.toNat % 128),
    Nat.mul_mod_mul_left, Nat.or_comm, ← Nat.two_pow_add_eq_or_of_lt hword, Nat.mod_mul,
    Nat.add_mul_mod_self_left, Nat.mod_eq_of_lt hword, Nat.add_mul_div_left _ _ hpos,
    Nat.div_eq_of_lt hword, Nat.zero_add, Nat.add_comm]

/-- What is gathered is the number modulo what a word can hold: above the bits that are there, the
groups still to come count from the place on. -/
theorem gather_eq (what : String) (limit : Nat) : ∀ (place : Nat) (word : UInt64),
    place + 7 * limit ≤ 70 → word.toNat < 2 ^ place →
    gather what limit place word
      = do return UInt64.ofNat (word.toNat + 2 ^ place * (← groups what limit)) := by
  induction limit with
  | zero => exact fun _ _ _ _ => rfl
  | succ limit ih =>
    intro place word hlimit hword
    rw [gather, groups, bind_assoc]
    refine congrArg (octet what >>= ·) (funext fun b => ?_)
    dsimp only
    rw [place_group (by omega) hword]
    by_cases hlast : b < 128
    · have hgroup : b.toNat % 128 = b.toNat := Nat.mod_eq_of_lt (UInt8.lt_iff_toNat_lt.mp hlast)
      rw [if_pos ((and_high_eq_zero_iff b).mpr hlast), if_pos hlast, pure_bind, hgroup]
    · have hgroup : b.toNat % 128 < 128 := Nat.mod_lt _ (by decide)
      have hpower : 2 ^ (place + 7) = 2 ^ place * 128 := Nat.pow_add 2 place 7
      have hmore : (UInt64.ofNat (word.toNat + 2 ^ place * (b.toNat % 128))).toNat
          < 2 ^ (place + 7) := by
        rw [UInt64.toNat_ofNat']
        refine Nat.lt_of_le_of_lt (Nat.mod_le _ _) ?_
        have hle := Nat.mul_le_mul_left (2 ^ place) (Nat.le_of_lt_succ hgroup)
        omega
      rw [if_neg fun hb => hlast ((and_high_eq_zero_iff b).mp hb), if_neg hlast,
        ih _ _ (by omega) hmore, bind_assoc]
      refine congrArg (groups what limit >>= ·) (funext fun n => ?_)
      rw [pure_bind]
      congr 1
      apply UInt64.toNat_inj.mp
      rw [UInt64.toNat_ofNat', UInt64.toNat_ofNat', UInt64.toNat_ofNat', Nat.mod_add_mod, hpower,
        Nat.mul_assoc, Nat.add_assoc, ← Nat.mul_add]

/-- A number is read modulo what a word can hold. -/
theorem number_eq (what : String) :
    number what = do return UInt64.ofNat (← groups what 10) := by
  rw [number, gather_eq what 10 0 0 (by decide) (by decide)]
  refine congrArg (groups what 10 >>= ·) (funext fun n => ?_)
  rw [UInt64.toNat_zero, Nat.pow_zero, Nat.one_mul, Nat.zero_add]

/-- The last octet of a number: no more groups are needed. -/
theorem reads_groups_last (what : String) (limit : Nat) {n : Nat} (h : n < 128) :
    Reads (groups what (limit + 1)) [UInt8.ofNat n] n := by
  have hbyte : (UInt8.ofNat n).toNat = n := UInt8.toNat_ofNat_of_lt' (Nat.lt_trans h (by decide))
  have hlt : UInt8.ofNat n < 128 := UInt8.lt_iff_toNat_lt.mpr (by rw [hbyte]; exact h)
  refine (reads_octet what _).bind_pure ?_
  rw [if_pos hlt, hbyte]

theorem reads_groups (what : String) (limit : Nat) :
    ∀ n < 128 ^ (limit + 1), Reads (groups what (limit + 1)) (Varint.encode n) n := by
  induction limit with
  | zero =>
    intro n hn
    have hsmall : n < 128 := hn
    rw [Varint.encode, if_pos hsmall]
    exact reads_groups_last what 0 hsmall
  | succ limit ih =>
    intro n hn
    rw [pow_succ] at hn
    rw [Varint.encode]
    by_cases hsmall : n < 128
    · rw [if_pos hsmall]
      exact reads_groups_last what (limit + 1) hsmall
    · have hbound : n % 128 + 128 < 256 := by omega
      have hbyte : (UInt8.ofNat (n % 128 + 128)).toNat = n % 128 + 128 :=
        UInt8.toNat_ofNat_of_lt' hbound
      have hge : ¬ UInt8.ofNat (n % 128 + 128) < 128 := by
        rw [UInt8.lt_iff_toNat_lt, hbyte]
        show ¬ n % 128 + 128 < 128
        omega
      have hrest := ih (n / 128) (Nat.div_lt_of_lt_mul (by rwa [Nat.mul_comm]))
      rw [if_neg hsmall]
      refine (reads_octet what _).bind ?_
      rw [if_neg hge]
      refine hrest.bind_pure ?_
      have hsum : (n % 128 + 128) % 128 + 128 * (n / 128) = n := by omega
      rw [hbyte, hsum]

/-- Words read back. -/
theorem reads_number (what : String) (u : UInt64) :
    Reads (number what) (Varint.encode u.toNat) u := by
  have hlt : u.toNat < 128 ^ 10 := Nat.lt_trans u.toNat_lt (by decide)
  rw [number_eq]
  refine (reads_groups what 9 u.toNat hlt).bind_pure ?_
  rw [UInt64.ofNat_toNat]

theorem reads_number_nat (what : String) {n : Nat} (h : n < UInt64.size) :
    Reads (number what) (Varint.encode n) (UInt64.ofNat n) := by
  have hread := reads_number what (UInt64.ofNat n)
  rwa [UInt64.toNat_ofNat_of_lt' h] at hread

/-- Of the numbers that are read those of 32 bits are accepted. -/
theorem runOn_number32 {what : String} {bytes rest : Bytes} {u : UInt64}
    (h : runOn (number what) bytes = (.ok u, rest)) :
    runOn (number32 what) bytes
      = (if u.toNat < UInt32.size then .ok (UInt32.ofNat u.toNat)
          else .error (.beyondWord what u.toNat), rest) := by
  rw [number32, runOn_bind_ok h]
  split <;> rfl

theorem reads_number32 (what : String) (u : UInt32) :
    Reads (number32 what) (Varint.encode u.toNat) u := by
  have hlt : u.toNat < UInt64.size := Nat.lt_trans u.toNat_lt (by decide)
  refine (reads_number_nat what hlt).bind_pure ?_
  rw [UInt64.toNat_ofNat_of_lt' hlt, if_pos u.toNat_lt, UInt32.ofNat_toNat]

theorem reads_flag (what : String) (b : Bool) : Reads (flag what) [if b then 1 else 0] b := by
  refine (reads_octet what _).bind_pure ?_
  cases b <;> rfl

theorem answers_groups (what : String) (limit : Nat) :
    Answers (groups what limit) 0 fun _ => True := by
  induction limit with
  | zero => exact .throw _
  | succ limit ih =>
    refine Answers.of_le ((answers_octet what).bind fun b _ => ?_) (Nat.zero_le (1 + 0))
    split
    · exact .pure trivial
    · exact ih.bind fun n _ => .pure trivial

theorem answers_number (what : String) : Answers (number what) 0 fun _ => True := by
  rw [number_eq]
  exact (answers_groups what 10).bind fun _ _ => .pure trivial

theorem answers_number32 (what : String) : Answers (number32 what) 0 fun _ => True := by
  show Answers _ (0 + 0) _
  refine (answers_number what).bind fun n _ => ?_
  split
  · exact .pure trivial
  · exact .throw _

theorem steady_octet (what : String) : Steady (octet what) := by
  intro bytes b rest hrun more
  cases bytes with
  | nil => cases hrun
  | cons first left =>
    cases hrun
    rfl

theorem steady_flag (what : String) : Steady (flag what) := by
  refine (steady_octet what).bind fun b => ?_
  split
  · exact .pure false
  · split
    · exact .pure true
    · exact .throw _

theorem steady_groups (what : String) (limit : Nat) : Steady (groups what limit) := by
  induction limit with
  | zero => exact .throw _
  | succ limit ih =>
    refine (steady_octet what).bind fun b => ?_
    split
    · exact .pure _
    · exact ih.bind fun n => .pure _

theorem steady_number (what : String) : Steady (number what) := by
  rw [number_eq]
  exact (steady_groups what 10).bind fun _ => .pure _

theorem steady_number32 (what : String) : Steady (number32 what) := by
  refine (steady_number what).bind fun n => ?_
  split
  · exact .pure _
  · exact .throw _

/-! ## Counted lists -/

theorem length_encode_pos (n : Nat) : 0 < (Varint.encode n).length := by
  rw [Varint.encode]
  split <;> simp

/-- A number takes an octet for each seven bits. -/
theorem length_encode_le {k n : Nat} (h : n < 128 ^ (k + 1)) :
    (Varint.encode n).length ≤ k + 1 := by
  induction k generalizing n with
  | zero =>
    rw [Varint.encode, if_pos (by simpa using h)]
    exact Nat.le_refl _
  | succ k ih =>
    rw [Varint.encode]
    split
    · exact Nat.succ_le_succ (Nat.zero_le _)
    · have hrest : n / 128 < 128 ^ (k + 1) := by
        rw [Nat.div_lt_iff_lt_mul (by decide), ← Nat.pow_succ]
        exact h
      exact Nat.succ_le_succ (ih hrest)

/-- A count reads back if enough bytes follow it. -/
theorem runOn_count (what : String) {n : Nat} {rest : Bytes} (h : n < UInt64.size)
    (hrest : n ≤ rest.length) :
    runOn (count what) (Varint.encode n ++ rest) = (.ok n, rest) := by
  unfold count
  rw [runOn_bind_ok (reads_number_nat what h rest), runOn_bind_ok (runOn_get rest),
    UInt64.toNat_ofNat_of_lt' h, if_neg (Nat.not_lt.mpr hrest)]
  rfl

theorem length_le_length_flatMap {encode : α → Bytes} (items : List α)
    (h : ∀ a ∈ items, 0 < (encode a).length) : items.length ≤ (items.flatMap encode).length := by
  induction items with
  | nil => exact Nat.le_refl 0
  | cons a items ih =>
    have hfirst := h a List.mem_cons_self
    have hrest := ih fun b hb => h b (List.mem_cons_of_mem a hb)
    rw [List.flatMap_cons, List.length_cons, List.length_append]
    omega

/-- A list behind its count, of items that take at least one byte each. -/
theorem Reads.counted {encode : α → Bytes} {image : α → β} {item : Decoder Damage β} (what : String)
    (items : List α) (hsize : items.length < UInt64.size)
    (hpos : ∀ a ∈ items, 0 < (encode a).length)
    (h : ∀ a ∈ items, Reads item (encode a) (image a)) :
    Reads (do Decoder.times item (← count what))
      (Varint.encode items.length ++ items.flatMap encode) (items.map image) := by
  intro rest
  have henough : items.length ≤ (items.flatMap encode ++ rest).length := by
    have hle := length_le_length_flatMap items hpos
    rw [List.length_append]
    omega
  rw [List.append_assoc, runOn_bind_ok (runOn_count what hsize henough)]
  exact Reads.times items h rest

/-- A count is compared with the bytes that follow it; it stays acceptable when there are more. -/
theorem steady_count (what : String) : Steady (count what) := by
  intro bytes n rest hrun more
  unfold count at hrun ⊢
  rw [runOn_bind] at hrun
  split at hrun
  · rename_i counted left hnumber
    rw [runOn_bind_ok (runOn_get left)] at hrun
    rw [runOn_bind_ok (steady_number what _ _ _ hnumber more), runOn_bind_ok (runOn_get _)]
    dsimp only at hrun ⊢
    split at hrun
    · cases hrun
    · rename_i henough
      have hmore : ¬ (left ++ more).length < counted.toNat := by
        rw [List.length_append]
        omega
      rw [if_neg hmore]
      cases hrun
      rfl
  · cases hrun

theorem Steady.counted {item : Decoder Damage β} (h : Steady item) (what : String) :
    Steady (do Decoder.times item (← count what)) :=
  (steady_count what).bind fun n => h.times n

/-! ## Whole byte strings -/

/-- A whole byte string has a value if nothing is left of it. -/
theorem readAll_eq_ok_iff {what : String} {d : Decoder Damage α} {bytes : Bytes} {a : α} :
    readAll what d bytes = .ok a ↔ runOn d bytes = (.ok a, []) := by
  rw [readAll, runOn_bind]
  constructor
  · intro hread
    split at hread
    · rename_i a' rest hrun
      rw [runOn_bind] at hread
      cases rest with
      | nil =>
        cases hread
        exact hrun
      | cons b rest => cases hread
    · cases hread
  · intro hrun
    rw [hrun]
    rfl

theorem readAll_eq_ok {what : String} {d : Decoder Damage α} {bytes : Bytes} {a : α}
    (h : Reads d bytes a) : readAll what d bytes = .ok a := by
  have hread := h []
  rw [List.append_nil] at hread
  exact readAll_eq_ok_iff.mpr hread

theorem Answers.readAll {what : String} {d : Decoder Damage α} {least : Nat} {P : α → Prop}
    (h : Answers d least P) {bytes : Bytes} {a : α} (hread : Decoder.readAll what d bytes = .ok a) :
    P a :=
  (h _ _ _ (readAll_eq_ok_iff.mp hread)).2

theorem readAll_eq_error {what : String} {d : Decoder Damage α} {bytes rest : Bytes} {e : Damage}
    (h : runOn d bytes = (.error e, rest)) : readAll what d bytes = .error e := by
  rw [readAll, runOn_bind_error h]

/-- Of what is accepted, nothing is the beginning of anything else: it is refused when it is cut
short and when it goes on. -/
structure SelfDelimiting (what : String) (decode : Bytes → Except Damage α) : Prop where
  cut : ∀ front more a, more ≠ [] → decode (front ++ more) = .ok a →
    ∃ damage, decode front = .error damage
  goesOn : ∀ body more a, more ≠ [] → decode body = .ok a →
    decode (body ++ more) = .error (.trailing what more.length)

theorem Steady.selfDelimiting {d : Decoder Damage α} (h : Steady d) (what : String) :
    SelfDelimiting what (readAll what d) := by
  have hgoesOn : ∀ body more a, more ≠ [] → readAll what d body = .ok a →
      readAll what d (body ++ more) = .error (.trailing what more.length) := by
    intro body more a hmore hread
    have hrun := h _ _ _ (readAll_eq_ok_iff.mp hread) more
    rw [readAll, runOn_bind_ok hrun]
    cases more with
    | nil => exact absurd rfl hmore
    | cons b more => rfl
  refine ⟨?_, hgoesOn⟩
  intro front more a hmore hread
  cases hfront : readAll what d front with
  | error damage => exact ⟨damage, rfl⟩
  | ok a' =>
    rw [hgoesOn front more a' hmore hfront] at hread
    cases hread

end Decoder

end Crossroads

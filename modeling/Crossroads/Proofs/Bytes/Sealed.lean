import Crossroads.Bytes.Sealed
import Crossroads.Proofs.Bytes.Checksum
import Crossroads.Proofs.Bytes.Decoder
import Crossroads.Proofs.Bytes.Metered

/-!
# Frames are what was written

A sink that keeps what it accepts, and accepts something of whatever it is offered, receives all
octets in the end, and the digest is that of these octets (`Metered.exists_offerAll`).  So the frame
that is written to it is the one that `Seal.wrap` says.

On the other side nothing but a frame is taken off a body (`Seal.unwrap_eq_ok_iff`): the fields have
their widths, and words of one width are told apart by their numbers.
-/

namespace Crossroads

/-! ## Sinks -/

section Sinks

variable {σ : Type} {sink : Sink σ} {held : σ → Bytes}

/-- The sink puts what it accepts behind what it holds, and accepts some octets whenever it is offered
any. -/
structure Sink.Holds (sink : Sink σ) (held : σ → Bytes) : Prop where
  accepted_le : ∀ state bytes, (sink.offer state bytes).2 ≤ bytes.length
  accepted_pos : ∀ state bytes, bytes ≠ [] → 0 < (sink.offer state bytes).2
  held_offer : ∀ state bytes,
    held (sink.offer state bytes).1 = held state ++ bytes.take (sink.offer state bytes).2

theorem Sink.holds_keep : Sink.keep.Holds id where
  accepted_le _ bytes := Nat.le_refl bytes.length
  accepted_pos _ _ hne := List.length_pos_iff.mpr hne
  held_offer kept bytes := by
    show kept ++ bytes = kept ++ bytes.take bytes.length
    rw [List.take_length]

theorem Sink.Holds.accepting (h : sink.Holds held) : sink.Accepting := ⟨h.accepted_le, h.accepted_pos⟩

namespace Metered

/-- What has been received stands behind what was held. -/
theorem Receives.held_eq {m m' : Metered σ} {received : Bytes} (h : sink.Holds held)
    (hreceived : Receives sink m received m') : held m'.inner = held m.inner ++ received := by
  induction hreceived with
  | nothing => rw [List.append_nil]
  | @offered received m' bytes _ ih =>
    show held (sink.offer m'.inner bytes).1 = _
    rw [h.held_offer, ih, List.append_assoc]

/-- The sink holds all octets in the end, and these have been digested. -/
theorem exists_offerAll (h : sink.Holds held) (m : Metered σ) (bytes : Bytes) :
    ∃ m', m.offerAll sink bytes = some m' ∧ held m'.inner = held m.inner ++ bytes ∧
      m'.digest = m.digest.update bytes := by
  obtain ⟨m', hwritten, hreceived⟩ := exists_receives_offerAll h.accepting m bytes
  exact ⟨m', hwritten, hreceived.held_eq h, hreceived.digest_eq⟩

theorem exists_writeAll (h : sink.Holds held) (m : Metered σ) (pieces : List Bytes) :
    ∃ m', m.writeAll sink pieces = some m' ∧ held m'.inner = held m.inner ++ pieces.flatten ∧
      m'.digest = m.digest.update pieces.flatten := by
  obtain ⟨m', hwritten, hreceived⟩ := exists_receives_writeAll h.accepting m pieces
  exact ⟨m', hwritten, hreceived.held_eq h, hreceived.digest_eq⟩

end Metered

/-- A frame that is written field by field is the one that is put around the body at once. -/
theorem Seal.exists_writeTo (h : sink.Holds held) (s : Seal) (body : Bytes) (state : σ) :
    ∃ state', s.writeTo sink body state = some state' ∧ held state' = held state ++ s.wrap body := by
  obtain ⟨m₁, hfields, hinner₁, hdigest⟩ := Metered.exists_writeAll h { inner := state }
    [Bytes.littleEndian 4 s.magic.toNat, Bytes.littleEndian 2 s.version.toNat, body]
  obtain ⟨m₂, hfooter, hinner₂, -⟩ := Metered.exists_offerAll h { inner := m₁.inner }
    (Bytes.littleEndian footerSize m₁.digest.finish.toNat)
  have hframed : [Bytes.littleEndian 4 s.magic.toNat, Bytes.littleEndian 2 s.version.toNat,
      body].flatten = s.header ++ body := by
    simp [header]
  refine ⟨m₂.inner, ?_, ?_⟩
  · rw [writeTo, hfields]
    show (Metered.offerAll sink _ _ >>= fun written => some written.inner) = _
    rw [hfooter]
    rfl
  · rw [hinner₂, hinner₁, hdigest, hframed, List.append_assoc]
    rfl

theorem Seal.writeTo_keep (s : Seal) (body : Bytes) : s.writeTo .keep body [] = some (s.wrap body) := by
  obtain ⟨written, hwritten, hheld⟩ := s.exists_writeTo Sink.holds_keep body []
  rw [hwritten]
  exact congrArg some hheld

end Sinks

/-! ## Taking frames off -/

/-- Octets are the word of the number that they stand for. -/
theorem Bytes.littleEndian_eq {bytes : Bytes} {width n : Nat} (hlength : bytes.length = width)
    (h : ofLittleEndian bytes = n) : littleEndian width n = bytes := by
  subst hlength h
  apply eq_of_ofLittleEndian_eq (length_littleEndian _ _)
  rw [ofLittleEndian_littleEndian, Nat.mod_eq_of_lt (ofLittleEndian_lt bytes)]

namespace Seal

theorem length_header (s : Seal) : s.header.length = headerSize := rfl

theorem length_wrap (s : Seal) (body : Bytes) :
    (s.wrap body).length = headerSize + body.length + footerSize := by
  rw [wrap, List.length_append, List.length_append, length_header, Bytes.length_littleEndian]

/-- What is taken off a frame is its body. -/
theorem unwrap_wrap (s : Seal) (what : String) (body : Bytes) :
    s.unwrap what (s.wrap body) = .ok body := by
  have hlength : (s.wrap body).length = (s.header ++ body).length + footerSize := by
    rw [length_wrap, List.length_append, length_header]
  have hlong : ¬ (s.wrap body).length < headerSize + footerSize := by
    rw [hlength, List.length_append, length_header]
    omega
  have hframed : (s.wrap body).take ((s.wrap body).length - footerSize) = s.header ++ body := by
    rw [hlength, Nat.add_sub_cancel, wrap, List.take_left]
  have hstored : Bytes.ofLittleEndian ((s.wrap body).drop ((s.wrap body).length - footerSize))
      = (checksum (s.header ++ body)).toNat := by
    have hword := (checksum (s.header ++ body)).toNat_lt
    rw [hlength, Nat.add_sub_cancel, wrap, List.drop_left, Bytes.ofLittleEndian_littleEndian]
    exact Nat.mod_eq_of_lt hword
  have hmagic : Bytes.ofLittleEndian ((s.header ++ body).take 4) = s.magic.toNat := by
    rw [header, List.append_assoc, List.take_left' (Bytes.length_littleEndian _ _),
      Bytes.ofLittleEndian_littleEndian]
    exact Nat.mod_eq_of_lt s.magic.toNat_lt
  have hversion : Bytes.ofLittleEndian (((s.header ++ body).drop 4).take 2) = s.version.toNat := by
    rw [header, List.append_assoc, List.drop_left' (Bytes.length_littleEndian _ _),
      List.take_left' (Bytes.length_littleEndian _ _), Bytes.ofLittleEndian_littleEndian]
    exact Nat.mod_eq_of_lt s.version.toNat_lt
  rw [unwrap, if_neg hlong, hframed]
  simp only [hstored, hmagic, hversion, ne_eq, not_true_eq_false, if_false]
  rw [List.drop_left' s.length_header]

/-- Data that is long enough consists of the octets with the header and of the footer. -/
theorem exists_framed {data : Bytes} (h : ¬ data.length < headerSize + footerSize) :
    ∃ framed footer, data.take (data.length - footerSize) = framed ∧
      data.drop (data.length - footerSize) = footer ∧ framed ++ footer = data ∧
      6 ≤ framed.length ∧ footer.length = footerSize := by
  refine ⟨_, _, rfl, rfl, List.take_append_drop _ _, ?_, ?_⟩
  · rw [List.length_take_of_le (Nat.sub_le _ _)]
    exact Nat.le_sub_of_add_le (Nat.not_lt.mp h)
  · rw [List.length_drop]
    exact Nat.sub_sub_self (Nat.le_trans (Nat.le_add_left _ _) (Nat.not_lt.mp h))

/-- Only a frame is taken off a body. -/
theorem eq_wrap_of_unwrap {s : Seal} {what : String} {data body : Bytes}
    (h : s.unwrap what data = .ok body) : data = s.wrap body := by
  rw [unwrap] at h
  split at h
  · cases h
  rename_i hlong
  obtain ⟨framed, footer, hframed, hfooter, hsplit, hroom, hlength⟩ := exists_framed hlong
  rw [hframed, hfooter] at h
  dsimp only at h
  split at h
  · cases h
  rename_i hmagic
  split at h
  · cases h
  rename_i hversion
  split at h
  · cases h
  rename_i hchecksum
  cases h
  have hmagic : Bytes.littleEndian 4 s.magic.toNat = framed.take 4 := by
    refine Bytes.littleEndian_eq ?_ (Decidable.not_not.mp hmagic)
    rw [List.length_take]
    omega
  have hversion : Bytes.littleEndian 2 s.version.toNat = (framed.drop 4).take 2 := by
    refine Bytes.littleEndian_eq ?_ (Decidable.not_not.mp hversion)
    rw [List.length_take, List.length_drop]
    omega
  have hwhole : s.header ++ framed.drop headerSize = framed := by
    have hrest : framed.drop headerSize = (framed.drop 4).drop 2 := by
      rw [List.drop_drop]
      rfl
    rw [header, hmagic, hversion, hrest, List.append_assoc, List.take_append_drop,
      List.take_append_drop]
  rw [wrap, hwhole, Bytes.littleEndian_eq hlength (Decidable.not_not.mp hchecksum), hsplit]

theorem unwrap_eq_ok_iff {s : Seal} {what : String} {data body : Bytes} :
    s.unwrap what data = .ok body ↔ data = s.wrap body :=
  ⟨eq_wrap_of_unwrap, fun h => h ▸ unwrap_wrap s what body⟩

/-- Read field by field, a frame is taken off as at once: no field ends too early. -/
theorem readBody_eq (s : Seal) (what : String) (data : Bytes) :
    s.readBody what data = (s.unwrap what data).mapError .corrupt := by
  rw [readBody, unwrap]
  split
  · rfl
  rename_i hlong
  obtain ⟨framed, footer, hframed, hfooter, -, hroom, hlength⟩ := exists_framed hlong
  rw [hframed, hfooter]
  have hmagic := Decoder.runOn_word (Fault.io .shortRead) (Nat.le_trans (by decide : 4 ≤ 6) hroom)
  have hversion : Decoder.runOn (Decoder.word (Fault.io .shortRead) 2) (framed.drop 4) = _ :=
    Decoder.runOn_word _ (by rw [List.length_drop]; omega)
  have hstored : Decoder.runOn (Decoder.word (Fault.io .shortRead) 8) footer
      = (.ok (Bytes.ofLittleEndian footer), footer.drop 8) := by
    have hword := Decoder.runOn_word (Fault.io .shortRead) (Nat.le_of_eq hlength.symm : 8 ≤ _)
    rwa [List.take_of_length_le (Nat.le_of_eq hlength : _ ≤ 8)] at hword
  dsimp only
  rw [readFields]
  dsimp only
  rw [Decoder.runOn_bind_ok hmagic]
  split
  · rfl
  rw [Decoder.runOn_bind_ok hversion, List.drop_drop]
  split
  · rfl
  rw [hstored]
  dsimp only
  split
  · rfl
  · rfl

/-- **A frame is what was written, and nothing else is.**  Whatever sink a body is written to, it is
read just when the data is what the sink has received.  All other data is corrupt, and never fails in
another way. -/
theorem readBody_iff_written {σ : Type} {sink : Sink σ} {held : σ → Bytes} (h : sink.Holds held)
    (state : σ) (s : Seal) (what : String) (data : Bytes) :
    (∀ body, ∃ state', s.writeTo sink body state = some state') ∧
    (∀ body, s.readBody what data = .ok body ↔
      ∃ state', s.writeTo sink body state = some state' ∧ held state' = held state ++ data) ∧
    ((∃ damage, s.readBody what data = .error (.corrupt damage)) ↔
      ∀ body, s.readBody what data ≠ .ok body) := by
  have hok : ∀ body, s.readBody what data = .ok body ↔ data = s.wrap body := by
    intro body
    rw [readBody_eq, ← unwrap_eq_ok_iff]
    cases s.unwrap what data <;> simp [Except.mapError]
  refine ⟨?_, ?_, ?_⟩
  · intro body
    obtain ⟨state', hwritten, -⟩ := s.exists_writeTo h body state
    exact ⟨state', hwritten⟩
  · intro body
    obtain ⟨state', hwritten, hheld⟩ := s.exists_writeTo h body state
    rw [hok, hwritten]
    constructor
    · rintro rfl
      exact ⟨state', rfl, hheld⟩
    · rintro ⟨_, hsame, hdata⟩
      obtain rfl := Option.some.inj hsame
      exact List.append_cancel_left (hdata.symm.trans hheld)
  · rw [readBody_eq]
    cases s.unwrap what data with
    | error damage => exact iff_of_true ⟨damage, rfl⟩ fun body hbody => nomatch hbody
    | ok body => exact iff_of_false (fun ⟨_, hdamage⟩ => nomatch hdamage) fun hnone => hnone body rfl

end Seal

/-- A sink that accepts one octet at a time. -/
def Sink.drip : Sink Bytes := ⟨fun kept bytes => (kept ++ bytes.take 1, min 1 bytes.length)⟩

theorem Sink.holds_drip : Sink.drip.Holds id where
  accepted_le _ bytes := Nat.min_le_right 1 bytes.length
  accepted_pos _ _ hne := Nat.lt_min.mpr ⟨Nat.one_pos, List.length_pos_iff.mpr hne⟩
  held_offer kept bytes := by
    show kept ++ bytes.take 1 = kept ++ bytes.take (min 1 bytes.length)
    rw [← List.take_eq_take_min]

namespace Seal

/-- The frame of no octets, which is the shortest one. -/
def shortestFrame : Bytes := [1, 0, 205, 171, 3, 0, 0, 32, 254, 15, 17, 206, 253, 111]

/-- The shortest frame is read however it was written, and is corrupt without its last octet. -/
theorem shortest_frame_read : Sink.drip.Holds id ∧
    (⟨0xABCD0001, 3⟩ : Seal).readBody "frame" shortestFrame = .ok [] ∧
    ∃ damage, (⟨0xABCD0001, 3⟩ : Seal).readBody "frame" shortestFrame.dropLast
      = .error (.corrupt damage) := by
  have hread := readBody_iff_written Sink.holds_drip [] ⟨0xABCD0001, 3⟩ "frame"
  refine ⟨Sink.holds_drip, ((hread shortestFrame).2.1 []).mpr ?_, (hread _).2.2.mpr ?_⟩
  · obtain ⟨written, hwritten, hheld⟩ := exists_writeTo Sink.holds_drip ⟨0xABCD0001, 3⟩ [] []
    have hframe : wrap ⟨0xABCD0001, 3⟩ [] = shortestFrame := by decide +kernel
    exact ⟨written, hwritten, hframe ▸ hheld⟩
  · have hshort : readBody ⟨0xABCD0001, 3⟩ "frame" shortestFrame.dropLast
        = .error (.corrupt (.shortFrame "frame" 13)) := rfl
    intro body hbody
    rw [hshort] at hbody
    cases hbody

end Seal

end Crossroads

import Crossroads.Region.Header
import Crossroads.Proofs.Bytes.Sealed
import Crossroads.Proofs.Region.Coding
import Crossroads.Proofs.Region.Container

/-!
# Sealed sections read back

A sealed section reads as what its body stands for; the header section reads as the coding that it was
written for.
-/

namespace Crossroads

/-- A failure that is told in other words is still one. -/
theorem ok_of_mapError {ε ε' α : Type} {f : ε → ε'} {outcome : Except ε α} {a : α}
    (h : outcome.mapError f = .ok a) : outcome = .ok a := by
  cases outcome with
  | error _ => cases h
  | ok _ => exact congrArg _ (Except.ok.inj h)

/-- Of two steps that succeed the first one does. -/
theorem exists_ok_of_bind {ε α β : Type} {first : Except ε α} {next : α → Except ε β} {b : β}
    (h : first >>= next = .ok b) : ∃ a, first = .ok a ∧ next a = .ok b := by
  cases first with
  | error _ => cases h
  | ok a => exact ⟨a, rfl, h⟩

/-- A section keeps the whole frame. -/
theorem Writer.ofSealed_eq (s : Seal) (body : Bytes) : ofSealed s body = ofBytes (s.wrap body) := by
  rw [ofSealed, Seal.writeTo_keep]

namespace Container

variable {c : Container} {α : Type}

/-- A section that can be named is written. -/
theorem writeSealed_eq {name : String} (hname : nameFits name = true) (s : Seal) (body : Bytes) :
    c.writeSealed name s body = (.ok (s.wrap body).length, c.append name [s.wrap body]) := by
  rw [writeSealed, Writer.ofSealed_eq, Writer.ofBytes, write_of_fits _ _ _ hname,
    List.flatten_singleton]

/-- The body of a sealed section is no longer than the data. -/
theorem length_body_le (c : Container) (name : String) (s : Seal) (body : Bytes) :
    body.length ≤ (c.append name [s.wrap body]).cursor := by
  rw [cursor_append, List.flatten_singleton, Seal.length_wrap]
  omega

/-- What is read of a sealed section is what some body stands for. -/
theorem decode_of_readSealed {name : String} {s : Seal} {decode : Bytes → Except Damage α} {a : α}
    (h : c.readSealed name s decode = .ok a) : ∃ body, decode body = .ok a := by
  obtain ⟨data, -, hopened⟩ := exists_ok_of_bind h
  obtain ⟨body, -, hdecode⟩ := exists_ok_of_bind hopened
  exact ⟨body, ok_of_mapError hdecode⟩

/-- A sealed section reads as what its body stands for. -/
theorem readSealed_append_self (h : c.Readable) (name : String) (s : Seal) {body : Bytes}
    {decode : Bytes → Except Damage α} {a : α} (hdecode : decode body = .ok a) :
    (c.append name [s.wrap body]).readSealed name s decode = .ok a := by
  have hread := read_append_self h name [s.wrap body]
  rw [List.flatten_singleton] at hread
  have hbody : s.readBody name (s.wrap body) = .ok body := by
    rw [Seal.readBody_eq, Seal.unwrap_wrap]
    rfl
  rw [readSealed, hread]
  show (s.readBody name (s.wrap body) >>= fun body => (decode body).mapError Fault.corrupt) = .ok a
  rw [hbody]
  show (decode body).mapError Fault.corrupt = .ok a
  rw [hdecode]
  rfl

/-- Another section reads as before. -/
theorem readSealed_append_of_ne (h : c.Readable) {name other : String} (hne : other ≠ name) (s : Seal)
    (decode : Bytes → Except Damage α) (pieces : List Bytes) :
    (c.append name pieces).readSealed other s decode = c.readSealed other s decode := by
  rw [readSealed, readSealed, read_append_of_ne h hne]

end Container

namespace Coding

/-- A coding that is loaded has an allowed precision. -/
theorem allows_of_load {c : Container} {coding : Coding} (h : load c = .ok coding) :
    allows coding.bits.toNat = true := by
  obtain ⟨body, hdecode⟩ := Container.decode_of_readSealed h
  exact (answers_decode _).readAll hdecode

/-- The coding that was written is loaded. -/
theorem load_append_self {c : Container} (h : c.Readable) {coding : Coding}
    (hbits : allows coding.bits.toNat = true) :
    load (c.append sectionName [sectionSeal.wrap coding.encode]) = .ok coding :=
  Container.readSealed_append_self h _ _ (Decoder.readAll_eq_ok (reads_encode hbits _))

end Coding

end Crossroads

import Crossroads.Proofs.Bytes.Remainder
import Crossroads.Proofs.Bytes.Sealed
import Crossroads.Proofs.Region.Container

/-!
# Sections are digested as they are written

The data of a section goes through a metered sink to the container's file, which may take it in other
pieces than it is written in.  What is kept of the tape that it leaves is what stands before the
position (`Container.conclude_congr`), and this is what the sink has accepted.

* `Metered.accepted_digested` — the checksum is that of what the sink has accepted, however the data
  is cut, and sections are stored with it.
-/

namespace Crossroads

open Polynomial

namespace Container

/-! ## Sections through tapes -/

/-- The container after the data of a section has been written up to where the tape stands, and has
come to this checksum. -/
def conclude (c : Container) (name : String) (tape : Tape) (checksum : UInt64) : Container :=
  writeContents { c with
    entries := c.entries.filter (fun e => e.name != name)
      ++ [⟨name, c.cursor, tape.position - c.cursor, checksum⟩]
    cursor := tape.position
    file := tape.file }

section

variable (c : Container) (name : String) (sum : UInt64)

theorem append_eq_conclude (pieces : List Bytes) : c.append name pieces
    = c.conclude name (c.tape.putAll pieces) (pieces.foldl Digest.update .empty).finish := rfl

theorem Tape.length_cut (t : Tape) : t.cut.length = t.position := length_upTo _ _

/-- What stands behind the position makes no difference, since the file is cut off there. -/
theorem conclude_congr {t t' : Tape} (h : t.cut = t'.cut) :
    c.conclude name t sum = c.conclude name t' sum := by
  have hposition : t.position = t'.position := by rw [← Tape.length_cut, h, Tape.length_cut]
  have hfile : ∀ (tape : Tape) (contents : Bytes),
      (Tape.put ⟨tape.file, tape.position⟩ contents).cut = tape.cut ++ contents :=
    fun tape contents => Tape.cut_put tape contents
  simp only [conclude, writeContents, Container.tape, hfile, h]
  rw [hposition]

/-- A section that has been taken piecemeal by the tape is the one that is written at once. -/
theorem conclude_eq_append {t : Tape} {pieces : List Bytes}
    (h : t.cut = c.tape.cut ++ pieces.flatten) :
    c.conclude name t (checksum pieces.flatten) = c.append name pieces := by
  rw [append_eq_conclude, Digest.foldl_update]
  apply conclude_congr
  rw [h, Tape.cut_putAll]

end

end Container

/-- **What a sink accepts is what is digested.**  However often octets have been offered, the checksum
is that of the octets that have been accepted, in their order.  When pieces are written, these are all
octets of the pieces, so that it makes no difference where they were cut.  The checksum itself is what
remains of the octets modulo the divisor, the first sixty-four bits flipped before and all bits flipped
after.  A section that is written through the sink to a tape is stored with it. -/
theorem Metered.accepted_digested {σ : Type} {sink : Sink σ} (h : sink.Accepting) (state : σ) :
    (∀ received m, Receives sink { inner := state } received m →
      m.digest.finish = checksum received) ∧
    (∀ (bytes : Bytes) (pieces : List Bytes), pieces.flatten = bytes →
      (∃ m, writeAll sink { inner := state } pieces = some m ∧
        Receives sink { inner := state } bytes m ∧ m.digest.finish = checksum bytes) ∧
      (pieces.foldl Digest.update .empty).finish = checksum bytes) ∧
    (∀ bytes : Bytes, Checksum.reflected 64 (checksum bytes).toNat
      = (X ^ 64 * bytes.polynomial + X ^ (8 * bytes.length) * Checksum.full) %ₘ Checksum.divisor
        + Checksum.full) ∧
    (∀ tapeOf : σ → Container.Tape, sink.Holds (fun state => (tapeOf state).cut) →
      ∀ (c : Container) (name : String) (pieces : List Bytes) (m : Metered σ),
        tapeOf state = c.tape → writeAll sink { inner := state } pieces = some m →
        c.conclude name (tapeOf m.inner) m.digest.finish = c.append name pieces) := by
  have hdigested : ∀ received m, Receives sink { inner := state } received m →
      m.digest.finish = checksum received := by
    intro received m hreceived
    rw [hreceived.digest_eq]
    rfl
  refine ⟨hdigested, ?_, Checksum.reflected_checksum, ?_⟩
  · rintro bytes pieces rfl
    obtain ⟨m, hwritten, hreceived⟩ := exists_receives_writeAll h { inner := state } pieces
    refine ⟨⟨m, hwritten, hreceived, hdigested _ m hreceived⟩, ?_⟩
    rw [Digest.foldl_update]
    rfl
  · intro tapeOf hholds c name pieces m hstart hwritten
    obtain ⟨_, hsame, hreceived⟩ := exists_receives_writeAll h { inner := state } pieces
    obtain rfl := Option.some.inj (hwritten.symm.trans hsame)
    rw [hdigested _ m hreceived]
    apply Container.conclude_eq_append
    rw [hreceived.held_eq hholds, hstart]

namespace Container

/-! ## Files in blocks -/

/-- A file that takes no more octets at once than there is room for in a block of four. -/
def Tape.inBlocks : Sink Tape where
  offer t bytes :=
    let room := min (4 - t.position % 4) bytes.length
    (t.put (bytes.take room), room)

theorem Tape.accepting_inBlocks : Tape.inBlocks.Accepting where
  accepted_le t bytes := Nat.min_le_right (4 - t.position % 4) bytes.length
  accepted_pos t bytes hne := by
    have hused := Nat.mod_lt t.position (by decide : 0 < 4)
    exact Nat.lt_min.mpr ⟨Nat.sub_pos_of_lt hused, List.length_pos_iff.mpr hne⟩

theorem Tape.holds_inBlocks : Tape.inBlocks.Holds Tape.cut where
  accepted_le := accepting_inBlocks.accepted_le
  accepted_pos := accepting_inBlocks.accepted_pos
  held_offer t _ := t.cut_put _

/-- The digits from one to nine, in two pieces. -/
def nineDigits : List Bytes := [[0x31, 0x32, 0x33, 0x34, 0x35], [0x36, 0x37, 0x38, 0x39]]

/-- The digits from one to nine are taken in blocks, and come to the check value of the method. -/
theorem nine_digits_digested : Tape.inBlocks.Accepting ∧ Tape.inBlocks.Holds Tape.cut ∧
    ∃ m, Metered.writeAll Tape.inBlocks { inner := (create "r").tape } nineDigits = some m ∧
      Metered.Receives Tape.inBlocks { inner := (create "r").tape } nineDigits.flatten m ∧
      m.digest.finish = 0xB90956C775A41001 ∧
      (create "r").conclude "log" m.inner m.digest.finish = (create "r").append "log" nineDigits := by
  obtain ⟨-, hwhole, -, hsection⟩ :=
    Metered.accepted_digested Tape.accepting_inBlocks (create "r").tape
  obtain ⟨⟨m, hwritten, hreceived, hsum⟩, -⟩ := hwhole nineDigits.flatten nineDigits rfl
  refine ⟨Tape.accepting_inBlocks, Tape.holds_inBlocks, m, hwritten, hreceived, ?_,
    hsection id Tape.holds_inBlocks (create "r") "log" nineDigits m rfl hwritten⟩
  rw [hsum]
  decide +kernel

end Container

end Crossroads

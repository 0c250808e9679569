import Crossroads.Region.Coding
import Crossroads.Proofs.Bytes.Varint
import Crossroads.Proofs.Grid

/-!
# Points read back on the grid

What is read back of a point is the place of its cell (`Point.snapped`).  A cell reads back whatever
the base point is, since the difference of two words never overflows; it only has to lie on the grid
of the coding.  Differences that nobody wrote lead off the grid as well, and are refused there, as
long as the sum with the base point is a signed word.

* `Coding.reads_point` — points read back snapped.
* `Coding.points_read_on_grid` — what is read of any two differences.
* `Coding.reads_encode` — the coding itself reads back.
-/

namespace Crossroads

namespace Coding

/-! ## Axes -/

theorem toInt_ofWord (n : UInt32) : n.toUInt64.toInt64.toInt = n.toNat := by
  have hn := n.toNat_lt
  have hword : n.toUInt64.toInt64 = Int64.ofNat n.toNat := by
    rw [← UInt64.toInt64_ofNat', ← UInt32.toNat_toUInt64, UInt64.ofNat_toNat]
  rw [hword, Int64.toInt_ofNat_of_lt (by omega)]

/-- The difference of two words is exact. -/
theorem toInt_difference (n base : UInt32) :
    (n.toUInt64.toInt64 - base.toUInt64.toInt64).toInt = (n.toNat : Int) - base.toNat := by
  have hn := n.toNat_lt
  have hbase := base.toNat_lt
  rw [Int64.toInt_sub, toInt_ofWord, toInt_ofWord]
  exact Int.bmod_eq_of_le (by omega) (by omega)

/-- The sum with a difference is the word that the difference is taken of. -/
theorem toInt_add_difference (n base : UInt32) :
    (base.toUInt64.toInt64 + (n.toUInt64.toInt64 - base.toUInt64.toInt64)).toInt = n.toNat := by
  have hn := n.toNat_lt
  rw [Int64.toInt_add, toInt_difference, toInt_ofWord, add_sub_cancel]
  exact Int.bmod_eq_of_le (by omega) (by omega)

theorem axisAt_encode {bits : Nat} (base : UInt32) {n : UInt32} (h : n.toNat ≤ Grid.top bits) :
    axisAt bits base (Zigzag.encode (n.toUInt64.toInt64 - base.toUInt64.toInt64)) = .ok n := by
  rw [axisAt, Zigzag.decode_encode, toInt_add_difference, if_pos (by omega), Int.toNat_natCast,
    UInt32.ofNat_toNat]

theorem reads_axis (what : String) {bits : Nat} (base : UInt32) {n : UInt32}
    (h : n.toNat ≤ Grid.top bits) :
    Decoder.Reads (decodeAxis what bits base) (encodeAxis base n) n := by
  refine (Decoder.reads_number what _).bind_pure ?_
  rw [axisAt_encode base h]

/-! ## Cells and points -/

theorem reads_cell (c : Coding) (what : String) {cell : Cell} (h : cell.OnGrid c.bits.toNat) :
    Decoder.Reads (c.decodeCell what) (c.encodeCell cell) cell :=
  (reads_axis what c.base.x h.1).bind ((reads_axis what c.base.y h.2).bind_pure rfl)

theorem allows_iff {bits : Nat} : allows bits = true ↔ 1 ≤ bits ∧ bits ≤ 32 := by
  simp [allows]

/-- Points read back snapped. -/
theorem reads_point {c : Coding} (h : allows c.bits.toNat = true) (what : String)
    (p : Point Coordinate) :
    Decoder.Reads (c.decodePoint what) (c.encodePoint p) (p.snapped c.bits.toNat) := by
  obtain ⟨hlow, hhigh⟩ := allows_iff.mp h
  exact (c.reads_cell what (Cell.onGrid_ofPoint hlow hhigh p)).bind_pure rfl

/-! ## Differences that nobody wrote -/

/-- The coordinate that a stored difference leads to, be it on the grid or not. -/
def shifted (base : UInt32) (difference : UInt64) : Int :=
  base.toNat + (Zigzag.decode difference).toInt

/-- The number is a signed word. -/
def IsWord (n : Int) : Prop := -2 ^ 63 ≤ n ∧ n < 2 ^ 63

instance (n : Int) : Decidable (IsWord n) := inferInstanceAs (Decidable (_ ∧ _))

/-- The sum of signed words is exact if it is one. -/
theorem toInt_shifted {base : UInt32} {difference : UInt64} (h : IsWord (shifted base difference)) :
    (base.toUInt64.toInt64 + Zigzag.decode difference).toInt = shifted base difference := by
  obtain ⟨hlow, hhigh⟩ := h
  rw [shifted] at hlow hhigh ⊢
  rw [Int64.toInt_add, toInt_ofWord]
  exact Int.bmod_eq_of_le (by omega) (by omega)

theorem isWord_of_onAxis {bits : Nat} (hbits : bits ≤ 32) {n : Int} (h : Grid.OnAxis bits n) :
    IsWord n := by
  have htop : Grid.top bits < 2 ^ 32 := Grid.top_lt_size hbits
  obtain ⟨hlow, hhigh⟩ := h
  exact ⟨by omega, by omega⟩

theorem axisAt_of_onAxis {bits : Nat} (hbits : bits ≤ 32) {base : UInt32} {difference : UInt64}
    (h : Grid.OnAxis bits (shifted base difference)) :
    ∃ n : UInt32, (n.toNat : Int) = shifted base difference ∧ axisAt bits base difference = .ok n := by
  have htop := Grid.top_lt_size hbits
  have hsum := toInt_shifted (isWord_of_onAxis hbits h)
  obtain ⟨hlow, hhigh⟩ := h
  refine ⟨UInt32.ofNat (shifted base difference).toNat, ?_, ?_⟩
  · rw [UInt32.toNat_ofNat_of_lt' (by omega), Int.toNat_of_nonneg hlow]
  · rw [axisAt, hsum]
    exact if_pos ⟨hlow, hhigh⟩

theorem axisAt_of_not_onAxis {bits : Nat} {base : UInt32} {difference : UInt64}
    (hword : IsWord (shifted base difference)) (h : ¬ Grid.OnAxis bits (shifted base difference)) :
    axisAt bits base difference = .error (.offGrid (shifted base difference) bits) := by
  rw [axisAt, toInt_shifted hword]
  exact if_neg h

section Differences

variable {c : Coding} {what : String} {bytes middle rest : Bytes} {dx dy : UInt64}

theorem runOn_axis (bits : Nat) (base : UInt32)
    (hread : Decoder.runOn (Decoder.number what) bytes = (.ok dx, rest)) :
    Decoder.runOn (decodeAxis what bits base) bytes = (axisAt bits base dx, rest) := by
  rw [decodeAxis, Decoder.runOn_bind_ok hread]
  cases axisAt bits base dx <;> rfl

theorem runOn_point_of_onAxis (hbits : c.bits.toNat ≤ 32)
    (hx : Decoder.runOn (Decoder.number what) bytes = (.ok dx, middle))
    (hy : Decoder.runOn (Decoder.number what) middle = (.ok dy, rest))
    (hleft : Grid.OnAxis c.bits.toNat (shifted c.base.x dx))
    (hright : Grid.OnAxis c.bits.toNat (shifted c.base.y dy)) :
    ∃ cell : Cell, (cell.x.toNat : Int) = shifted c.base.x dx ∧
      (cell.y.toNat : Int) = shifted c.base.y dy ∧
      Decoder.runOn (c.decodePoint what) bytes = (.ok (cell.toPoint c.bits.toNat), rest) := by
  obtain ⟨x, hxnat, hxat⟩ := axisAt_of_onAxis hbits hleft
  obtain ⟨y, hynat, hyat⟩ := axisAt_of_onAxis hbits hright
  have hrunx := runOn_axis c.bits.toNat c.base.x hx
  have hruny := runOn_axis c.bits.toNat c.base.y hy
  rw [hxat] at hrunx
  rw [hyat] at hruny
  refine ⟨⟨x, y⟩, hxnat, hynat, ?_⟩
  have hcell : Decoder.runOn (c.decodeCell what) bytes = (.ok ⟨x, y⟩, rest) := by
    rw [decodeCell, Decoder.runOn_bind_ok hrunx, Decoder.runOn_bind_ok hruny]
    rfl
  rw [decodePoint, Decoder.runOn_bind_ok hcell]
  rfl

theorem runOn_point_of_not_left
    (hx : Decoder.runOn (Decoder.number what) bytes = (.ok dx, middle))
    (hword : IsWord (shifted c.base.x dx))
    (hleft : ¬ Grid.OnAxis c.bits.toNat (shifted c.base.x dx)) :
    Decoder.runOn (c.decodePoint what) bytes
      = (.error (.offGrid (shifted c.base.x dx) c.bits.toNat), middle) := by
  have hrunx := runOn_axis c.bits.toNat c.base.x hx
  rw [axisAt_of_not_onAxis hword hleft] at hrunx
  exact Decoder.runOn_bind_error (Decoder.runOn_bind_error hrunx)

theorem runOn_point_of_not_right (hbits : c.bits.toNat ≤ 32)
    (hx : Decoder.runOn (Decoder.number what) bytes = (.ok dx, middle))
    (hy : Decoder.runOn (Decoder.number what) middle = (.ok dy, rest))
    (hleft : Grid.OnAxis c.bits.toNat (shifted c.base.x dx))
    (hword : IsWord (shifted c.base.y dy))
    (hright : ¬ Grid.OnAxis c.bits.toNat (shifted c.base.y dy)) :
    Decoder.runOn (c.decodePoint what) bytes
      = (.error (.offGrid (shifted c.base.y dy) c.bits.toNat), rest) := by
  obtain ⟨x, -, hxat⟩ := axisAt_of_onAxis hbits hleft
  have hrunx := runOn_axis c.bits.toNat c.base.x hx
  have hruny := runOn_axis c.bits.toNat c.base.y hy
  rw [hxat] at hrunx
  rw [axisAt_of_not_onAxis hword hright] at hruny
  have hcell : Decoder.runOn (c.decodeCell what) bytes
      = (.error (.offGrid (shifted c.base.y dy) c.bits.toNat), rest) := by
    rw [decodeCell, Decoder.runOn_bind_ok hrunx, Decoder.runOn_bind_error hruny]
  exact Decoder.runOn_bind_error hcell

end Differences

/-- **Points are read on the grid only.**  What is written of a point reads back as the place of its
cell, and no more octets than these are taken.  Of any two differences whose sums with the base point
are signed words, a point is read just when both lead to coordinates on the grid, and then it is the
place of the cell with these coordinates; the first coordinate off the grid is what is complained
about. -/
theorem points_read_on_grid {c : Coding} (h : 1 ≤ c.bits.toNat ∧ c.bits.toNat ≤ 32) (what : String) :
    (∀ (p : Point Coordinate) (rest : Bytes),
      Decoder.runOn (c.decodePoint what) (c.encodePoint p ++ rest)
        = (.ok ((Cell.ofPoint c.bits.toNat p).toPoint c.bits.toNat), rest)) ∧
    ∀ (bytes middle rest : Bytes) (dx dy : UInt64),
      Decoder.runOn (Decoder.number what) bytes = (.ok dx, middle) →
      Decoder.runOn (Decoder.number what) middle = (.ok dy, rest) →
      let x := shifted c.base.x dx
      let y := shifted c.base.y dy
      let outcome := Decoder.runOn (c.decodePoint what) bytes
      IsWord x → IsWord y →
      ((∃ p, outcome.1 = .ok p) ↔ Grid.OnAxis c.bits.toNat x ∧ Grid.OnAxis c.bits.toNat y) ∧
      (Grid.OnAxis c.bits.toNat x → Grid.OnAxis c.bits.toNat y → ∃ cell : Cell,
        (cell.x.toNat : Int) = x ∧ (cell.y.toNat : Int) = y ∧
        outcome = (.ok (cell.toPoint c.bits.toNat), rest)) ∧
      (¬ Grid.OnAxis c.bits.toNat x → outcome = (.error (.offGrid x c.bits.toNat), middle)) ∧
      (Grid.OnAxis c.bits.toNat x → ¬ Grid.OnAxis c.bits.toNat y →
        outcome = (.error (.offGrid y c.bits.toNat), rest)) := by
  refine ⟨fun p rest => reads_point (allows_iff.mpr h) what p rest, ?_⟩
  intro bytes middle rest dx dy hx hy x y outcome hwordx hwordy
  refine ⟨?_, runOn_point_of_onAxis h.2 hx hy, runOn_point_of_not_left hx hwordx,
    fun hleft => runOn_point_of_not_right h.2 hx hy hleft hwordy⟩
  by_cases hleft : Grid.OnAxis c.bits.toNat (shifted c.base.x dx)
  · by_cases hright : Grid.OnAxis c.bits.toNat (shifted c.base.y dy)
    · obtain ⟨cell, -, -, hrun⟩ := runOn_point_of_onAxis h.2 hx hy hleft hright
      exact iff_of_true ⟨_, congrArg Prod.fst hrun⟩ ⟨hleft, hright⟩
    · have hrun := runOn_point_of_not_right h.2 hx hy hleft hwordy hright
      rw [show outcome = _ from hrun]
      exact iff_of_false (fun ⟨_, hp⟩ => nomatch hp) fun hboth => hright hboth.2
  · have hrun := runOn_point_of_not_left hx hwordx hleft
    rw [show outcome = _ from hrun]
    exact iff_of_false (fun ⟨_, hp⟩ => nomatch hp) fun hboth => hleft hboth.1

/-- The finest grid, with a corner of it for a base point. -/
def cornerCoding : Coding := ⟨32, ⟨4294967295, 0⟩⟩

/-- From one corner of the finest grid the opposite one is reached, and no step beyond it. -/
theorem opposite_corner_read :
    (∃ cell : Cell, cell.x.toNat = 0 ∧ cell.y.toNat = 4294967295 ∧
      Decoder.runOn (cornerCoding.decodePoint "corner")
        [0xFD, 0xFF, 0xFF, 0xFF, 0x1F, 0xFE, 0xFF, 0xFF, 0xFF, 0x1F, 7]
          = (.ok (cell.toPoint 32), [7])) ∧
    Decoder.runOn (cornerCoding.decodePoint "corner")
      [0xFD, 0xFF, 0xFF, 0xFF, 0x1F, 0x80, 0x80, 0x80, 0x80, 0x20, 7]
        = (.error (.offGrid 4294967296 32), [7]) := by
  obtain ⟨-, hread⟩ := points_read_on_grid (by decide : 1 ≤ cornerCoding.bits.toNat ∧
    cornerCoding.bits.toNat ≤ 32) "corner"
  have hx : shifted cornerCoding.base.x 8589934589 = 0 := by decide
  have hy : shifted cornerCoding.base.y 8589934590 = 4294967295 := by decide
  have hbeyond : shifted cornerCoding.base.y 8589934592 = 4294967296 := by decide
  constructor
  · obtain ⟨-, hcell, -⟩ := hread
      [0xFD, 0xFF, 0xFF, 0xFF, 0x1F, 0xFE, 0xFF, 0xFF, 0xFF, 0x1F, 7]
      [0xFE, 0xFF, 0xFF, 0xFF, 0x1F, 7] [7] 8589934589 8589934590 rfl rfl (by decide) (by decide)
    rw [hx, hy] at hcell
    obtain ⟨cell, hcellx, hcelly, hrun⟩ := hcell (by decide) (by decide)
    exact ⟨cell, Int.ofNat.inj hcellx, Int.ofNat.inj hcelly, hrun⟩
  · obtain ⟨-, -, -, hdamage⟩ := hread
      [0xFD, 0xFF, 0xFF, 0xFF, 0x1F, 0x80, 0x80, 0x80, 0x80, 0x20, 7]
      [0x80, 0x80, 0x80, 0x80, 0x20, 7] [7] 8589934589 8589934592 rfl rfl (by decide) (by decide)
    rw [hx, hbeyond] at hdamage
    exact hdamage (by decide) (by decide)

/-! ## The coding itself -/

/-- A coding reads back. -/
theorem reads_encode {c : Coding} (h : allows c.bits.toNat = true) (what : String) :
    Decoder.Reads (decode what) c.encode c := by
  show Decoder.Reads _ ([c.bits] ++ (Varint.encode c.base.x.toNat ++ Varint.encode c.base.y.toNat)) c
  refine (Decoder.reads_octet what c.bits).bind ?_
  rw [if_pos h]
  exact (Decoder.reads_number32 what c.base.x).bind
    ((Decoder.reads_number32 what c.base.y).bind_pure rfl)

/-- A coding that has been read has an allowed precision. -/
theorem answers_decode (what : String) :
    Decoder.Answers (decode what) 1 fun c => allows c.bits.toNat = true := by
  unfold decode
  show Decoder.Answers _ (1 + (0 + (0 + 0))) _
  refine (Decoder.answers_octet what).bind fun bits _ => ?_
  split
  · rename_i hbits
    exact (Decoder.answers_number32 what).bind fun x _ =>
      (Decoder.answers_number32 what).bind fun y _ => .pure hbits
  · exact .throw _

end Coding

end Crossroads

import Crossroads.Proofs.Region.CrossingSection
import Crossroads.Proofs.Region.Header

/-!
# Base points off the grid

A coding that is made for a point has its base point on the grid of its precision.  A coding that is
read has an allowed precision as well, but its base point may be any two words: it is not compared
with the grid, neither in the header nor in a crossing section, though each point that is stored
relative to it is.

* `Coding.decode_eq_ok_iff` — which codings are read.
* `Coding.stored_valid_iff` — when these are as valid as those that are made.
-/

namespace Crossroads

namespace Coding

/-- What the coding of a region should be: its precision is allowed, and its base point lies on the
grid. -/
structure IsValid (c : Coding) : Prop where
  precision : 1 ≤ c.bits.toNat ∧ c.bits.toNat ≤ 32
  base : c.base.OnGrid c.bits.toNat

/-- A coding that is made for a point is valid. -/
theorem isValid_of_ofPoint {bits : UInt8} {p : Point Coordinate} {c : Coding}
    (h : ofPoint bits p = .ok c) : c.IsValid := by
  unfold ofPoint at h
  split at h
  · rename_i hbits
    obtain rfl := Except.ok.inj h
    have hprecision := allows_iff.mp hbits
    exact ⟨hprecision, Cell.onGrid_ofPoint hprecision.1 hprecision.2 p⟩
  · cases h

/-! ## Stored codings -/

/-- The coding that a precision and two numbers stand for. -/
def stored (bits : UInt8) (x y : UInt64) : Coding :=
  ⟨bits, ⟨UInt32.ofNat x.toNat, UInt32.ofNat y.toNat⟩⟩

/-- A stored coding is read if its precision is allowed and its base point consists of words. -/
theorem decode_eq_ok_iff {what : String} {bytes middle rest : Bytes} {x y : UInt64}
    (hx : Decoder.runOn (Decoder.number what) bytes = (.ok x, middle))
    (hy : Decoder.runOn (Decoder.number what) middle = (.ok y, rest)) (bits : UInt8) (c : Coding) :
    (Decoder.runOn (decode what) (bits :: bytes)).1 = .ok c ↔
      ((1 ≤ bits.toNat ∧ bits.toNat ≤ 32) ∧ x.toNat < UInt32.size ∧ y.toNat < UInt32.size) ∧
        stored bits x y = c := by
  have hoctet : Decoder.runOn (Decoder.octet what) (bits :: bytes) = (.ok bits, bytes) := rfl
  have hreadx := Decoder.runOn_number32 hx
  have hready := Decoder.runOn_number32 hy
  rw [decode, Decoder.runOn_bind_ok hoctet, ← allows_iff]
  by_cases hbits : allows bits.toNat = true
  · rw [if_pos hbits]
    by_cases hxword : x.toNat < UInt32.size
    · rw [if_pos hxword] at hreadx
      rw [Decoder.runOn_bind_ok hreadx]
      by_cases hyword : y.toNat < UInt32.size
      · rw [if_pos hyword] at hready
        rw [Decoder.runOn_bind_ok hready, Decoder.runOn_pure, Except.ok.injEq,
          and_iff_right ⟨hbits, hxword, hyword⟩]
        rfl
      · rw [if_neg hyword] at hready
        rw [Decoder.runOn_bind_error hready]
        exact iff_of_false (fun h => nomatch h) fun h => hyword h.1.2.2
    · rw [if_neg hxword] at hreadx
      rw [Decoder.runOn_bind_error hreadx]
      exact iff_of_false (fun h => nomatch h) fun h => hxword h.1.2.1
  · rw [if_neg hbits]
    exact iff_of_false (fun h => nomatch h) fun h => hbits h.1.1

/-- A stored coding is valid if its numbers are coordinates of the grid. -/
theorem isValid_stored_iff {bits : UInt8} {x y : UInt64}
    (hbits : 1 ≤ bits.toNat ∧ bits.toNat ≤ 32)
    (hx : x.toNat < UInt32.size) (hy : y.toNat < UInt32.size) :
    (stored bits x y).IsValid ↔
      x.toNat ≤ Grid.top bits.toNat ∧ y.toNat ≤ Grid.top bits.toNat := by
  have hxnat : (UInt32.ofNat x.toNat).toNat = x.toNat := UInt32.toNat_ofNat_of_lt' hx
  have hynat : (UInt32.ofNat y.toNat).toNat = y.toNat := UInt32.toNat_ofNat_of_lt' hy
  constructor
  · rintro ⟨-, hxgrid, hygrid⟩
    exact ⟨hxnat ▸ hxgrid, hynat ▸ hygrid⟩
  · rintro ⟨hxgrid, hygrid⟩
    exact ⟨hbits, hxnat.symm ▸ hxgrid, hynat.symm ▸ hygrid⟩

/-! ## In the sections -/

/-- Any coding with an allowed precision is loaded from some header. -/
theorem exists_load_iff (c : Coding) :
    (∃ container, load container = .ok c) ↔ 1 ≤ c.bits.toNat ∧ c.bits.toNat ≤ 32 := by
  constructor
  · rintro ⟨container, hload⟩
    exact allows_iff.mp (allows_of_load hload)
  · intro hbits
    exact ⟨_, load_append_self (Container.sound_create "r").readable (allows_iff.mpr hbits)⟩

/-- A crossing section that is read has a coding with an allowed precision. -/
theorem allows_of_crossing {body : Bytes} {s : CrossingSection}
    (h : CrossingSection.decode body = .ok s) : allows s.coding.bits.toNat = true := by
  have hrun := Decoder.readAll_eq_ok_iff.mp h
  unfold CrossingSection.decoder at hrun
  obtain ⟨coding, _, hcoding, hrun⟩ := Decoder.exists_of_runOn_bind hrun
  -- The coding is handed on as it was read; of the other five steps only that they end matters.
  obtain ⟨_, _, -, hrun⟩ := Decoder.exists_of_runOn_bind hrun
  obtain ⟨_, _, -, hrun⟩ := Decoder.exists_of_runOn_bind hrun
  obtain ⟨_, _, -, hrun⟩ := Decoder.exists_of_runOn_bind hrun
  obtain ⟨_, _, -, hrun⟩ := Decoder.exists_of_runOn_bind hrun
  obtain ⟨_, _, -, hrun⟩ := Decoder.exists_of_runOn_bind hrun
  rw [Decoder.runOn_pure] at hrun
  cases hrun
  exact (answers_decode _ _ _ _ hcoding).2

/-- A crossing section without transitions. -/
def bareSection (c : Coding) : CrossingSection := ⟨c, [], .ofFn fun v => Transition.connector [] v⟩

theorem wellFormed_bareSection {c : Coding} (h : allows c.bits.toNat = true) :
    c.bareSection.WellFormed := by
  have hempty : ([] : List Segment).length < UInt64.size := by decide
  refine ⟨h, hempty, fun v => ?_⟩
  rw [bareSection, PerVehicle.get_ofFn]
  exact ⟨hempty, hempty, .inl rfl⟩

theorem consistent_bareSection (c : Coding) : c.bareSection.Consistent := by
  intro v
  rw [bareSection, PerVehicle.get_ofFn]
  exact ⟨rfl, rfl⟩

/-- Any coding with an allowed precision is read from some crossing section. -/
theorem exists_crossing_iff (c : Coding) :
    (∃ body s, CrossingSection.decode body = .ok s ∧ s.coding = c) ↔
      1 ≤ c.bits.toNat ∧ c.bits.toNat ≤ 32 := by
  constructor
  · rintro ⟨body, s, hread, rfl⟩
    exact allows_iff.mp (allows_of_crossing hread)
  · intro hbits
    have hstored := wellFormed_bareSection (allows_iff.mpr hbits)
    have hread := CrossingSection.decode_encode_of_consistent hstored c.consistent_bareSection
    exact ⟨_, _, hread, rfl⟩

/-- **Base points are not compared with the grid.**  A coding that is made for a point is valid.  Of a
stored precision and two stored numbers a coding is read just when the precision is allowed and the
numbers are words, but a valid one only when these are coordinates of the grid as well.  So a coding
with an allowed precision is loaded from a header, and read from a crossing section, whatever its
base point is. -/
theorem stored_valid_iff (what : String) :
    (∀ bits p c, ofPoint bits p = .ok c → c.IsValid) ∧
    (∀ (bits : UInt8) (bytes middle rest : Bytes) (x y : UInt64),
      Decoder.runOn (Decoder.number what) bytes = (.ok x, middle) →
      Decoder.runOn (Decoder.number what) middle = (.ok y, rest) →
      let outcome := (Decoder.runOn (decode what) (bits :: bytes)).1
      let allowed := 1 ≤ bits.toNat ∧ bits.toNat ≤ 32
      let top := Grid.top bits.toNat
      ((∃ c, outcome = .ok c) ↔ allowed ∧ x.toNat < UInt32.size ∧ y.toNat < UInt32.size) ∧
      ((∃ c, outcome = .ok c ∧ c.IsValid) ↔ allowed ∧ x.toNat ≤ top ∧ y.toNat ≤ top) ∧
      ∀ c, outcome = .ok c →
        c.bits = bits ∧ c.base.x.toNat = x.toNat ∧ c.base.y.toNat = y.toNat) ∧
    ∀ c : Coding,
      ((∃ container, load container = .ok c) ↔ 1 ≤ c.bits.toNat ∧ c.bits.toNat ≤ 32) ∧
      ((∃ body s, CrossingSection.decode body = .ok s ∧ s.coding = c) ↔
        1 ≤ c.bits.toNat ∧ c.bits.toNat ≤ 32) := by
  refine ⟨fun bits p c => isValid_of_ofPoint, ?_, fun c => ⟨exists_load_iff c, exists_crossing_iff c⟩⟩
  intro bits bytes middle rest x y hx hy
  have hread := decode_eq_ok_iff hx hy bits
  refine ⟨?_, ?_, ?_⟩
  · simp only [hread, exists_and_left, exists_eq', and_true]
  · constructor
    · rintro ⟨c, hc, hvalid⟩
      obtain ⟨⟨hbits, hxword, hyword⟩, rfl⟩ := (hread c).mp hc
      exact ⟨hbits, (isValid_stored_iff hbits hxword hyword).mp hvalid⟩
    · rintro ⟨hbits, hxgrid, hygrid⟩
      have htop := Grid.top_lt_size hbits.2
      have hxword : x.toNat < UInt32.size := by omega
      have hyword : y.toNat < UInt32.size := by omega
      exact ⟨_, (hread _).mpr ⟨⟨hbits, hxword, hyword⟩, rfl⟩,
        (isValid_stored_iff hbits hxword hyword).mpr ⟨hxgrid, hygrid⟩⟩
  · intro c hc
    obtain ⟨⟨-, hxword, hyword⟩, rfl⟩ := (hread c).mp hc
    exact ⟨rfl, UInt32.toNat_ofNat_of_lt' hxword, UInt32.toNat_ofNat_of_lt' hyword⟩

/-- On a grid of eight bits a base point is read that lies at 1000, and it is loaded from a header and
from a crossing section. -/
theorem base_point_off_grid_read :
    let c : Coding := ⟨8, ⟨1000, 0⟩⟩
    (Decoder.runOn (decode "header section") [8, 0xE8, 0x07, 0x00]).1 = .ok c ∧ ¬ c.IsValid ∧
    (∃ container, load container = .ok c) ∧
    ∃ body s, CrossingSection.decode body = .ok s ∧ s.coding = c := by
  intro c
  obtain ⟨-, hstored, hsections⟩ := stored_valid_iff "header section"
  have hread : (Decoder.runOn (decode "header section") [8, 0xE8, 0x07, 0x00]).1 = .ok c := rfl
  have hiff := (hstored 8 [0xE8, 0x07, 0x00] [0x00] [] 1000 0 rfl rfl).2.1
  refine ⟨hread, fun hvalid => ?_, (hsections c).1.mpr (by decide), (hsections c).2.mpr (by decide)⟩
  have htop : (1000 : UInt64).toNat ≤ Grid.top (8 : UInt8).toNat := (hiff.mp ⟨c, hread, hvalid⟩).2.1
  exact absurd htop (by decide)

end Coding

end Crossroads

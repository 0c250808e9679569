import Crossroads.Proofs.Bytes.Checksum
import Crossroads.Proofs.Region.Header

/-!
# Bursts are noticed

Damage within eight neighbouring octets never goes unnoticed, neither in a sealed frame, where it may
hit the checksum as well, nor in a section of a container, whether the container has been open all
the time or is opened again (`Container.bursts_noticed`).
-/

namespace Crossroads

/-- Damage within a part of a byte string is damage to that part. -/
theorem Bytes.Burst.slice {xs ys : Bytes} (h : xs.Burst ys) {offset size : Nat}
    (hinside : ∀ i, ys[i]? ≠ xs[i]? → offset ≤ i ∧ i < offset + size) :
    Burst ((xs.drop offset).take size) ((ys.drop offset).take size) := by
  obtain ⟨hlength, hdamaged, start, hwindow⟩ := h
  have hget : ∀ (zs : Bytes) (i : Nat), i < size →
      ((zs.drop offset).take size)[i]? = zs[offset + i]? := by
    intro zs i hi
    rw [List.getElem?_take_of_lt hi, List.getElem?_drop]
  refine ⟨?_, ?_, start - offset, ?_⟩
  · rw [List.length_take, List.length_take, List.length_drop, List.length_drop, hlength]
  · intro hsame
    apply hdamaged
    apply List.ext_getElem?
    intro i
    by_contra hne
    obtain ⟨hlow, hhigh⟩ := hinside i hne
    obtain ⟨j, rfl⟩ := Nat.exists_eq_add_of_le hlow
    rw [← hget ys j (by omega), ← hget xs j (by omega), hsame] at hne
    exact hne rfl
  · intro i hne
    by_cases hi : i < size
    · rw [hget ys i hi, hget xs i hi] at hne
      have hnear := hwindow _ hne
      omega
    · exfalso
      apply hne
      rw [List.getElem?_take_eq_none (Nat.not_lt.mp hi), List.getElem?_take_eq_none (Nat.not_lt.mp hi)]

/-! ## Frames -/

namespace Seal

/-- Every frame leaves the same remainder. -/
theorem update_wrap (s : Seal) (body : Bytes) :
    Digest.empty.update (s.wrap body) = ⟨Checksum.shifts 64 Checksum.ones⟩ := by
  refine Digest.update_checksum (Bytes.length_littleEndian _ _) ?_
  rw [Bytes.ofLittleEndian_littleEndian]
  exact Nat.mod_eq_of_lt (checksum (s.header ++ body)).toNat_lt

/-- A frame is not taken off after a burst. -/
theorem unwrap_of_burst (s : Seal) (what : String) {body data : Bytes}
    (h : (s.wrap body).Burst data) : ∃ damage, s.unwrap what data = .error damage := by
  cases hunwrap : s.unwrap what data with
  | error damage => exact ⟨damage, rfl⟩
  | ok found =>
    obtain rfl := eq_wrap_of_unwrap hunwrap
    have hsame := (s.update_wrap found).trans (s.update_wrap body).symm
    exact absurd hsame (Digest.empty.update_ne_of_burst h)

/-- The body of a frame is not read after a burst. -/
theorem readBody_of_burst (s : Seal) (what : String) {body data : Bytes}
    (h : (s.wrap body).Burst data) : ∃ damage, s.readBody what data = .error (.corrupt damage) := by
  obtain ⟨damage, hdamage⟩ := s.unwrap_of_burst what h
  rw [readBody_eq, hdamage]
  exact ⟨damage, rfl⟩

theorem readBody_wrap (s : Seal) (what : String) (body : Bytes) :
    s.readBody what (s.wrap body) = .ok body := by
  rw [readBody_eq, unwrap_wrap]
  rfl

end Seal

/-! ## Sections -/

namespace Container

variable {c : Container} {name : String} {e : Entry} {data file : Bytes}

/-- A section that can be read is in the place that its entry names. -/
theorem of_read_eq_ok (he : c.entry? name = some e) (h : c.read name = .ok data) :
    data = (c.file.drop e.offset).take e.size ∧ e.size ≤ data.length ∧
      checksum data = e.checksum := by
  rw [read, he] at h
  dsimp only at h
  split at h
  · cases h
  rename_i hlong
  split at h
  · rename_i hchecksum
    cases h
    exact ⟨rfl, Nat.not_lt.mp hlong, hchecksum⟩
  · cases h

/-- A section is not read after a burst. -/
theorem read_of_burst (he : c.entry? name = some e) (h : c.read name = .ok data)
    (hburst : c.file.Burst file)
    (hinside : ∀ i, file[i]? ≠ c.file[i]? → e.offset ≤ i ∧ i < e.offset + e.size) :
    read { c with file := file } name = .error (.corrupt (.sectionChecksum name c.path)) := by
  obtain ⟨rfl, hlong, hchecksum⟩ := of_read_eq_ok he h
  have hsection := hburst.slice hinside
  have he' : Container.entry? { c with file := file } name = some e := he
  have hlong' : ¬ ((file.drop e.offset).take e.size).length < e.size := by
    rw [hsection.length]
    exact Nat.not_lt.mpr hlong
  have hother := Digest.checksum_ne_of_burst hsection
  rw [hchecksum] at hother
  rw [read, he']
  dsimp only
  rw [if_neg hlong', if_neg hother]

/-- A file that differs within the data only opens as the same container, if it opens. -/
theorem eq_of_ofBytes_of_drop_eq {path : String} {other : Bytes} {opened : Container}
    (h : ofBytes path file = .ok c) (hlength : other.length = file.length)
    (hrest : other.drop c.cursor = file.drop c.cursor) (hopen : ofBytes path other = .ok opened) :
    opened = { c with file := other } := by
  have hsame : ∀ n, c.cursor ≤ n → other.drop n = file.drop n := by
    intro n hn
    obtain ⟨k, rfl⟩ := Nat.exists_eq_add_of_le hn
    rw [← List.drop_drop, hrest, List.drop_drop]
  rw [ofBytes] at h
  split at h
  · cases h
  dsimp only at h
  split at h
  · cases h
  split at h
  · cases h
  rename_i hlong _ hfooter
  generalize hcontents : Decoder.runOn _ _ = outcome at h
  obtain ⟨entries | entries, rest⟩ := outcome
  · cases h
  cases h
  -- the footer, and with it the table of contents, is where it was
  push Not at hfooter
  have hend := hfooter.2.2
  rw [ofBytes, hlength, if_neg hlong] at hopen
  dsimp only at hopen
  split at hopen
  · cases hopen
  split at hopen
  · cases hopen
  rw [hsame _ hend, hsame _ (Nat.le_add_right_of_le hend), hrest, hcontents] at hopen
  cases hopen
  rfl

/-- **Bursts are noticed.**  The body of a frame that was written is read; with other octets in place
of some of eight neighbouring ones, be it in the body, in the checksum or across the border between
them, the frame is corrupt.  A section that could be read is corrupt after such damage to its data,
also when its container is opened again. -/
theorem bursts_noticed :
    (∀ {σ : Type} {sink : Sink σ} {held : σ → Bytes}, sink.Holds held →
      ∀ (s : Seal) (what : String) (body : Bytes) (state : σ), ∃ state' frame,
        s.writeTo sink body state = some state' ∧ held state' = held state ++ frame ∧
        s.readBody what frame = .ok body ∧
        ∀ data, frame.Burst data → ∃ damage, s.readBody what data = .error (.corrupt damage)) ∧
    ∀ (c : Container) (name : String) (e : Entry) (data file : Bytes),
      c.entry? name = some e → c.read name = .ok data → c.file.Burst file →
      (∀ i, file[i]? ≠ c.file[i]? → e.offset ≤ i ∧ i < e.offset + e.size) →
      read { c with file := file } name = .error (.corrupt (.sectionChecksum name c.path)) ∧
      ∀ opened, ofBytes c.path c.file = .ok c → ofBytes c.path file = .ok opened →
        opened.read name = .error (.corrupt (.sectionChecksum name c.path)) := by
  refine ⟨fun {σ sink held} hholds s what body state => ?_, ?_⟩
  · obtain ⟨state', hwritten, hheld⟩ := s.exists_writeTo hholds body state
    exact ⟨state', s.wrap body, hwritten, hheld, s.readBody_wrap what body,
      fun data h => s.readBody_of_burst what h⟩
  · intro c name e data file he hread hburst hinside
    have hcorrupt := read_of_burst he hread hburst hinside
    refine ⟨hcorrupt, ?_⟩
    intro opened hopened hopen
    obtain ⟨-, -, hreadable, -⟩ := ofBytes_eq_ok hopened
    have hend := (hreadable.entries e (List.mem_of_find?_eq_some he)).2
    have hrest : file.drop c.cursor = c.file.drop c.cursor := by
      apply List.ext_getElem?
      intro i
      rw [List.getElem?_drop, List.getElem?_drop]
      by_contra hne
      have hbefore := (hinside _ hne).2
      omega
    rw [eq_of_ofBytes_of_drop_eq hopened hburst.length hrest hopen]
    exact hcorrupt

/-- A container with a section of ten octets. -/
def logbook : Container := (create "r").append "log" [[1, 2, 3, 4, 5], [6, 7, 8, 9, 10]]

/-- The last octet of a body is lost together with seven octets of the checksum, and so are the last
eight octets of a section. -/
theorem lost_octets_noticed :
    (∃ damage, (⟨0xABCD0001, 3⟩ : Seal).readBody "frame"
      ([1, 0, 205, 171, 3, 0, 112, 97] ++ List.replicate 8 0 ++ [179]) = .error (.corrupt damage)) ∧
    read { logbook with
      file := logbook.file.take 10 ++ List.replicate 8 0 ++ logbook.file.drop 18 } "log"
        = .error (.corrupt (.sectionChecksum "log" "r")) := by
  obtain ⟨hframes, hsections⟩ := bursts_noticed
  have hreadable := (sound_create "r").readable
  have hlength : ((logbook.file.drop 10).take 8).length = (List.replicate 8 (0 : UInt8)).length := by
    decide +kernel
  have hfile : logbook.file = logbook.file.take 10 ++ (logbook.file.drop 10).take 8
      ++ logbook.file.drop 18 := by
    decide +kernel
  constructor
  · obtain ⟨kept, frame, hwritten, rfl, -, hcorrupt⟩ :=
      hframes Sink.holds_keep ⟨0xABCD0001, 3⟩ "frame" [112, 97, 121] []
    rw [Seal.writeTo_keep] at hwritten
    obtain rfl := Option.some.inj hwritten
    exact hcorrupt _ (Bytes.burst_iff.mpr ⟨[1, 0, 205, 171, 3, 0, 112, 97],
      [121, 15, 17, 206, 253, 255, 14, 130], _, _, by decide +kernel, rfl, rfl, by decide, by decide⟩)
  · refine (hsections logbook "log" _ _ _ (entry?_append_self "log" _)
      (read_append_self hreadable "log" _) (Bytes.burst_iff.mpr
        ⟨_, _, _, _, hfile, rfl, hlength, by decide +kernel, by decide +kernel⟩) ?_).1
    intro i hne
    have hwindow : (logbook.file.take 10 ++ List.replicate 8 0 ++ logbook.file.drop 18)[i]?
        ≠ (logbook.file.take 10 ++ (logbook.file.drop 10).take 8 ++ logbook.file.drop 18)[i]? := by
      rw [← hfile]
      exact hne
    have hinside := Bytes.inside_of_getElem?_ne hlength hwindow
    have hfront : (logbook.file.take 10).length = 10 := by decide +kernel
    rw [hlength, hfront] at hinside
    exact ⟨Nat.le_trans (by decide) hinside.1, Nat.lt_of_lt_of_le hinside.2 (by decide)⟩

end Container

end Crossroads

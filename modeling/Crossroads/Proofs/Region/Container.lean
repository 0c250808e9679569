import Crossroads.Region.Container
import Crossroads.Proofs.Bytes.Decoder
import Crossroads.Proofs.Bytes.Text
import Mathlib.Data.List.Flatten

/-!
# What containers keep

A container is `Readable` when its file starts like one and all sections lie within the data.  Any
container that is opened is readable, whoever wrote the file (`ofBytes_eq_ok`).  What is written to
it as a section is read from it (`read_append_self`), the other sections read as before
(`read_append_of_ne`), and then it is `Closed`: its file is the data and the table of contents, which
opens as the container (`ofBytes_file`).

Of a `Sound` container the header and the names are as they are written, too.  A new container is
sound, and so is every one that a section has been written to.

Octets are written over those that are there.  Whatever is written, what stands before it is left
alone (`Tape.upTo_file_putAll`), so a section that is given up leaves nothing behind
(`Sound.restore_eq`).
-/

namespace Crossroads

/-! ## Digests -/

theorem Digest.foldl_update (digest : Digest) (pieces : List Bytes) :
    pieces.foldl Digest.update digest = digest.update pieces.flatten := by
  induction pieces generalizing digest with
  | nil => rfl
  | cons piece pieces ih =>
    rw [List.foldl_cons, ih, List.flatten_cons, Digest.update_append]

namespace Container

/-! ## Writing into files -/

@[simp]
theorem length_upTo (n : Nat) (file : Bytes) : (upTo n file).length = n := by
  simp only [upTo, List.length_append, List.length_take, List.length_replicate]
  omega

theorem upTo_of_le {n : Nat} {file : Bytes} (h : n ≤ file.length) : upTo n file = file.take n := by
  rw [upTo, Nat.sub_eq_zero_of_le h, List.replicate_zero, List.append_nil]

theorem upTo_append_of_le {n : Nat} {file : Bytes} (h : n ≤ file.length) (rest : Bytes) :
    upTo n (file ++ rest) = upTo n file := by
  have hlonger : n ≤ (file ++ rest).length := by
    rw [List.length_append]
    omega
  rw [upTo_of_le hlonger, upTo_of_le h, List.take_append_of_le_length h]

theorem upTo_upTo {n m : Nat} (h : n ≤ m) (file : Bytes) : upTo n (upTo m file) = upTo n file := by
  have hzeros : min (n - min m file.length) (m - file.length) = n - file.length := by omega
  rw [upTo_of_le (by rwa [length_upTo]), upTo, upTo, List.take_append, List.take_take,
    Nat.min_eq_left h, List.length_take, List.take_replicate, hzeros]

namespace Tape

variable (t : Tape) (octets : Bytes) (pieces : List Bytes)

theorem putAll_cons : t.putAll (octets :: pieces) = (t.put octets).putAll pieces := rfl

theorem position_putAll : (t.putAll pieces).position = t.position + pieces.flatten.length := by
  induction pieces generalizing t with
  | nil => rfl
  | cons octets pieces ih =>
    rw [putAll_cons, ih, put, List.flatten_cons, List.length_append, Nat.add_assoc]

/-- What stands before the position is left alone. -/
theorem upTo_file_put {n : Nat} (h : n ≤ t.position) : upTo n (t.put octets).file = upTo n t.file := by
  rw [put]
  by_cases hempty : octets.isEmpty
  · rw [if_pos hempty]
  · rw [if_neg hempty, List.append_assoc, upTo_append_of_le (by rwa [length_upTo]), upTo_upTo h]

theorem upTo_file_putAll {n : Nat} (h : n ≤ t.position) :
    upTo n (t.putAll pieces).file = upTo n t.file := by
  induction pieces generalizing t with
  | nil => rfl
  | cons octets pieces ih =>
    rw [putAll_cons, ih _ (Nat.le_trans h (Nat.le_add_right _ _)), upTo_file_put t octets h]

/-- Up to the position, a file holds what it held and what has been written. -/
theorem cut_put : (t.put octets).cut = t.cut ++ octets := by
  rw [cut, cut, put]
  by_cases hempty : octets.isEmpty
  · rw [List.isEmpty_iff] at hempty
    simp [hempty]
  · have hlength : (upTo t.position t.file ++ octets).length = t.position + octets.length := by
      rw [List.length_append, length_upTo]
    rw [if_neg hempty, upTo_append_of_le (Nat.le_of_eq hlength.symm),
      upTo_of_le (Nat.le_of_eq hlength.symm), List.take_of_length_le (Nat.le_of_eq hlength)]

theorem cut_putAll : (t.putAll pieces).cut = t.cut ++ pieces.flatten := by
  induction pieces generalizing t with
  | nil => exact (List.append_nil _).symm
  | cons octets pieces ih => rw [putAll_cons, ih, cut_put, List.flatten_cons, List.append_assoc]

end Tape

/-! ## Steps of a container -/

section Steps

variable (c : Container) (name : String) (pieces : List Bytes)

/-- Writing the table of contents leaves the data and the table, and nothing behind it. -/
theorem file_writeContents :
    c.writeContents.file = upTo c.cursor c.file ++ encodeContents c.entries c.cursor :=
  Tape.cut_put _ _

theorem file_restore :
    (c.restore pieces).file = upTo c.cursor c.file ++ encodeContents c.entries c.cursor := by
  rw [restore, file_writeContents]
  exact congrArg (· ++ _) (c.tape.upTo_file_putAll pieces (Nat.le_refl c.cursor))

theorem cursor_append : (c.append name pieces).cursor = c.cursor + pieces.flatten.length :=
  c.tape.position_putAll pieces

theorem entries_append : (c.append name pieces).entries = c.entries.filter (fun e => e.name != name)
    ++ [⟨name, c.cursor, pieces.flatten.length, checksum pieces.flatten⟩] := by
  have hsize : (c.tape.putAll pieces).position - c.cursor = pieces.flatten.length := by
    rw [Tape.position_putAll]
    exact Nat.add_sub_cancel_left _ _
  show _ ++ [(⟨name, c.cursor, _, (pieces.foldl Digest.update Digest.empty).finish⟩ : Entry)] = _
  rw [hsize, Digest.foldl_update]
  rfl

theorem file_append : (c.append name pieces).file = upTo c.cursor c.file ++ pieces.flatten
    ++ encodeContents (c.append name pieces).entries (c.append name pieces).cursor := by
  show ((c.tape.putAll pieces).put _).cut = _
  rw [Tape.cut_put, Tape.cut_putAll]
  rfl

/-- A writer that does not fail writes a section of the size of its data. -/
theorem write_of_fits (hname : nameFits name = true) :
    c.write name ⟨pieces, none⟩ = (.ok pieces.flatten.length, c.append name pieces) := by
  rw [write, if_pos hname]
  show (Except.ok ((c.append name pieces).cursor - c.cursor), _) = _
  rw [cursor_append, Nat.add_sub_cancel_left]

theorem length_entries_append_le :
    (c.append name pieces).entries.length ≤ c.entries.length + 1 := by
  have hle := List.length_filter_le (fun e : Entry => e.name != name) c.entries
  rw [entries_append, List.length_append, List.length_singleton]
  omega

end Steps

/-! ## Readable containers -/

/-- The file starts as those of containers do.  All sections lie within the data, which ends at the
cursor, and their names fit into the table of contents. -/
structure Readable (c : Container) : Prop where
  magic : Bytes.ofLittleEndian (c.file.take 4) = Container.magic
  version : Bytes.ofLittleEndian ((c.file.drop 4).take 2) = Container.version
  start : dataStart ≤ c.cursor
  stop : c.cursor ≤ c.file.length
  entries : ∀ e ∈ c.entries, e.name.utf8ByteSize < UInt16.size ∧ e.offset + e.size ≤ c.cursor

/-- After the data comes the table of contents, and nothing else. -/
structure Closed (c : Container) : Prop extends Readable c where
  contents : c.file = c.file.take c.cursor ++ encodeContents c.entries c.cursor

/-- The footer has room for the end of the data and for the number of sections. -/
def FooterFits (c : Container) : Prop :=
  c.cursor < UInt64.size ∧ c.entries.length < UInt32.size

theorem lt_size_of_nameFits {name : String} (h : nameFits name = true) :
    name.utf8ByteSize < UInt16.size := by
  rw [nameFits, Bool.and_eq_true, decide_eq_true_eq, decide_eq_true_eq] at h
  exact h.2

namespace Readable

variable {c : Container}

theorem file_append (h : c.Readable) (name : String) (pieces : List Bytes) :
    (c.append name pieces).file = c.file.take c.cursor ++ pieces.flatten
      ++ encodeContents (c.append name pieces).entries (c.append name pieces).cursor := by
  rw [Container.file_append, upTo_of_le h.stop]

/-- Whatever is written after the data, what lies within it stays. -/
theorem slice_append (h : c.Readable) (name : String) (pieces : List Bytes) {offset size : Nat}
    (hend : offset + size ≤ c.cursor) : ((c.append name pieces).file.drop offset).take size
      = (c.file.drop offset).take size := by
  have hlength := List.length_take_of_le h.stop
  have hcut : ∀ rest : Bytes, ((c.file.take c.cursor ++ rest).drop offset).take size
      = ((c.file.take c.cursor).drop offset).take size := by
    intro rest
    rw [List.drop_append_of_le_length (by omega),
      List.take_append_of_le_length (by rw [List.length_drop]; omega)]
  rw [h.file_append, List.append_assoc, hcut, ← hcut (c.file.drop c.cursor), List.take_append_drop]

/-- Writing a section leaves nothing of the old table of contents. -/
theorem append (h : c.Readable) {name : String} (hname : name.utf8ByteSize < UInt16.size)
    (pieces : List Bytes) : (c.append name pieces).Closed where
  magic := by
    have hword := h.slice_append name pieces (Nat.le_trans (by decide : 0 + 4 ≤ dataStart) h.start)
    rw [List.drop_zero, List.drop_zero] at hword
    rw [hword, h.magic]
  version := by
    rw [h.slice_append name pieces (Nat.le_trans (by decide : 4 + 2 ≤ dataStart) h.start), h.version]
  start := by
    rw [cursor_append]
    exact Nat.le_trans h.start (Nat.le_add_right _ _)
  stop := by
    rw [h.file_append, cursor_append, List.length_append, List.length_append,
      List.length_take_of_le h.stop]
    exact Nat.le_add_right _ _
  entries := by
    intro e he
    rw [cursor_append]
    rw [entries_append] at he
    rcases List.mem_append.mp he with hold | hnew
    · obtain ⟨hsize, hend⟩ := h.entries e (List.mem_filter.mp hold).1
      exact ⟨hsize, Nat.le_trans hend (Nat.le_add_right _ _)⟩
    · rw [List.mem_singleton.mp hnew]
      exact ⟨hname, Nat.le_refl _⟩
  contents := by
    have hlength : (c.file.take c.cursor ++ pieces.flatten).length
        = (c.append name pieces).cursor := by
      rw [cursor_append, List.length_append, List.length_take_of_le h.stop]
    rw [h.file_append, List.take_left' hlength]

end Readable

/-! ## Sound containers -/

/-- The file holds data up to the cursor and the table of contents after it.  All sections lie
within the data. -/
structure Sound (c : Container) : Prop where
  data : ∃ data, c.file = header ++ data ++ encodeContents c.entries c.cursor
    ∧ (header ++ data).length = c.cursor
  entries : ∀ e ∈ c.entries, nameFits e.name = true ∧ e.offset + e.size ≤ c.cursor

theorem length_header : header.length = dataStart := rfl

theorem sound_create (path : String) : (create path).Sound := by
  refine ⟨⟨[], ?_, rfl⟩, ?_⟩
  · rw [create, file_writeContents, upTo_of_le (Nat.le_of_eq length_header.symm)]
    rfl
  · intro e he
    cases he

namespace Sound

variable {c : Container}

theorem closed (h : c.Sound) : c.Closed := by
  obtain ⟨data, hfile, hcursor⟩ := h.data
  have hheader : c.file = header ++ (data ++ encodeContents c.entries c.cursor) := by
    rw [hfile, List.append_assoc]
  constructor
  · constructor
    · rw [hheader, List.take_append_of_le_length (by decide)]
      decide
    · rw [hheader, List.drop_append_of_le_length (by decide),
        List.take_append_of_le_length (by decide)]
      decide
    · rw [← hcursor, List.length_append, length_header]
      exact Nat.le_add_right _ _
    · rw [hfile, List.length_append, hcursor]
      exact Nat.le_add_right _ _
    · exact fun e he => (h.entries e he).imp_left lt_size_of_nameFits
  · rw [hfile, List.take_left' hcursor]

theorem readable (h : c.Sound) : c.Readable := h.closed.toReadable

theorem take_cursor (h : c.Sound) : ∃ data, c.file.take c.cursor = header ++ data := by
  obtain ⟨data, hfile, hcursor⟩ := h.data
  refine ⟨data, ?_⟩
  rw [hfile, ← hcursor, List.take_left]

theorem append (h : c.Sound) {name : String} (hname : nameFits name = true) (pieces : List Bytes) :
    (c.append name pieces).Sound := by
  have hcursor := h.readable.stop
  obtain ⟨data, hdata⟩ := h.take_cursor
  constructor
  · refine ⟨data ++ pieces.flatten, ?_, ?_⟩
    · rw [h.readable.file_append, hdata, List.append_assoc header]
    · rw [← List.append_assoc, ← hdata, List.length_append, List.length_take_of_le hcursor,
        cursor_append]
  · intro e he
    rw [cursor_append]
    rw [entries_append] at he
    rcases List.mem_append.mp he with hold | hnew
    · obtain ⟨hfits, hend⟩ := h.entries e (List.mem_filter.mp hold).1
      exact ⟨hfits, Nat.le_trans hend (Nat.le_add_right _ _)⟩
    · rw [List.mem_singleton.mp hnew]
      exact ⟨hname, Nat.le_refl _⟩

/-- When a section is given up, the table of contents takes back its place, whatever has been
written over it. -/
theorem restore_eq (h : c.Sound) (pieces : List Bytes) : c.restore pieces = c := by
  have hrestored : (c.restore pieces).file = c.file := by
    rw [file_restore, upTo_of_le h.readable.stop, ← h.closed.contents]
  show { c with file := (c.restore pieces).file } = c
  rw [hrestored]

end Sound

theorem length_encodeEntry (e : Entry) : (encodeEntry e).length = 26 + e.name.utf8ByteSize := by
  simp only [encodeEntry, List.length_append, Bytes.length_littleEndian, Bytes.length_ofText]
  omega

/-- A section makes the file longer by no more than itself and its entry. -/
theorem Closed.length_file_append_le {c : Container} (h : c.Closed) (name : String)
    (pieces : List Bytes) : (c.append name pieces).file.length
      ≤ c.file.length + pieces.flatten.length + (26 + name.utf8ByteSize) := by
  have hcursor := List.length_take_of_le h.stop
  have hkept : ((c.entries.filter fun e => e.name != name).flatMap encodeEntry).length
      ≤ (c.entries.flatMap encodeEntry).length :=
    (List.filter_sublist.flatMap encodeEntry).length_le
  have hlength : c.file.length = c.cursor + (encodeContents c.entries c.cursor).length := by
    conv_lhs => rw [h.contents, List.length_append, hcursor]
  rw [h.file_append, hlength, entries_append]
  simp only [encodeContents, List.length_append, List.flatMap_append, List.flatMap_singleton,
    length_encodeEntry, Bytes.length_littleEndian, hcursor]
  omega

/-! ## Reading sections -/

section Reading

variable {c : Container}

theorem entry?_append_self (name : String) (pieces : List Bytes) :
    Container.entry? (c.append name pieces) name
      = some ⟨name, c.cursor, pieces.flatten.length, checksum pieces.flatten⟩ := by
  have hnone : (c.entries.filter fun e => e.name != name).find? (fun e => e.name == name) = none := by
    rw [List.find?_eq_none]
    intro e he
    simpa using (List.mem_filter.mp he).2
  unfold Container.entry?
  rw [entries_append, List.find?_append, hnone]
  simp

theorem entry?_append_of_ne {name other : String} (hne : other ≠ name) (pieces : List Bytes) :
    Container.entry? (c.append name pieces) other = c.entry? other := by
  have hnew : ∀ e : Entry, e.name = name → [e].find? (fun e => e.name == other) = none := by
    intro e he
    rw [List.find?_cons_of_neg (by simpa [he] using Ne.symm hne), List.find?_nil]
  unfold Container.entry?
  rw [entries_append, List.find?_append, hnew _ rfl, Option.or_none, List.find?_filter]
  congr 1
  funext e
  by_cases heq : e.name = other
  · simp [heq, hne]
  · simp [heq]

/-- What has been written as a section is read. -/
theorem read_append_self (h : c.Readable) (name : String) (pieces : List Bytes) :
    (c.append name pieces).read name = .ok pieces.flatten := by
  have hdata : ((c.append name pieces).file.drop c.cursor).take pieces.flatten.length
      = pieces.flatten := by
    have hlength := List.length_take_of_le h.stop
    rw [h.file_append, List.append_assoc, List.drop_left' hlength, List.take_left]
  rw [read, entry?_append_self]
  simp only [hdata]
  rw [if_neg (Nat.lt_irrefl _), if_pos trivial]

/-- The other sections read as before. -/
theorem read_append_of_ne (h : c.Readable) {name other : String} (hne : other ≠ name)
    (pieces : List Bytes) : (c.append name pieces).read other = c.read other := by
  rw [read, read, entry?_append_of_ne hne]
  cases hentry : c.entry? other with
  | none => rfl
  | some e =>
    have hend := (h.entries e (List.mem_of_find?_eq_some hentry)).2
    simp only [h.slice_append name pieces hend]
    rfl

end Reading

/-! ## Opening -/

section Opening

theorem reads_entry (path : String) {cursor : Nat} (hcursor : cursor < UInt64.size) {e : Entry}
    (hname : e.name.utf8ByteSize < UInt16.size) (hend : e.offset + e.size ≤ cursor) :
    Decoder.Reads (readEntry path cursor) (encodeEntry e) e := by
  have hoffset : e.offset < Nat.pow 256 8 := Nat.lt_of_le_of_lt (by omega) hcursor
  have hsize : e.size < Nat.pow 256 8 := Nat.lt_of_le_of_lt (by omega) hcursor
  have htake := Decoder.reads_take (Fault.io .shortRead) (Bytes.ofText e.name)
  rw [Bytes.length_ofText] at htake
  unfold encodeEntry readEntry
  simp only [List.append_assoc]
  refine (Decoder.reads_word _ hname).bind (htake.bind ?_)
  rw [Bytes.toText?_ofText]
  refine (Decoder.reads_word _ hoffset).bind ((Decoder.reads_word _ hsize).bind ?_)
  refine (Decoder.reads_word _ e.checksum.toNat_lt).bind_pure ?_
  rw [if_neg (Nat.not_lt.mpr hend), UInt64.ofNat_toNat]

/-- A word that stands behind some octets. -/
theorem ofLittleEndian_at {file front rest : Bytes} {width n : Nat}
    (h : file = front ++ (Bytes.littleEndian width n ++ rest)) (hn : n < Nat.pow 256 width) :
    Bytes.ofLittleEndian ((file.drop front.length).take width) = n := by
  rw [h, List.drop_left, List.take_left' (Bytes.length_littleEndian width n),
    Bytes.ofLittleEndian_littleEndian, Nat.mod_eq_of_lt hn]

variable {c : Container}

/-- The table of contents reads back. -/
theorem Closed.runOn_contents (h : c.Closed) (hcursor : c.cursor < UInt64.size) :
    ∃ rest, Decoder.runOn (Decoder.times (readEntry c.path c.cursor) c.entries.length)
      (c.file.drop c.cursor) = (.ok c.entries, rest) := by
  have hreads : Decoder.Reads (Decoder.times (readEntry c.path c.cursor) c.entries.length)
      (c.entries.flatMap encodeEntry) (c.entries.map id) :=
    Decoder.Reads.times c.entries fun e he =>
      reads_entry c.path hcursor (h.entries e he).1 (h.entries e he).2
  have hdrop : c.file.drop c.cursor = encodeContents c.entries c.cursor := by
    conv_lhs => rw [h.contents, List.drop_left' (List.length_take_of_le h.stop)]
  rw [List.map_id] at hreads
  rw [hdrop, encodeContents, List.append_assoc, List.append_assoc]
  exact ⟨_, hreads _⟩

/-- The words of the footer. -/
theorem Closed.footer_words (h : c.Closed) (hfits : c.FooterFits) :
    let word (offset width : Nat) := Bytes.ofLittleEndian ((c.file.drop offset).take width)
    ∃ place, c.file.length = place + footerSize ∧ c.cursor ≤ place ∧ word place 8 = c.cursor
      ∧ word (place + 8) 4 = c.entries.length ∧ word (place + 12) 4 = magic := by
  intro word
  generalize hfront : c.file.take c.cursor ++ c.entries.flatMap encodeEntry = front
  have hcursor : c.file = front ++ (Bytes.littleEndian 8 c.cursor
      ++ (Bytes.littleEndian 4 c.entries.length ++ (Bytes.littleEndian 4 magic ++ []))) := by
    conv_lhs => rw [h.contents, encodeContents]
    rw [← hfront]
    simp only [List.append_assoc, List.append_nil]
  have hcount : c.file = (front ++ Bytes.littleEndian 8 c.cursor)
      ++ (Bytes.littleEndian 4 c.entries.length ++ (Bytes.littleEndian 4 magic ++ [])) := by
    rw [hcursor, List.append_assoc]
  have hmagic : c.file = (front ++ Bytes.littleEndian 8 c.cursor
      ++ Bytes.littleEndian 4 c.entries.length) ++ (Bytes.littleEndian 4 magic ++ []) := by
    rw [hcount, List.append_assoc _ (Bytes.littleEndian 4 _)]
  have hcountAt := ofLittleEndian_at hcount hfits.2
  have hmagicAt := ofLittleEndian_at hmagic (by decide)
  rw [List.length_append, Bytes.length_littleEndian] at hcountAt
  rw [List.length_append, List.length_append, Bytes.length_littleEndian,
    Bytes.length_littleEndian, Nat.add_assoc] at hmagicAt
  refine ⟨front.length, ?_, ?_, ofLittleEndian_at hcursor hfits.1, hcountAt, hmagicAt⟩
  · rw [hcursor]
    simp only [List.length_append, Bytes.length_littleEndian, List.length_nil, footerSize]
  · rw [← hfront, List.length_append, List.length_take_of_le h.stop]
    exact Nat.le_add_right _ _

/-- The file of a container that is closed opens as the container. -/
theorem ofBytes_file (h : c.Closed) (hfits : c.FooterFits) : ofBytes c.path c.file = .ok c := by
  obtain ⟨rest, hcontents⟩ := h.runOn_contents hfits.1
  obtain ⟨place, hlength, hplace, hwhere, hcount, hlast⟩ := h.footer_words hfits
  have hstart := h.start
  have hlong : ¬ c.file.length < dataStart + footerSize := by omega
  rw [ofBytes, if_neg hlong, hlength, Nat.add_sub_cancel]
  simp only [h.version, hwhere, hcount, hlast, List.drop_zero, h.magic]
  rw [if_neg (by simp), if_neg (by simp [hstart, hplace]), hcontents]
  rfl

/-- A line of a table of contents takes at least twenty-six octets, be its name empty. -/
theorem answers_readEntry (path : String) (cursor : Nat) :
    Decoder.Answers (readEntry path cursor) 26 fun e =>
      e.name.utf8ByteSize < UInt16.size ∧ e.offset + e.size ≤ cursor := by
  unfold readEntry
  show Decoder.Answers _ (2 + (0 + (8 + (8 + (8 + 0))))) _
  refine (Decoder.answers_word _ 2).bind fun size hsize =>
    ((Decoder.answers_take _ size).of_le (Nat.zero_le size)).bind fun octets hoctets => ?_
  split
  · exact .throw _
  · rename_i name hname
    refine (Decoder.answers_word _ 8).bind fun offset _ => (Decoder.answers_word _ 8).bind fun size _ =>
      (Decoder.answers_word _ 8).bind fun checksum _ => ?_
    split
    · exact .throw _
    · rename_i hend
      refine .pure ⟨?_, Nat.not_lt.mp hend⟩
      rw [Bytes.utf8ByteSize_of_toText? hname, hoctets]
      exact hsize

/-- Any container that is opened is readable, and its sections take up room in the file. -/
theorem ofBytes_eq_ok {path : String} {file : Bytes} (h : ofBytes path file = .ok c) :
    c.path = path ∧ c.file = file ∧ c.Readable ∧ c.FooterFits
      ∧ 26 * c.entries.length ≤ file.length := by
  have hword (offset width : Nat) :
      Bytes.ofLittleEndian ((file.drop offset).take width) < Nat.pow 256 width :=
    Nat.lt_of_lt_of_le (Bytes.ofLittleEndian_lt _)
      (Nat.pow_le_pow_right (by decide) (List.length_take_le _ _))
  rw [ofBytes] at h
  split at h
  · cases h
  dsimp only at h
  split at h
  · cases h
  rename_i hknown
  split at h
  · cases h
  rename_i hfooter
  push Not at hknown hfooter
  -- the footer's words are short, so they bound the cursor and the number of lines that were read
  generalize hcontents : Decoder.runOn _ _ = outcome at h
  obtain ⟨entries | entries, rest⟩ := outcome
  · cases h
  · obtain ⟨htaken, hcount, hentries⟩ := (answers_readEntry path _).times _ _ _ _ hcontents
    cases h
    refine ⟨rfl, rfl, ⟨hknown.1, hknown.2, hfooter.2.1, ?_, hentries⟩, ⟨hword _ 8, ?_⟩, ?_⟩
    · exact Nat.le_trans hfooter.2.2 (Nat.sub_le _ _)
    · rw [hcount]
      exact hword _ 4
    · rw [hcount]
      rw [List.length_drop] at htaken
      omega

end Opening

end Container

end Crossroads

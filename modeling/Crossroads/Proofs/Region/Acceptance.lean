import Crossroads.Proofs.Region.Container

/-!
# Containers that others wrote

Nothing is known of the bytes of a file but that it opens as a container.  Its sections may overlap,
lie within the header, have the same name or none, and the table of contents need not end where the
footer starts.  All the same it is safe to read its sections and to write more of them
(`Container.ofBytes_safe`).
-/

namespace Crossroads

namespace Container

section

variable {path : String} {file : Bytes} {c : Container}

/-- A section that is listed reads as the octets in its place, if they are those that were written. -/
theorem Readable.read_eq (h : c.Readable) {name : String} {e : Entry} (he : c.entry? name = some e) :
    e.offset + e.size ≤ c.file.length ∧ c.read name
      = if checksum ((c.file.drop e.offset).take e.size) = e.checksum
        then .ok ((c.file.drop e.offset).take e.size)
        else .error (.corrupt (.sectionChecksum name c.path)) := by
  have hend := (h.entries e (List.mem_of_find?_eq_some he)).2
  have hfile := Nat.le_trans hend h.stop
  have hlength : ¬ ((c.file.drop e.offset).take e.size).length < e.size := by
    rw [List.length_take, List.length_drop]
    omega
  refine ⟨hfile, ?_⟩
  rw [read, he]
  exact if_neg hlength

/-- A section that is listed has a first line with its name. -/
theorem exists_entry? {e : Entry} (he : e ∈ c.entries) : ∃ first, c.entry? e.name = some first := by
  rw [← Option.isSome_iff_exists, entry?, List.find?_isSome]
  exact ⟨e, he, beq_self_eq_true _⟩

/-- The footer of a file that was not too long has room for one more section. -/
theorem footerFits_append (h : ofBytes path file = .ok c) (name : String) (pieces : List Bytes)
    (hfile : file.length < 26 * (UInt32.size - 1))
    (hcursor : (c.append name pieces).cursor < UInt64.size) : (c.append name pieces).FooterFits := by
  obtain ⟨-, -, -, -, hroom⟩ := ofBytes_eq_ok h
  have hentries := length_entries_append_le c name pieces
  exact ⟨hcursor, by omega⟩

/-- **What opens as a container is safe to read and to extend,** whatever the file holds.  Each section
that is listed lies within the file and reads as the octets in the place that its first line names,
unless their checksum is another one.  A section that is written reads as it was written, and all
others read as before; the file opens as this container just if its footer has room for the numbers,
which takes a file of more than a hundred gigabytes to fail. -/
theorem ofBytes_safe (h : ofBytes path file = .ok c) :
    (∀ e ∈ c.entries, ∃ first, c.entry? e.name = some first ∧
      let data := (file.drop first.offset).take first.size
      first.offset + first.size ≤ file.length ∧ c.read e.name =
        if checksum data = first.checksum then .ok data
        else .error (.corrupt (.sectionChecksum e.name path))) ∧
    ∀ name pieces, nameFits name = true → ∃ written,
      c.write name ⟨pieces, none⟩ = (.ok pieces.flatten.length, written) ∧
      (ofBytes path written.file = .ok written ↔ written.FooterFits) ∧
      (file.length < 26 * (UInt32.size - 1) → file.length + pieces.flatten.length < UInt64.size →
        ofBytes path written.file = .ok written) ∧
      written.read name = .ok pieces.flatten ∧
      ∀ other, other ≠ name → written.read other = c.read other := by
  obtain ⟨rfl, rfl, hreadable, -⟩ := ofBytes_eq_ok h
  refine ⟨fun e he => ?_, fun name pieces hname => ?_⟩
  · obtain ⟨first, hfirst⟩ := exists_entry? he
    exact ⟨first, hfirst, hreadable.read_eq hfirst⟩
  · have hclosed := hreadable.append (lt_size_of_nameFits hname) pieces
    have hopens : ofBytes c.path (c.append name pieces).file = .ok (c.append name pieces) ↔
        (c.append name pieces).FooterFits :=
      ⟨fun hopen => (ofBytes_eq_ok hopen).2.2.2.1, ofBytes_file hclosed⟩
    refine ⟨c.append name pieces, write_of_fits c name pieces hname, hopens, fun hfile hmore => ?_,
      read_append_self hreadable name pieces, fun other hne => read_append_of_ne hreadable hne pieces⟩
    have hstop := hreadable.stop
    refine hopens.mpr (footerFits_append h name pieces hfile ?_)
    rw [cursor_append]
    omega

end

/-! ## A file of odd sections -/

/-- Two sections of one name, and one without a name that begins within the header. -/
def oddEntries : List Entry :=
  [⟨"a", 8, 4, checksum [1, 2, 3, 4]⟩, ⟨"a", 0, 12, 0⟩, ⟨"", 6, 4, checksum [0, 0, 1, 2]⟩]

/-- There are octets between the table of contents and the footer. -/
def oddFile : Bytes :=
  header ++ [1, 2, 3, 4] ++ oddEntries.flatMap encodeEntry ++ [255, 255] ++ Bytes.littleEndian 8 12
    ++ Bytes.littleEndian 4 3 ++ Bytes.littleEndian 4 magic

def oddContainer : Container := ⟨"r", oddEntries, 12, oddFile⟩

theorem ofBytes_oddFile : ofBytes "r" oddFile = .ok oddContainer := by
  have hknown : (ofBytes "r" oddFile).toOption.map (fun c => (c.entries, c.cursor))
      = some (oddEntries, 12) := by
    decide +kernel
  cases hopen : ofBytes "r" oddFile with
  | error fault =>
    rw [hopen] at hknown
    cases hknown
  | ok c =>
    obtain ⟨hpath, hfile, -⟩ := ofBytes_eq_ok hopen
    obtain ⟨path, entries, cursor, file⟩ := c
    rw [hopen] at hknown
    obtain ⟨rfl, rfl⟩ := Prod.mk.inj (Option.some.inj hknown)
    subst hpath hfile
    rfl

/-- Of the sections of one name the first one is read.  It can be written anew; the section without a
name reads as before. -/
theorem odd_sections_read : ofBytes "r" oddFile = .ok oddContainer ∧
    oddContainer.read "a" = .ok [1, 2, 3, 4] ∧ nameFits "a" = true ∧
    ∃ written, oddContainer.write "a" ⟨[[5], [6, 7]], none⟩ = (.ok 3, written) ∧
      ofBytes "r" written.file = .ok written ∧ written.read "a" = .ok [5, 6, 7] ∧
      written.read "" = .ok [0, 0, 1, 2] := by
  obtain ⟨hread, hwrite⟩ := ofBytes_safe ofBytes_oddFile
  obtain ⟨written, hwritten, -, hopens, hself, hothers⟩ :=
    hwrite "a" [[5], [6, 7]] (by decide +kernel)
  have hreads {e : Entry} {data : Bytes} (he : e ∈ oddEntries)
      (hfirst : oddContainer.entry? e.name = some e)
      (hdata : (oddFile.drop e.offset).take e.size = data) (hchecksum : checksum data = e.checksum) :
      oddContainer.read e.name = .ok data := by
    obtain ⟨first, hfirst', -, hread⟩ := hread e he
    obtain rfl : e = first := Option.some.inj (hfirst.symm.trans hfirst')
    rw [hread, hdata, if_pos hchecksum]
  have ha : oddContainer.read "a" = .ok [1, 2, 3, 4] :=
    hreads (e := ⟨"a", 8, 4, checksum [1, 2, 3, 4]⟩) (.head _) rfl (by decide) rfl
  have hnameless : oddContainer.read "" = .ok [0, 0, 1, 2] :=
    hreads (e := ⟨"", 6, 4, checksum [0, 0, 1, 2]⟩) (.tail _ (.tail _ (.head _))) rfl (by decide) rfl
  refine ⟨ofBytes_oddFile, ha, by decide +kernel, written, hwritten, ?_, hself, ?_⟩
  · exact hopens (by decide +kernel) (by decide +kernel)
  · rw [hothers "" (by decide), hnameless]

end Container

end Crossroads

import Crossroads.Disk
import Crossroads.Proofs.Bytes.Text
import Std.Data.TreeMap.Lemmas

/-!
# Reading what was written to a disk

A file can only be written where no directory stands, and every path is walked along directories.
So writing a file never changes where a path leads (`Disk.walk_withFile`), and what was written to a
path is read from it (`Disk.read_write`).
-/

namespace Crossroads

namespace Disk

variable {disk disk' : Disk} {place : Place} {bytes : Bytes}

/-- The size of the file at a path fits into 64 bits, if there is one. -/
def Addressable (disk : Disk) (path : String) : Prop :=
  ∀ bytes, disk.read path = .ok bytes → bytes.length < UInt64.size

theorem Addressable.of_read {path : String} (h : disk.read path = .ok bytes)
    (hlength : bytes.length < UInt64.size) : disk.Addressable path := by
  intro other hother
  rw [h] at hother
  cases hother
  exact hlength

/-- The disk with a file, whatever was there. -/
def withFile (disk : Disk) (place : Place) (bytes : Bytes) : Disk :=
  { disk with files := disk.files.insert place bytes }

theorem look_withFile_self : (disk.withFile place bytes).look place = .file bytes := by
  simp [look, withFile]

theorem look_withFile_of_ne {other : Place} (h : other ≠ place) :
    (disk.withFile place bytes).look other = disk.look other := by
  have hne : ¬ compare place other = .eq := by
    rw [Std.LawfulEqOrd.compare_eq_iff_eq]
    exact Ne.symm h
  simp only [look, withFile, Std.TreeMap.getElem?_insert, if_neg hne]
  rfl

/-- A new file stands in no directory's way. -/
theorem walk_withFile (h : disk.look place ≠ .directory) (first : Place) (parts : List String)
    {last : Place} (hwalk : disk.walk first parts = .ok last) :
    (disk.withFile place bytes).walk first parts = .ok last := by
  induction parts generalizing first with
  | nil => exact hwalk
  | cons part rest ih =>
    rw [walk] at hwalk ⊢
    have hdirectory : disk.look first = .directory := by
      cases hlook : disk.look first with
      | directory => rfl
      | file _ =>
        rw [hlook] at hwalk
        cases hwalk
      | nothing =>
        rw [hlook] at hwalk
        cases hwalk
    have hne : first ≠ place := by
      rintro rfl
      exact h hdirectory
    rw [look_withFile_of_ne hne, hdirectory]
    rw [hdirectory] at hwalk
    exact ih _ hwalk

/-- A new file changes nothing about where paths lead. -/
theorem resolve_withFile (h : disk.look place ≠ .directory) {path : String} {last : Place}
    (hresolve : disk.resolve path = .ok last) :
    (disk.withFile place bytes).resolve path = .ok last := by
  rw [resolve] at hresolve ⊢
  split at hresolve
  · cases hresolve
  · rw [if_neg ‹_›]
    exact walk_withFile h _ _ hresolve

/-- Files can be written to a path that ends in no slash and leads to a place where no directory
stands. -/
structure Takes (disk : Disk) (path : String) (place : Place) : Prop where
  slash : path.endsWith "/" = false
  resolve : disk.resolve path = .ok place
  look : disk.look place ≠ .directory

theorem Takes.withFile {path : String} (h : disk.Takes path place) (bytes : Bytes) :
    (disk.withFile place bytes).Takes path place := by
  refine ⟨h.slash, resolve_withFile h.look h.resolve, ?_⟩
  rw [look_withFile_self]
  intro hdirectory
  cases hdirectory

theorem write_eq_ok_iff {path : String} : disk.write path bytes = .ok disk' ↔
    ∃ place, disk.Takes path place ∧ disk' = disk.withFile place bytes := by
  constructor
  · intro h
    rw [write, target] at h
    cases hslash : path.endsWith "/" with
    | true =>
      rw [hslash, if_pos rfl] at h
      cases hwalk : disk.walk (disk.origin path) (trimmedParts path) with
      | error _ =>
        rw [hwalk] at h
        cases h
      | ok _ =>
        rw [hwalk] at h
        cases h
    | false =>
      rw [hslash, if_neg Bool.false_ne_true] at h
      cases hresolve : disk.resolve path with
      | error _ =>
        rw [hresolve] at h
        cases h
      | ok place =>
        cases hlook : disk.look place with
        | directory => simp [hresolve, hlook, bind, Except.bind] at h
        | file _ | nothing =>
          have hdisk : disk.withFile place bytes = disk' := by
            simpa [hresolve, hlook, bind, Except.bind, withFile] using h
          exact ⟨place, ⟨hslash, hresolve, by simp [hlook]⟩, hdisk.symm⟩
  · rintro ⟨place, ⟨hslash, hresolve, hlook⟩, rfl⟩
    rw [write, target, hslash, if_neg Bool.false_ne_true, hresolve]
    cases hfound : disk.look place with
    | directory => exact absurd hfound hlook
    | file _ => simp [hfound, bind, Except.bind, withFile]
    | nothing => simp [hfound, bind, Except.bind, withFile]

theorem Takes.write {path : String} (h : disk.Takes path place) (bytes : Bytes) :
    disk.write path bytes = .ok (disk.withFile place bytes) :=
  write_eq_ok_iff.mpr ⟨place, h, rfl⟩

/-! ## Reading -/

/-- A file that is there is read. -/
theorem read_of_look {path : String} (hresolve : disk.resolve path = .ok place)
    (hlook : disk.look place = .file bytes) : disk.read path = .ok bytes := by
  simp [read, hresolve, hlook, bind, Except.bind]

theorem readText_of_read {path text : String} (h : disk.read path = .ok (Bytes.ofText text)) :
    disk.readText path = .ok text := by
  simp [readText, h, Bytes.toText?_ofText, bind, Except.bind]

theorem Takes.read {path : String} (h : disk.Takes path place) (bytes : Bytes) :
    (disk.withFile place bytes).read path = .ok bytes :=
  read_of_look (h.withFile bytes).resolve look_withFile_self

/-- What was written to a path is read from it. -/
theorem read_write {path : String} (h : disk.write path bytes = .ok disk') :
    disk'.read path = .ok bytes := by
  obtain ⟨place, htakes, rfl⟩ := write_eq_ok_iff.mp h
  exact htakes.read bytes

/-- Files at other places are read as before. -/
theorem read_withFile_of_ne (h : disk.look place ≠ .directory) {path : String} {other : Place}
    {old : Bytes} (hresolve : disk.resolve path = .ok other) (hlook : disk.look other = .file old)
    (hne : other ≠ place) : (disk.withFile place bytes).read path = .ok old := by
  refine read_of_look (resolve_withFile h hresolve) ?_
  rw [look_withFile_of_ne hne, hlook]

end Disk

end Crossroads

import Crossroads.Proofs.Region.Container
import Mathlib.Data.List.Dedup

/-!
# Containers in use

A container is created, sections are written to it and read from it, and it is dropped and opened
again, in any order.  What a use can do to a container is said once, in `Container.Sound.use_cases`:
it leaves the container as it is, or it writes a section whose writer does not fail.  So the sections
that were written are all that counts.

* `Container.run_keeps` — a container in use `Keeps` what was last written as each section.
* `Container.write_failed` — a section write that fails leaves the container as it was.

Both suppose that a container that is opened again has fewer than `2 ^ 32` sections and `2 ^ 64`
octets (`Container.Countable`), since its table of contents has no room for greater numbers.  Runs
of no more uses, which write fewer octets in all, can be counted (`Container.countable_of_cost_lt`).
-/

namespace Crossroads

namespace Container

/-! ## Uses -/

/-- Something that is done with a container. -/
inductive Use where
  | write (name : String) (writer : Writer)
  | read (name : String)
  /-- The container is dropped and its file opened again. -/
  | reopen

/-- The section that is written: none if its name does not fit or its writer fails. -/
def Use.kept : Use → Option (String × Bytes)
  | .write name ⟨pieces, none⟩ => if nameFits name then some (name, pieces.flatten) else none
  | _ => none

/-- The sections that are written, in order. -/
def kept (uses : List Use) : List (String × Bytes) := uses.filterMap Use.kept

/-- The container after a use of it.  Reading leaves it alone. -/
def use (c : Container) : Use → Except Fault Container
  | .write name writer => .ok (c.write name writer).2
  | .read _ => .ok c
  | .reopen => ofBytes c.path c.file

/-- The container after one use after another. -/
def run (c : Container) (uses : List Use) : Except Fault Container := uses.foldlM use c

/-- The table of contents and the footer have room for the numbers of the container. -/
structure Fits (c : Container) : Prop where
  entries : c.entries.length < 2 ^ 32
  file : c.file.length < 2 ^ 64

/-- Containers that are opened again have fewer than `2 ^ 32` sections and `2 ^ 64` octets. -/
def Countable (path : String) (uses : List Use) : Prop :=
  ∀ before c, before ++ [.reopen] <+: uses → run (create path) before = .ok c → c.Fits

theorem kept_concat (uses : List Use) (u : Use) :
    kept (uses ++ [u]) = kept uses ++ u.kept.toList := by
  rw [kept, List.filterMap_append, ← kept]
  cases hkept : u.kept <;> simp [hkept]

theorem run_concat (c : Container) (uses : List Use) (u : Use) :
    c.run (uses ++ [u]) = (c.run uses).bind (use · u) := by
  rw [run, List.foldlM_append, ← run]
  cases c.run uses with
  | error fault => rfl
  | ok c' => exact bind_pure (c'.use u)

theorem run_concat_eq_ok_iff {c c' : Container} {uses : List Use} {u : Use} :
    c.run (uses ++ [u]) = .ok c' ↔ ∃ c₀, c.run uses = .ok c₀ ∧ c₀.use u = .ok c' := by
  rw [run_concat]
  cases c.run uses with
  | error fault => simp [Except.bind]
  | ok c₀ => simp [Except.bind]

theorem Countable.of_concat {path : String} {uses : List Use} {u : Use}
    (h : Countable path (uses ++ [u])) : Countable path uses := by
  intro before c hbefore hrun
  exact h before c (hbefore.trans (List.prefix_append _ _)) hrun

/-! ## Steps -/

section Steps

variable {c : Container}

/-- A section write that fails leaves the container as it was. -/
theorem Sound.write_of_failure (h : c.Sound) (name : String) (pieces : List Bytes) (fault : Fault) :
    c.write name ⟨pieces, some fault⟩ = (.error (.sectionFailed name
      (if nameFits name then fault.message
        else s!"invalid section name length {name.utf8ByteSize}")), c) := by
  rw [write]
  by_cases hname : nameFits name
  · rw [if_pos hname, if_pos hname]
    exact congrArg (Prod.mk _) (h.restore_eq pieces)
  · rw [if_neg hname, if_neg hname]

theorem Sound.reopen_eq (h : c.Sound) (hfits : c.Fits) : ofBytes c.path c.file = .ok c :=
  ofBytes_file h.closed ⟨Nat.lt_of_le_of_lt h.readable.stop hfits.file, hfits.entries⟩

/-- A use leaves a container as it is, or it writes a section. -/
theorem Sound.use_cases (h : c.Sound) {u : Use} (hfits : u = .reopen → c.Fits) :
    (u.kept = none ∧ c.use u = .ok c) ∨
      ∃ name pieces, nameFits name = true ∧ u = .write name ⟨pieces, none⟩ ∧
        c.use u = .ok (c.append name pieces) := by
  cases u with
  | read name => exact .inl ⟨rfl, rfl⟩
  | reopen => exact .inl ⟨rfl, h.reopen_eq (hfits rfl)⟩
  | write name writer =>
    obtain ⟨pieces, failure⟩ := writer
    by_cases hname : nameFits name
    · cases failure with
      | none =>
        right
        refine ⟨name, pieces, hname, rfl, ?_⟩
        rw [use, write_of_fits c name pieces hname]
      | some fault =>
        left
        refine ⟨rfl, ?_⟩
        rw [use, h.write_of_failure]
    · left
      constructor
      · cases failure with
        | none => exact if_neg hname
        | some fault => rfl
      · rw [use, write, if_neg hname]

/-- Just the writes that keep a section succeed. -/
theorem write_eq_ok_iff (name : String) (writer : Writer) (size : Nat) :
    (c.write name writer).1 = .ok size ↔
      ∃ data, (Use.write name writer).kept = some (name, data) ∧ data.length = size := by
  obtain ⟨pieces, failure⟩ := writer
  by_cases hname : nameFits name
  · cases failure with
    | none => simp [write_of_fits c name pieces hname, Use.kept, hname]
    | some fault => simp [write, Use.kept, hname]
  · cases failure <;> simp [write, Use.kept, hname]

end Steps

/-! ## What is kept -/

/-- The container has what was written last as each section, in the order of these writes. -/
structure Keeps (c : Container) (log : List (String × Bytes)) : Prop extends Sound c where
  order : c.entries.map Entry.name = (log.map Prod.fst).dedup
  start : ∀ e ∈ c.entries, dataStart ≤ e.offset
  apart : c.entries.Pairwise fun e e' => e.offset + e.size ≤ e'.offset
  reads : ∀ name, c.read name = match log.reverse.lookup name with
    | some data => .ok data
    | none => .error (.sectionMissing name)

/-- Of what is in a list more than once, the last one stays. -/
theorem dedup_concat {α : Type} [DecidableEq α] (l : List α) (a : α) :
    (l ++ [a]).dedup = l.dedup.filter (· != a) ++ [a] := by
  induction l with
  | nil => rfl
  | cons b l ih =>
    rw [List.cons_append]
    by_cases hb : b = a
    · subst hb
      rw [List.dedup_cons_of_mem (by simp), ih]
      by_cases hmem : b ∈ l
      · rw [List.dedup_cons_of_mem hmem]
      · rw [List.dedup_cons_of_notMem hmem, List.filter_cons_of_neg (by simp)]
    · by_cases hmem : b ∈ l
      · rw [List.dedup_cons_of_mem (List.mem_append_left _ hmem), List.dedup_cons_of_mem hmem, ih]
      · rw [List.dedup_cons_of_notMem (by simp [hmem, hb]), List.dedup_cons_of_notMem hmem, ih,
          List.filter_cons_of_pos (by simpa using hb), List.cons_append]

namespace Keeps

variable {c : Container} {log : List (String × Bytes)}

theorem create (path : String) : (Container.create path).Keeps [] where
  toSound := sound_create path
  order := rfl
  start := by
    intro e he
    cases he
  apart := List.Pairwise.nil
  reads := fun _ => rfl

theorem append (h : c.Keeps log) {name : String} (hname : nameFits name = true)
    (pieces : List Bytes) : (c.append name pieces).Keeps (log ++ [(name, pieces.flatten)]) where
  toSound := h.toSound.append hname pieces
  order := by
    rw [entries_append, List.map_append, List.map_append, List.map_singleton, List.map_singleton,
      dedup_concat, ← h.order, List.filter_map]
    rfl
  start := by
    intro e he
    rw [entries_append] at he
    rcases List.mem_append.mp he with hold | hnew
    · exact h.start e (List.mem_filter.mp hold).1
    · rw [List.mem_singleton.mp hnew]
      exact h.toSound.readable.start
  apart := by
    rw [entries_append, List.pairwise_append]
    refine ⟨h.apart.filter _, List.pairwise_singleton _ _, ?_⟩
    intro e he e' he'
    rw [List.mem_singleton.mp he']
    exact (h.entries e (List.mem_filter.mp he).1).2
  reads := by
    intro other
    rw [List.reverse_append, List.reverse_singleton, List.singleton_append]
    by_cases heq : other = name
    · subst heq
      rw [List.lookup_cons_self, read_append_self h.toSound.readable]
    · rw [List.lookup_cons, beq_false_of_ne heq, read_append_of_ne h.toSound.readable heq]
      exact h.reads other

/-- A use adds what it keeps. -/
theorem use (h : c.Keeps log) {u : Use} (hfits : u = .reopen → c.Fits) :
    ∃ c', c.use u = .ok c' ∧ c'.path = c.path ∧ c'.Keeps (log ++ u.kept.toList) := by
  rcases h.toSound.use_cases hfits with ⟨hkept, huse⟩ | ⟨name, pieces, hname, hu, huse⟩
  · refine ⟨c, huse, rfl, ?_⟩
    rw [hkept]
    simpa using h
  · have hkept : u.kept = some (name, pieces.flatten) := by
      rw [hu]
      exact if_pos hname
    refine ⟨_, huse, rfl, ?_⟩
    rw [hkept]
    exact h.append hname pieces

end Keeps

/-! ## Runs -/

section Runs

variable {path : String} {uses : List Use}

theorem keeps_of_countable (h : Countable path uses) :
    ∃ c, run (create path) uses = .ok c ∧ c.path = path ∧ c.Keeps (kept uses) := by
  induction uses using List.reverseRecOn with
  | nil => exact ⟨_, rfl, rfl, .create path⟩
  | append_singleton uses u ih =>
    obtain ⟨c, hrun, hpath, hkeeps⟩ := ih h.of_concat
    obtain ⟨c', huse, hpath', hkeeps'⟩ := hkeeps.use (u := u) fun hu =>
      h uses c (by rw [hu]) hrun
    refine ⟨c', run_concat_eq_ok_iff.mpr ⟨c, hrun, huse⟩, hpath'.trans hpath, ?_⟩
    rwa [kept_concat]

end Runs

/-! ## Runs that can be counted -/

section Counted

variable {path : String} {uses : List Use}

/-- No less than what a use adds to the file. -/
def Use.cost : Use → Nat
  | .write name writer => writer.pieces.flatten.length + (26 + name.utf8ByteSize)
  | _ => 0

/-- Containers grow by no more than is written. -/
theorem length_le_of_run (hlength : uses.length ≤ 2 ^ 32)
    (hcost : 24 + (uses.map Use.cost).sum < 2 ^ 64) {c : Container}
    (hrun : run (create path) uses = .ok c) : c.Sound ∧
      c.entries.length ≤ uses.length ∧ c.file.length ≤ 24 + (uses.map Use.cost).sum := by
  induction uses using List.reverseRecOn generalizing c with
  | nil =>
    obtain rfl := Except.ok.inj hrun
    exact ⟨sound_create path, Nat.le_refl _, Nat.le_refl _⟩
  | append_singleton uses u ih =>
    obtain ⟨c₀, hrun₀, huse⟩ := run_concat_eq_ok_iff.mp hrun
    rw [List.length_append, List.length_singleton] at hlength ⊢
    rw [List.map_append, List.sum_append, List.map_singleton, List.sum_singleton] at hcost ⊢
    obtain ⟨hsound, hentries, hfile⟩ := ih (by omega) (by omega) hrun₀
    -- so far the container is small enough to be opened again
    have hfits : u = .reopen → c₀.Fits := fun _ => ⟨by omega, by omega⟩
    rcases hsound.use_cases hfits with ⟨-, hsame⟩ | ⟨name, pieces, hname, rfl, happend⟩
    · obtain rfl := Except.ok.inj (hsame.symm.trans huse)
      exact ⟨hsound, by omega, by omega⟩
    · obtain rfl := Except.ok.inj (happend.symm.trans huse)
      have hmore := length_entries_append_le c₀ name pieces
      have hlonger := hsound.closed.length_file_append_le name pieces
      have hmost : (Use.write name ⟨pieces, none⟩).cost
          = pieces.flatten.length + (26 + name.utf8ByteSize) := rfl
      exact ⟨hsound.append hname pieces, by omega, by omega⟩

/-- Short runs can be counted. -/
theorem countable_of_cost_lt (hlength : uses.length ≤ 2 ^ 32)
    (hcost : 24 + (uses.map Use.cost).sum < 2 ^ 64) : Countable path uses := by
  intro before c hbefore hrun
  have hshorter := hbefore.length_le
  obtain ⟨after, rfl⟩ := hbefore
  simp only [List.length_append, List.length_singleton, List.map_append, List.sum_append] at *
  obtain ⟨-, hentries, hfile⟩ := length_le_of_run (by omega) (by omega) hrun
  exact ⟨by omega, by omega⟩

/-- A section is written anew after the file has been opened again; a write has failed, and one has no
name. -/
def sample : List Use :=
  [.write "a" ⟨[[1], [2, 3]], none⟩, .write "b" ⟨[[4]], none⟩,
    .write "a" ⟨[[5]], some (.io .shortRead)⟩, .reopen, .write "" ⟨[[6]], none⟩,
    .write "a" ⟨[[7]], none⟩, .read "b"]

theorem countable_sample : Countable "r" sample := countable_of_cost_lt (by decide) (by decide)

end Counted

/-! ## What containers in use keep -/

section Kept

variable {path : String} {uses : List Use}

/-- **Containers keep what was last written.**  After any run of section writes, good and failed, of
reads and of reopenings, the names of the sections are distinct and in the order in which the
sections were last written; the sections lie apart and in order within the data, which stands between
the header and the table of contents; each reads as it was last written; and the file opens as the
container that it is.  The writes that succeed are those that are kept. -/
theorem run_keeps (h : Countable path uses) : ∃ c, run (create path) uses = .ok c ∧
    (c.entries.map Entry.name).Nodup ∧
    c.entries.map Entry.name = ((kept uses).map Prod.fst).dedup ∧
    c.entries.Pairwise (fun e e' => e.offset + e.size ≤ e'.offset) ∧
    (∀ e ∈ c.entries, dataStart ≤ e.offset ∧ e.offset + e.size ≤ c.cursor) ∧
    (∃ data, c.file = header ++ data ++ encodeContents c.entries c.cursor ∧
      (header ++ data).length = c.cursor) ∧
    (∀ name, c.read name = match (kept uses).reverse.lookup name with
      | some data => .ok data
      | none => .error (.sectionMissing name)) ∧
    (c.Fits → ofBytes path c.file = .ok c) ∧
    ∀ name writer size, (c.write name writer).1 = .ok size ↔
      ∃ data, (Use.write name writer).kept = some (name, data) ∧ data.length = size := by
  obtain ⟨c, hrun, rfl, hkeeps⟩ := keeps_of_countable h
  refine ⟨c, hrun, ?_, hkeeps.order, hkeeps.apart, ?_, hkeeps.data, hkeeps.reads, ?_,
    write_eq_ok_iff⟩
  · rw [hkeeps.order]
    exact List.nodup_dedup _
  · intro e he
    exact ⟨hkeeps.start e he, (hkeeps.entries e he).2⟩
  · exact hkeeps.toSound.reopen_eq

/-- The section that was written anew comes last, and both read as they were last written. -/
theorem sample_keeps : Countable "r" sample ∧ ∃ c, run (create "r") sample = .ok c ∧
    c.entries.map Entry.name = ["b", "a"] ∧ c.read "a" = .ok [7] ∧ c.read "b" = .ok [4] ∧
    c.read "" = .error (.sectionMissing "") := by
  obtain ⟨c, hrun, -, horder, -, -, -, hreads, -⟩ := run_keeps countable_sample
  exact ⟨countable_sample, c, hrun, horder, hreads "a", hreads "b", hreads ""⟩

/-- **Failed section writes are atomic.**  Whatever has become of a container, a section write whose
writer fails answers with the name of the section and leaves the container and its file as they
were. -/
theorem write_failed (h : Countable path uses) {c : Container}
    (hrun : run (create path) uses = .ok c) (name : String) (pieces : List Bytes) (fault : Fault) :
    c.write name ⟨pieces, some fault⟩ = (.error (.sectionFailed name
      (if nameFits name then fault.message
        else s!"invalid section name length {name.utf8ByteSize}")), c) := by
  obtain ⟨c', hrun', -, hkeeps⟩ := keeps_of_countable h
  obtain rfl : c' = c := Except.ok.inj (hrun'.symm.trans hrun)
  exact hkeeps.toSound.write_of_failure name pieces fault

/-- Another write of a section that is there fails and leaves it as it was. -/
theorem sample_write_failed : Countable "r" sample ∧ ∃ c, run (create "r") sample = .ok c ∧
    c.write "a" ⟨[[8, 9], [10]], some (.io .shortRead)⟩
      = (.error (.sectionFailed "a" (Fault.io .shortRead).message), c) := by
  obtain ⟨c, hrun, -⟩ := keeps_of_countable countable_sample
  exact ⟨countable_sample, c, hrun, write_failed countable_sample hrun "a" _ _⟩

end Kept

end Container

end Crossroads

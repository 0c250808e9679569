import Crossroads.Border.Poly
import Mathlib.Data.List.Basic

/-!
# The grammar of border files

A border file is written in lines.  An `Entry` is a ring as it stands there: a header, three or more
lines that each have a point, and `END`.  A file `Describes` entries when its lines are a name, the
entries, a last `END`, and anything after that.  Just such files are read (`Borders.parse_iff_describes`),
and what they describe is the outer entries in order, each with the holes that follow it
(`Borders.parts`).

Reading has two loops, one over rings and one over the lines of a ring.  Each is met by a lemma from
what is written to what is read (`readRing_rows`, `readRegions_entries`), and by one back
(`exists_rows_of_readRing`, `exists_entries_of_readRegions`).
-/

namespace Crossroads.Borders

/-! ## Lines with a point -/

/-- The line has two words, which are the numbers of the point. -/
def IsPoint (line : List Char) (p : Point Coordinate) : Prop :=
  ∃ a b x y, Text.words line = [a, b] ∧ Text.Decimal.read? a = some x ∧
    Text.Decimal.read? b = some y ∧ p = ⟨.ofFloat x, .ofFloat y⟩

theorem readPoint_eq_ok_iff {line : List Char} {p : Point Coordinate} :
    readPoint line = .ok p ↔ IsPoint line p := by
  unfold readPoint
  constructor
  · intro h
    split at h
    · rename_i x y hread
      obtain ⟨a, rest, hwords, ha, hrest⟩ := List.map_eq_cons_iff.mp hread
      obtain ⟨b, last, rfl, hb, hlast⟩ := List.map_eq_cons_iff.mp hrest
      rw [List.map_eq_nil_iff.mp hlast] at hwords
      exact ⟨a, b, x, y, hwords, ha, hb, (Except.ok.inj h).symm⟩
    · cases h
  · rintro ⟨a, b, x, y, hwords, ha, hb, rfl⟩
    rw [hwords, List.map_cons, List.map_cons, List.map_nil, ha, hb]

theorem eq_of_readPoint_eq_error {line : List Char} {complaint : Complaint}
    (h : readPoint line = .error complaint) : complaint = .badCoordinates (String.ofList line) := by
  unfold readPoint at h
  split at h
  · cases h
  · exact (Except.error.inj h).symm

/-- The line that ends a ring is one word. -/
theorem IsPoint.ne_endLine {line : List Char} {p : Point Coordinate} (h : IsPoint line p) :
    line ≠ endLine := by
  rintro rfl
  obtain ⟨a, b, x, y, hwords, -⟩ := h
  have hone : Text.words endLine = [endLine] := by decide
  rw [hone] at hwords
  cases hwords

/-! ## Rings -/

/-- A ring as it stands in a border file. -/
structure Entry where
  header : List Char
  /-- The lines after the header, each with its point. -/
  rows : List (List Char × Point Coordinate)
  header_ne : header ≠ endLine
  isPoint : ∀ row ∈ rows, IsPoint row.1 row.2
  three_le : 3 ≤ rows.length

namespace Entry

/-- The lines of an entry. -/
def lines (e : Entry) : List (List Char) := e.header :: (e.rows.map Prod.fst ++ [endLine])

/-- The points of an entry, in order. -/
def ring (e : Entry) : Ring := e.rows.map Prod.snd

/-- The header starts with an exclamation mark. -/
def isHole (e : Entry) : Bool := e.header.head? == some '!'

end Entry

/-- Before an `END` a ring has a point on each line. -/
theorem readRing_cons_eq_ok_iff {line : List Char} {lines rest : List (List Char)} {ring : Ring}
    (hline : line ≠ endLine) : readRing (line :: lines) = .ok (ring, rest) ↔
      ∃ p found, IsPoint line p ∧ readRing lines = .ok (found, rest) ∧ p :: found = ring := by
  rw [readRing, beq_false_of_ne hline]
  simp only [← readPoint_eq_ok_iff]
  cases readPoint line with
  | error complaint => simp [bind, Except.bind]
  | ok point =>
    cases readRing lines with
    | error complaint => simp [bind, Except.bind]
    | ok read =>
      obtain ⟨found, later⟩ := read
      constructor
      · intro h
        obtain ⟨rfl, rfl⟩ := Prod.mk.inj (Except.ok.inj h)
        exact ⟨point, found, rfl, rfl, rfl⟩
      · rintro ⟨p, found', hp, hfound, rfl⟩
        obtain ⟨rfl, rfl⟩ := Prod.mk.inj (Except.ok.inj hfound)
        rw [Except.ok.inj hp]
        rfl

/-- Lines with points and an `END` are read as a ring of the points. -/
theorem readRing_rows {rows : List (List Char × Point Coordinate)}
    (h : ∀ row ∈ rows, IsPoint row.1 row.2) (rest : List (List Char)) :
    readRing (rows.map Prod.fst ++ endLine :: rest) = .ok (rows.map Prod.snd, rest) := by
  induction rows with
  | nil => simp [readRing]
  | cons row rows ih =>
    obtain ⟨hrow, hrows⟩ := List.forall_mem_cons.mp h
    exact (readRing_cons_eq_ok_iff hrow.ne_endLine).mpr ⟨row.2, _, hrow, ih hrows, rfl⟩

/-- A ring is read off lines with points, up to an `END` or to the end of the text. -/
theorem exists_rows_of_readRing {lines rest : List (List Char)} {ring : Ring}
    (h : readRing lines = .ok (ring, rest)) : ∃ rows : List (List Char × Point Coordinate),
      (∀ row ∈ rows, IsPoint row.1 row.2) ∧ ring = rows.map Prod.snd ∧
        (lines = rows.map Prod.fst ++ endLine :: rest ∨ lines = rows.map Prod.fst ∧ rest = []) := by
  induction lines generalizing ring rest with
  | nil =>
    obtain ⟨rfl, rfl⟩ := Prod.mk.inj (Except.ok.inj h)
    exact ⟨[], fun _ hrow => absurd hrow List.not_mem_nil, rfl, .inr ⟨rfl, rfl⟩⟩
  | cons line lines ih =>
    by_cases hline : line = endLine
    · rw [hline, readRing, beq_self_eq_true] at h
      obtain ⟨rfl, rfl⟩ := Prod.mk.inj (Except.ok.inj h)
      exact ⟨[], fun _ hrow => absurd hrow List.not_mem_nil, rfl, .inl (hline ▸ rfl)⟩
    · obtain ⟨p, found, hp, hread, rfl⟩ := (readRing_cons_eq_ok_iff hline).mp h
      obtain ⟨rows, hrows, rfl, hlines⟩ := ih hread
      refine ⟨(line, p) :: rows, List.forall_mem_cons.mpr ⟨hp, hrows⟩, rfl, ?_⟩
      rcases hlines with rfl | ⟨rfl, rfl⟩
      · exact .inl rfl
      · exact .inr ⟨rfl, rfl⟩

/-! ## Files -/

/-- Adds the rings of entries, one after another. -/
def addEntries (regions : List (Ring × List Ring)) (entries : List Entry) :
    Except Complaint (List (Ring × List Ring)) :=
  entries.foldlM (fun regions e => addRing e.header e.ring regions) regions

variable {regions found : List (Ring × List Ring)} {header : List Char}
  {lines later : List (List Char)} {ring : Ring}

/-- After a header the ring is read and added. -/
theorem readRegions_cons (hheader : header ≠ endLine) :
    readRegions regions (header :: lines) = readRing lines >>= fun read =>
      addRing header read.1 regions >>= fun regions => readRegions regions read.2 := by
  rw [readRegions, beq_false_of_ne hheader]
  simp only [Bool.false_eq_true, if_false]
  split
  · rename_i complaint hread
    rw [hread]
    rfl
  · rename_i ring later hread
    rw [hread]
    show _ = addRing header ring regions >>= fun regions => readRegions regions later
    cases addRing header ring regions <;> rfl

theorem readRegions_of_readRing (hheader : header ≠ endLine)
    (hread : readRing lines = .ok (ring, later)) :
    readRegions regions (header :: lines)
      = addRing header ring regions >>= fun regions => readRegions regions later := by
  rw [readRegions_cons hheader, hread]
  rfl

/-- The lines of entries and an `END` are read as the regions of the entries, whatever follows. -/
theorem readRegions_entries (entries : List Entry) (rest : List (List Char)) :
    readRegions regions (entries.flatMap Entry.lines ++ endLine :: rest)
      = addEntries regions entries := by
  induction entries generalizing regions with
  | nil =>
    rw [List.flatMap_nil, List.nil_append, readRegions, beq_self_eq_true]
    rfl
  | cons e entries ih =>
    have hlines : (e :: entries).flatMap Entry.lines ++ endLine :: rest = e.header ::
        (e.rows.map Prod.fst ++ endLine :: (entries.flatMap Entry.lines ++ endLine :: rest)) := by
      rw [List.flatMap_cons, Entry.lines]
      simp only [List.cons_append, List.append_assoc, List.nil_append]
    rw [hlines, readRegions_of_readRing e.header_ne (readRing_rows e.isPoint _), addEntries,
      List.foldlM_cons]
    exact bind_congr fun regions => ih

/-- Whatever is added has three points. -/
theorem three_le_of_addRing (h : addRing header ring regions = .ok found) : 3 ≤ ring.length := by
  unfold addRing at h
  split at h
  · cases h
  · rename_i hlong
    exact Nat.le_of_not_lt hlong

/-- Regions are read off the lines of entries. -/
theorem exists_entries_of_readRegions (h : readRegions regions lines = .ok found) :
    ∃ entries rest, lines = entries.flatMap Entry.lines ++ endLine :: rest ∧
      addEntries regions entries = .ok found := by
  induction regions, lines using readRegions.induct with
  | case1 regions =>
    rw [readRegions] at h
    cases h
  | case2 regions header lines hend =>
    rw [readRegions, if_pos hend] at h
    rw [beq_iff_eq.mp hend]
    exact ⟨[], lines, rfl, h⟩
  | case3 regions header lines hend complaint hread =>
    rw [readRegions_cons (beq_iff_eq.not.mp hend), hread] at h
    cases h
  | case4 regions header lines hend ring later hread hlater complaint hadd =>
    rw [readRegions_of_readRing (beq_iff_eq.not.mp hend) hread, hadd] at h
    cases h
  | case5 regions header lines hend ring later hread hlater added hadd ih =>
    have hheader : header ≠ endLine := beq_iff_eq.not.mp hend
    rw [readRegions_of_readRing hheader hread, hadd] at h
    replace h : readRegions added later = .ok found := h
    have hlong := three_le_of_addRing hadd
    obtain ⟨rows, hrows, rfl, hlines | ⟨-, rfl⟩⟩ := exists_rows_of_readRing hread
    · obtain ⟨entries, rest, rfl, hentries⟩ := ih h
      rw [List.length_map] at hlong
      refine ⟨⟨header, rows, hheader, hrows, hlong⟩ :: entries, rest, ?_, ?_⟩
      · rw [hlines, List.flatMap_cons, Entry.lines]
        simp only [List.cons_append, List.append_assoc, List.nil_append]
      · rw [addEntries, List.foldlM_cons]
        show (addRing header (rows.map Prod.snd) regions >>= fun regions =>
          addEntries regions entries) = .ok found
        rw [hadd]
        exact hentries
    · -- the text ends with the ring
      rw [readRegions] at h
      cases h

/-! ## Outer rings and holes -/

/-- The outer rings of entries in order, each with the holes between it and the next outer ring. -/
def parts : List Entry → List (Ring × List Ring)
  | [] => []
  | e :: rest =>
    if e.isHole then parts rest
    else (e.ring, (rest.takeWhile Entry.isHole).map Entry.ring) :: parts rest

theorem addRing_entry (e : Entry) : addRing e.header e.ring regions =
    if e.isHole then
      match regions.getLast? with
      | none => .error (.strayHole (String.ofList e.header))
      | some (outer, holes) => .ok (regions.dropLast ++ [(outer, holes ++ [e.ring])])
    else .ok (regions ++ [(e.ring, [])]) := by
  have hlong : ¬ e.ring.length < 3 := by
    rw [Entry.ring, List.length_map]
    exact Nat.not_lt.mpr e.three_le
  rw [addRing, if_neg hlong]
  rfl

/-- A hole is added to the last region. -/
theorem addRing_hole {e : Entry} (he : e.isHole = true) (outer : Ring) (holes : List Ring) :
    addRing e.header e.ring (regions ++ [(outer, holes)])
      = .ok (regions ++ [(outer, holes ++ [e.ring])]) := by
  rw [addRing_entry, if_pos he, List.getLast?_concat, List.dropLast_concat]

theorem addRing_outer {e : Entry} (he : e.isHole = false) :
    addRing e.header e.ring regions = .ok (regions ++ [(e.ring, [])]) := by
  rw [addRing_entry, if_neg (Bool.eq_false_iff.mp he)]

/-- The holes that come first go to the last ring so far. -/
theorem addEntries_concat (regions : List (Ring × List Ring)) (entries : List Entry) (outer : Ring)
    (holes : List Ring) :
    addEntries (regions ++ [(outer, holes)]) entries = .ok (regions ++
      (outer, holes ++ (entries.takeWhile Entry.isHole).map Entry.ring) :: parts entries) := by
  induction entries generalizing regions outer holes with
  | nil =>
    rw [List.takeWhile_nil, List.map_nil, List.append_nil]
    rfl
  | cons e entries ih =>
    rw [addEntries, List.foldlM_cons, parts]
    cases he : e.isHole with
    | true =>
      rw [addRing_hole he, List.takeWhile_cons_of_pos he, List.map_cons]
      exact (ih regions outer (holes ++ [e.ring])).trans (by rw [List.append_assoc]; rfl)
    | false =>
      rw [addRing_outer he, List.takeWhile_cons_of_neg (Bool.eq_false_iff.mp he), List.map_nil,
        List.append_nil]
      exact (ih (regions ++ [(outer, holes)]) e.ring []).trans (by rw [List.append_assoc]; rfl)

/-- Entries make regions unless the first one is a hole. -/
theorem addEntries_nil_eq_ok_iff {entries : List Entry} : addEntries [] entries = .ok found ↔
    (∀ first ∈ entries.head?, first.isHole = false) ∧ found = parts entries := by
  cases entries with
  | nil =>
    rw [List.head?_nil, parts]
    constructor
    · intro h
      exact ⟨fun _ hfirst => absurd hfirst (Option.not_mem_none _), (Except.ok.inj h).symm⟩
    · rintro ⟨-, rfl⟩
      rfl
  | cons e entries =>
    rw [addEntries, List.foldlM_cons, parts, List.head?_cons]
    cases he : e.isHole with
    | true =>
      rw [addRing_entry, if_pos he]
      constructor
      · intro h
        cases h
      · rintro ⟨hfirst, -⟩
        rw [hfirst e rfl] at he
        cases he
    | false =>
      rw [addRing_outer he]
      show addEntries [(e.ring, [])] entries = .ok found ↔ _
      have hrest := addEntries_concat [] entries e.ring []
      rw [List.nil_append, List.nil_append, List.nil_append] at hrest
      rw [hrest, Except.ok.injEq]
      constructor
      · rintro rfl
        refine ⟨fun first hfirst => ?_, rfl⟩
        rwa [← Option.some.inj hfirst]
      · rintro ⟨-, rfl⟩
        rfl

/-! ## Complaints -/

/-- The complaint is that there are no lines, that the lines end too early, or it is about one of
them. -/
def Concerns (lines : List (List Char)) : Complaint → Prop
  | .emptyBorders => lines = []
  | .bordersWithoutEnd => True
  | .badCoordinates line => line.toList ∈ lines
  | .shortRing header count => header.toList ∈ lines ∧ count < 3
  | .strayHole header => header.toList ∈ lines
  | _ => False

variable {all : List (List Char)} {complaint : Complaint}

theorem concerns_of_readRing (h : readRing lines = .error complaint) (hall : lines ⊆ all) :
    Concerns all complaint := by
  induction lines with
  | nil => cases h
  | cons line lines ih =>
    obtain ⟨hline, hlines⟩ := List.cons_subset.mp hall
    rw [readRing] at h
    split at h
    · cases h
    · cases hpoint : readPoint line with
      | error complaint' =>
        simp only [hpoint, bind, Except.bind, Except.error.injEq] at h
        rw [← h, eq_of_readPoint_eq_error hpoint, Concerns, String.toList_ofList]
        exact hline
      | ok point =>
        cases hread : readRing lines with
        | error complaint' =>
          simp only [hpoint, hread, bind, Except.bind, Except.error.injEq] at h
          exact ih (h ▸ hread) hlines
        | ok read => simp [hpoint, hread, bind, Except.bind, pure, Except.pure] at h

theorem concerns_of_addRing (h : addRing header ring regions = .error complaint)
    (hall : header ∈ all) : Concerns all complaint := by
  unfold addRing at h
  split at h
  · rename_i hshort
    rw [← Except.error.inj h, Concerns, String.toList_ofList]
    exact ⟨hall, hshort⟩
  · split at h
    · split at h
      · rw [← Except.error.inj h, Concerns, String.toList_ofList]
        exact hall
      · cases h
    · cases h

/-- What is left after a ring stood there before. -/
theorem subset_of_readRing (h : readRing lines = .ok (ring, later)) : later ⊆ lines := by
  obtain ⟨rows, -, -, rfl | ⟨-, rfl⟩⟩ := exists_rows_of_readRing h
  · exact List.Subset.trans (List.subset_cons_self _ _) (List.subset_append_right _ _)
  · exact List.nil_subset _

theorem concerns_of_readRegions (h : readRegions regions lines = .error complaint)
    (hall : lines ⊆ all) : Concerns all complaint := by
  induction regions, lines using readRegions.induct with
  | case1 regions =>
    rw [readRegions] at h
    rw [← Except.error.inj h]
    trivial
  | case2 regions header lines hend =>
    rw [readRegions, if_pos hend] at h
    cases h
  | case3 regions header lines hend complaint' hread =>
    rw [readRegions_cons (beq_iff_eq.not.mp hend), hread] at h
    rw [← Except.error.inj h]
    exact concerns_of_readRing hread (List.cons_subset.mp hall).2
  | case4 regions header lines hend ring later hread hlater complaint' hadd =>
    rw [readRegions_of_readRing (beq_iff_eq.not.mp hend) hread, hadd] at h
    rw [← Except.error.inj h]
    exact concerns_of_addRing hadd (List.cons_subset.mp hall).1
  | case5 regions header lines hend ring later hread hlater added hadd ih =>
    rw [readRegions_of_readRing (beq_iff_eq.not.mp hend) hread, hadd] at h
    exact ih h (List.Subset.trans (subset_of_readRing hread) (List.cons_subset.mp hall).2)

/-! ## The grammar -/

/-- The lines are a name, the entries, an `END`, and anything after that; the first entry is no hole. -/
structure Describes (lines : List (List Char)) (entries : List Entry) : Prop where
  spelled : ∃ name rest, lines = name :: (entries.flatMap Entry.lines ++ endLine :: rest)
  outer_first : ∀ first ∈ entries.head?, first.isHole = false

/-- The region of an outer ring with holes. -/
def regionOf (part : Ring × List Ring) : Region := Region.ofRings part.1 part.2

theorem readRegions_eq_ok_iff (name : List Char) : readRegions [] lines = .ok found ↔
    ∃ entries, Describes (name :: lines) entries ∧ found = parts entries := by
  constructor
  · intro h
    obtain ⟨entries, rest, rfl, hadded⟩ := exists_entries_of_readRegions h
    obtain ⟨hfirst, rfl⟩ := addEntries_nil_eq_ok_iff.mp hadded
    exact ⟨entries, ⟨⟨name, rest, rfl⟩, hfirst⟩, rfl⟩
  · rintro ⟨entries, ⟨⟨name', rest, hlines⟩, hfirst⟩, rfl⟩
    rw [(List.cons.inj hlines).2, readRegions_entries]
    exact addEntries_nil_eq_ok_iff.mpr ⟨hfirst, rfl⟩

/-- After the name the regions are read. -/
theorem parse_of_lines {text name : List Char} (h : linesOf text = name :: lines) :
    parse text = (readRegions [] lines).map fun regions => regions.map regionOf := by
  rw [parse, h]
  show (readRegions [] lines >>= fun regions => .ok (regions.map regionOf)) = _
  cases readRegions [] lines <;> rfl

/-- A text has borders just when its lines describe entries, and its regions are then the outer ones,
each with the holes up to the next.  For any other text there is a complaint, about the end of the
text or about one of its lines. -/
theorem parse_iff_describes (text : List Char) :
    (∀ borders, parse text = .ok borders ↔
      ∃ entries, Describes (linesOf text) entries ∧ borders = (parts entries).map regionOf)
      ∧ ((∃ entries, Describes (linesOf text) entries) ∨
        ∃ complaint, parse text = .error complaint ∧ Concerns (linesOf text) complaint) := by
  cases hlines : linesOf text with
  | nil =>
    have hparse : parse text = .error .emptyBorders := by rw [parse, hlines]
    refine ⟨fun borders => ?_, .inr ⟨_, hparse, rfl⟩⟩
    rw [hparse]
    refine iff_of_false (fun h => by cases h) ?_
    rintro ⟨entries, ⟨⟨name, rest, hnone⟩, -⟩, -⟩
    cases hnone
  | cons name lines =>
    rw [parse_of_lines hlines]
    cases hread : readRegions [] lines with
    | error complaint =>
      refine ⟨fun borders => iff_of_false (fun h => by cases h) ?_, .inr ⟨complaint, rfl,
        concerns_of_readRegions hread (List.subset_cons_self _ _)⟩⟩
      rintro ⟨entries, hentries, -⟩
      rw [(readRegions_eq_ok_iff name).mpr ⟨entries, hentries, rfl⟩] at hread
      cases hread
    | ok found =>
      refine ⟨fun borders => ⟨fun h => ?_, ?_⟩, .inl ?_⟩
      · obtain ⟨entries, hentries, rfl⟩ := (readRegions_eq_ok_iff name).mp hread
        exact ⟨entries, hentries, (Except.ok.inj h).symm⟩
      · rintro ⟨entries, hentries, rfl⟩
        have hparts := (readRegions_eq_ok_iff name).mpr ⟨entries, hentries, rfl⟩
        rw [← Except.ok.inj (hparts.symm.trans hread)]
        rfl
      · obtain ⟨entries, hentries, -⟩ := (readRegions_eq_ok_iff name).mp hread
        exact ⟨entries, hentries⟩

/-! ## An island and a lake -/

/-- A line with the point that is read from it. -/
def row (line : String) : List Char × Point Coordinate :=
  (line.toList, (readPoint line.toList).toOption.getD ⟨0.0, 0.0⟩)

/-- The entry of a header and lines that a point can be read from. -/
def Entry.ofLines (header : String) (lines : List String)
    (header_ne : header.toList ≠ endLine := by decide)
    (readable : ∀ line ∈ lines, (readPoint line.toList).isOk = true := by decide +kernel)
    (three_le : 3 ≤ lines.length := by decide) : Entry where
  header := header.toList
  rows := lines.map row
  header_ne := header_ne
  isPoint := by
    intro r hr
    obtain ⟨line, hline, rfl⟩ := List.mem_map.mp hr
    have hok := readable line hline
    rw [← readPoint_eq_ok_iff, row]
    cases hread : readPoint line.toList with
    | error complaint =>
      rw [hread] at hok
      cases hok
    | ok p => rfl
  three_le := by rwa [List.length_map]

def mainland : Entry := .ofLines "1" ["0 0", "9 0", "9 9"]

def lake : Entry := .ofLines "!lake" ["6 1", "7 1", "7 2"]

def island : Entry := .ofLines "2" ["20 0", "21 0", "21 1"]

/-- A country with a lake and an island, and more after the end. -/
def country : List Char :=
  ("country\n1\n 0 0\n 9 0\n 9 9\nEND\n\n!lake\n 6 1\n 7 1\n 7 2\nEND\n"
    ++ "2\n20 0\n21 0\n21 1\nEND\nEND\n!\n").toList

theorem parse_country : parse country
    = .ok [regionOf (mainland.ring, [lake.ring]), regionOf (island.ring, [])] :=
  ((parse_iff_describes country).1 _).mpr
    ⟨[mainland, lake, island], ⟨⟨"country".toList, ["!".toList], by rfl⟩, by decide +kernel⟩, by rfl⟩

end Crossroads.Borders

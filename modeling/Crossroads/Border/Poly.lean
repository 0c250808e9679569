import Crossroads.Border
import Crossroads.Fault
import Crossroads.Text.Blank
import Crossroads.Text.Decimal

/-!
# Border files

A border file has a name line, then rings, then a line `END`.  A ring has a header line, lines of
two coordinates each, and a line `END` of its own.  Headers that start with an exclamation mark are
holes of the ring before them.  Blanks around lines and blank lines do not count, nor does anything
after the last `END`.
-/

namespace Crossroads.Borders

/-- The line that ends a ring, and the file. -/
def endLine : List Char := "END".toList

/-- The point on a line of coordinates. -/
def readPoint (line : List Char) : Except Complaint (Point Coordinate) :=
  match (Text.words line).map Text.Decimal.read? with
  | [some x, some y] => .ok ⟨.ofFloat x, .ofFloat y⟩
  | _ => .error (.badCoordinates (String.ofList line))

/-- The points of a ring up to the end of the ring or of the file, and the lines that follow. -/
def readRing : List (List Char) → Except Complaint (Ring × List (List Char))
  | [] => .ok ([], [])
  | line :: rest =>
    if line == endLine then .ok ([], rest)
    else do
      let point ← readPoint line
      let (ring, rest) ← readRing rest
      return (point :: ring, rest)

/-- What a ring leaves has no more lines than it was given. -/
theorem length_of_readRing {lines rest : List (List Char)} {ring : Ring}
    (h : readRing lines = .ok (ring, rest)) : rest.length ≤ lines.length := by
  induction lines generalizing ring rest with
  | nil => simp_all [readRing]
  | cons line lines ih =>
    unfold readRing at h
    split at h
    · simp_all
    · cases hp : readPoint line with
      | error e => simp [hp, bind, Except.bind] at h
      | ok point =>
        cases hr : readRing lines with
        | error e => simp [hp, hr, bind, Except.bind] at h
        | ok pair =>
          obtain ⟨found, last⟩ := pair
          simp only [hp, hr, bind, Except.bind, pure, Except.pure, Except.ok.injEq,
            Prod.mk.injEq] at h
          have := ih hr
          simp only [List.length_cons, ← h.2]
          omega

/-- Adds a ring under its header: a hole to the last region, any other ring as a region. -/
def addRing (header : List Char) (ring : Ring) (regions : List (Ring × List Ring)) :
    Except Complaint (List (Ring × List Ring)) :=
  if ring.length < 3 then .error (.shortRing (String.ofList header) ring.length)
  else if header.head? == some '!' then
    match regions.getLast? with
    | none => .error (.strayHole (String.ofList header))
    | some (outer, holes) => .ok (regions.dropLast ++ [(outer, holes ++ [ring])])
  else .ok (regions ++ [(ring, [])])

/-- The regions of a file's rings, after those read so far. -/
def readRegions (regions : List (Ring × List Ring)) (lines : List (List Char)) :
    Except Complaint (List (Ring × List Ring)) :=
  match lines with
  | [] => .error .bordersWithoutEnd
  | header :: rest =>
    if header == endLine then .ok regions
    else
      match read : readRing rest with
      | .error complaint => .error complaint
      | .ok (ring, later) =>
        have := length_of_readRing read
        match addRing header ring regions with
        | .error complaint => .error complaint
        | .ok regions => readRegions regions later
termination_by lines.length
decreasing_by
  simp only [List.length_cons]
  omega

/-- The lines that count, without the blanks around them. -/
def linesOf (text : List Char) : List (List Char) :=
  ((Text.lines '\n' '\r' text).map Text.trim).filter fun line => !line.isEmpty

/-- The borders that a file describes. -/
def parse (text : List Char) : Except Complaint Borders :=
  match linesOf text with
  | [] => .error .emptyBorders
  | _ :: lines => do
    let regions ← readRegions [] lines
    return regions.map fun (outer, holes) => Region.ofRings outer holes

end Crossroads.Borders

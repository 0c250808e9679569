import Crossroads.Overlay.Source

/-!
# Fake edges

Fake edges tie a junction to the points of real edges that are nearest to it: the vicinities.
Adding a vicinity, an edge `AB` with a point `P` on it, splits `AB` and `BA` at `P`, links the
junction with `P` both ways, and splits every fake edge that passes through `P`.

`Fakes` holds the fake edges out of and into each junction; every list is in order and without
repeats.  Which points are close is asked of a `Nearness`.
-/

namespace Crossroads

/-- Which points count as equal, and which as lying on a line. -/
structure Nearness (K : Type) where
  almostEqual : Point K → Point K → Bool
  onSegment : Point K → Point K → Point K → Bool

/-- Nearness within the tolerance. -/
def Nearness.standard (K : Type) [Scalar K] : Nearness K :=
  ⟨Point.almostEqual Point.tolerance, Point.onSegment⟩

/-- Lists of edges by junction. -/
abbrev EdgeTable (K : Type) [Scalar K] := Std.TreeMap (Junction K) (List (Edge K)) Junction.compare

/-- The fake edges out of and into each junction. -/
structure Fakes (K : Type) [Scalar K] where
  outgoing : EdgeTable K := {}
  ingoing : EdgeTable K := {}

namespace Fakes

variable {K : Type} [Scalar K]

/-- The fake edges at a junction. -/
def edges (fakes : Fakes K) (j : Junction K) : Direction → List (Edge K)
  | .outgoing => fakes.outgoing.getD j []
  | .ingoing => fakes.ingoing.getD j []

/-- Some junction has fake edges. -/
def isEmpty (fakes : Fakes K) : Bool := fakes.outgoing.isEmpty

/-- The parts of an edge before and after a point; none if the point is close to an end. -/
def split (n : Nearness K) (p : Junction K) (e : Edge K) : List (Edge K) :=
  if n.almostEqual e.start.point p.point || n.almostEqual p.point e.stop.point then []
  else
    let partOfReal := !e.isFake || e.partOfReal
    [.fake e.start p partOfReal, .fake p e.stop partOfReal]

/-- The parts of all fake edges that pass through a point. -/
def splits (n : Nearness K) (fakes : Fakes K) (p : Junction K) : List (Edge K) :=
  ((fakes.ingoing.values ++ fakes.outgoing.values).flatten.filter fun e =>
    n.onSegment p.point e.start.point e.stop.point).flatMap (split n p)

/-- The edges that a vicinity of a junction brings. -/
def arising (n : Nearness K) (fakes : Fakes K) (j : Junction K) (ab : Edge K) (p : Junction K) :
    List (Edge K) :=
  split n p ab ++ split n p ab.reverse ++ [.fake j p false, .fake p j false] ++ splits n fakes p

/-- Appends an edge to the list of a junction. -/
def append (table : EdgeTable K) (j : Junction K) (e : Edge K) : EdgeTable K :=
  table.insert j (table.getD j [] ++ [e])

/-- Enters an edge at both its ends. -/
def enter (fakes : Fakes K) (e : Edge K) : Fakes K :=
  ⟨append fakes.outgoing e.start e, append fakes.ingoing e.stop e⟩

/-- Enters what a vicinity brings. -/
def addVicinity (n : Nearness K) (j : Junction K) (fakes : Fakes K)
    (vicinity : Edge K × Junction K) : Fakes K :=
  (arising n fakes j vicinity.1 vicinity.2).foldl enter fakes

/-- Drops each edge that is the same as the one before it. -/
def dropRepeats : List (Edge K) → List (Edge K)
  | [] => []
  | e :: rest =>
    match dropRepeats rest with
    | [] => [e]
    | next :: later => if e.same next then e :: later else e :: next :: later

/-- The edges in order, without repeats. -/
def tidy (edges : List (Edge K)) : List (Edge K) :=
  dropRepeats (edges.mergeSort fun a b => (Edge.compare a b).isLE)

/-- Connects a junction to its vicinities. -/
def add (n : Nearness K) (fakes : Fakes K) (j : Junction K)
    (vicinities : List (Edge K × Junction K)) : Fakes K :=
  let entered := vicinities.foldl (addVicinity n j) fakes
  ⟨entered.outgoing.map fun _ => tidy, entered.ingoing.map fun _ => tidy⟩

end Fakes

/-- A road graph: a source of roads with fake edges laid over it. -/
structure Overlay (K : Type) [Scalar K] where
  source : RoadSource K
  fakes : Fakes K := {}
  nearness : Nearness K := .standard K

namespace Overlay

variable {K : Type} [Scalar K]

/-- The real edges at a junction. -/
def regularEdges (g : Overlay K) (j : Junction K) (direction : Direction) : List (Edge K) :=
  g.source.edges j direction

/-- The fake edges at a junction. -/
def fakeEdges (g : Overlay K) (j : Junction K) (direction : Direction) : List (Edge K) :=
  g.fakes.edges j direction

/-- All edges at a junction, real ones first. -/
def edges (g : Overlay K) (j : Junction K) (direction : Direction) : List (Edge K) :=
  g.regularEdges j direction ++ g.fakeEdges j direction

/-- Connects a junction to its vicinities by fake edges. -/
def addFakes (g : Overlay K) (j : Junction K) (vicinities : List (Edge K × Junction K)) :
    Overlay K :=
  { g with fakes := g.fakes.add g.nearness j vicinities }

/-- Drops all fake edges. -/
def reset (g : Overlay K) : Overlay K := { g with fakes := {} }

/-- Some junction has fake edges. -/
def hasFakes (g : Overlay K) : Bool := !g.fakes.isEmpty

end Overlay

end Crossroads

import Std.Data.HashMap
import Crossroads.Coordinate
import Crossroads.Graph.Segment
import Crossroads.Point

/-!
# Connectors

A connector lists the segments by which one vehicle enters and leaves a region, each known by its
place in its list, and the weights of the ways between them: a table with a row for each enter and a
column for each exit.  The table is read with the current number of exits as its width.

The places are kept beside the lists (`Places`), so that a segment is found without a search.
-/

namespace Crossroads

/-- Where a segment crosses the border. -/
structure Gate where
  oneWay : Bool
  /-- Going forward enters the region. -/
  inward : Bool
  back : Point Coordinate
  front : Point Coordinate

/-- Appends a segment unless it is listed. -/
def Connector.register (list : List Segment) (s : Segment) : List Segment :=
  if s ∈ list then list else list ++ [s]

theorem idxOf?_concat (list : List Segment) (s t : Segment) : (list ++ [s]).idxOf? t
    = (list.idxOf? t).or (if s = t then some list.length else none) := by
  unfold List.idxOf?
  rw [List.findIdx?_append, List.findIdx?_singleton]
  by_cases hsame : s = t
  · simp [hsame]
  · simp [hsame]

/-- The places of the segments in a list. -/
structure Places (list : List Segment) where
  index : Std.HashMap Segment Nat
  index_eq : ∀ s, index[s]? = list.idxOf? s

namespace Places

/-- No segment has a place in the empty list. -/
def empty : Places [] := ⟨{}, by simp⟩

/-- The place that a segment has once it is registered. -/
def placeOf {list : List Segment} (places : Places list) (s : Segment) : Nat :=
  places.index.getD s list.length

/-- The places after a segment has been registered: a new one comes behind all others. -/
def register {list : List Segment} (places : Places list) (s : Segment) :
    Places (Connector.register list s) where
  index := places.index.insertIfNew s list.length
  index_eq t := by
    have hmem : s ∈ places.index ↔ s ∈ list := by
      rw [Std.HashMap.mem_iff_isSome_getElem?, places.index_eq, List.isSome_idxOf?]
    simp only [Std.HashMap.getElem?_insertIfNew, places.index_eq, hmem, Connector.register]
    by_cases hlisted : s ∈ list
    · simp [hlisted]
    · rw [if_neg hlisted, idxOf?_concat]
      by_cases hsame : s = t
      · subst hsame
        simp [hlisted, List.idxOf?_eq_none_iff.mpr hlisted]
      · simp [hsame]

end Places

/-- The ways into and out of a region for one vehicle. -/
structure Connector where
  enters : List Segment := []
  exits : List Segment := []
  enterPlaces : Places enters := by exact Places.empty
  exitPlaces : Places exits := by exact Places.empty
  gates : Std.HashMap (FeatureId × UInt32) Gate := {}
  /-- Row after row; empty until it is filled. -/
  weights : List Weight := []

namespace Connector

/-! ## Registering -/

/-- Lists a segment as a way in. -/
def addEnter (c : Connector) (s : Segment) : Connector :=
  { c with enters := register c.enters s, enterPlaces := c.enterPlaces.register s }

/-- Lists a segment as a way out. -/
def addExit (c : Connector) (s : Segment) : Connector :=
  { c with exits := register c.exits s, exitPlaces := c.exitPlaces.register s }

/-- Lists a segment as a way in or out. -/
def addEnd (c : Connector) (inward : Bool) (s : Segment) : Connector :=
  if inward then c.addEnter s else c.addExit s

/-- Registers the crossing of a feature's segment: forward as the gate says, and backward the other
way round unless the road is one-way. -/
def addGate (c : Connector) (feature : FeatureId) (index : UInt32) (gate : Gate) : Connector :=
  let forward : Segment := ⟨feature, index, true⟩
  let c := c.addEnd gate.inward forward
  let c := if gate.oneWay then c else c.addEnd (!gate.inward) forward.reversed
  { c with gates := c.gates.insert (feature, index) gate }

/-! ## Looking up -/

/-- The place of a segment among the enters. -/
def enterIndex? (c : Connector) (s : Segment) : Option Nat := c.enterPlaces.index[s]?

/-- The place of a segment among the exits. -/
def exitIndex? (c : Connector) (s : Segment) : Option Nat := c.exitPlaces.index[s]?

theorem enterIndex?_eq (c : Connector) (s : Segment) : c.enterIndex? s = c.enters.idxOf? s :=
  c.enterPlaces.index_eq s

theorem exitIndex?_eq (c : Connector) (s : Segment) : c.exitIndex? s = c.exits.idxOf? s :=
  c.exitPlaces.index_eq s

/-- The gate of a segment. -/
def gate? (c : Connector) (s : Segment) : Option Gate := c.gates[(s.feature, s.index)]?

/-- The segment crosses the border, outward or inward. -/
def crosses (c : Connector) (s : Segment) (outgoing : Bool) : Bool :=
  match c.gate? s with
  | none => false
  | some gate => (s.forward || !gate.oneWay) && ((s.forward == gate.inward) == !outgoing)

/-- The point at the end (`front`) or the start of a segment that crosses the border. -/
def gatePoint? (c : Connector) (s : Segment) (front : Bool) : Option (Point Coordinate) :=
  (c.gate? s).map fun gate => if s.forward == front then gate.front else gate.back

/-! ## Weights -/

/-- The table has been filled. -/
def hasWeights (c : Connector) : Bool := !c.weights.isEmpty

/-- The weights of all pairs, row after row. -/
def tabulate (c : Connector) (weigh : Segment → Segment → Weight) : List Weight :=
  c.enters.flatMap fun enter => c.exits.map (weigh enter)

/-- Fills the table. -/
def fill (c : Connector) (weigh : Segment → Segment → Weight) : Connector :=
  { c with weights := c.tabulate weigh }

/-- Installs a table of the right size. -/
def install? (c : Connector) (weights : List Weight) : Option Connector :=
  if weights.length = c.enters.length * c.exits.length then some { c with weights := weights }
  else none

/-- The weight in a row and a column. -/
def weight (c : Connector) (i j : Nat) : Weight :=
  if i < c.enters.length && j < c.exits.length then
    c.weights.getD (i * c.exits.length + j) Weight.none
  else Weight.none

/-- The weight of a leap between an enter and an exit that a way connects. -/
def leap? (c : Connector) (enter exit : Segment) : Option Weight := do
  let w := c.weight (← c.enterIndex? enter) (← c.exitIndex? exit)
  if w = Weight.none then none else some w

/-- Steps with the weights of some segments, without those that have none. -/
def steps (weights : List Weight) (segments : List Segment) : List Step :=
  (segments.zip weights).filterMap fun (s, w) => if w = Weight.none then none else some ⟨s, w⟩

/-- The leaps from an enter. -/
def leapsFrom (c : Connector) (enter : Segment) : List Step :=
  match c.enterIndex? enter with
  | none => []
  | some i => steps ((List.range c.exits.length).map (c.weight i)) c.exits

/-- The leaps to an exit. -/
def leapsTo (c : Connector) (exit : Segment) : List Step :=
  match c.exitIndex? exit with
  | none => []
  | some j => steps ((List.range c.enters.length).map (c.weight · j)) c.enters

end Connector

/-- One connector for each vehicle. -/
abbrev Connectors := PerVehicle Connector

end Crossroads

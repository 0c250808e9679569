import Crossroads.Overlay.StretchIndex
import Crossroads.Vehicle.Model

/-!
# Roadbooks

A roadbook holds roads in memory together with an index of the stretches they are made of, so that
the roads near a point and the edges closest to it can be found without looking at every vertex.
-/

namespace Crossroads

/-- Roads in memory. -/
structure Roadbook {K : Type} (index : StretchIndex K) where
  mode : Mode
  maxSpeed : Float
  roads : Std.TreeMap FeatureId (RoadLine K) := {}
  stretches : index.State := index.empty

namespace Roadbook

variable {K : Type} {index : StretchIndex K}

/-- Adds or replaces a road. -/
def add (book : Roadbook index) (id : FeatureId) (road : RoadLine K) : Roadbook index :=
  let left := match book.roads[id]? with
    | some old => (Stretch.ofRoad id old).foldl index.remove book.stretches
    | none => book.stretches
  { book with
    roads := book.roads.insert id road
    stretches := (Stretch.ofRoad id road).foldl index.insert left }

/-- A feature as a road for a model, if the vehicle may use it. -/
def lineOfFeature? (model : Model) (f : Feature) : Option (RoadLine Coordinate) :=
  if model.isRoad f && 2 ≤ f.points.length then
    some ⟨f.points.map fun p => { point := p }, model.speed f, !model.isOneWay f⟩
  else none

/-- The roads of a list of features, as a model sees them. -/
def ofFeatures {index : StretchIndex Coordinate} (model : Model) (mode : Mode)
    (features : List Feature) : Roadbook index :=
  let roads : Std.TreeMap FeatureId (RoadLine Coordinate) :=
    features.foldl
      (fun roads f => match lineOfFeature? model f with
        | some road => roads.insert f.id road
        | none => roads)
      {}
  { mode := mode
    maxSpeed := model.maxSpeed
    roads := roads
    stretches := index.ofList (roads.toList.flatMap fun (id, road) => Stretch.ofRoad id road) }

variable [Scalar K]

/-- The square of the distance within which a road counts as near. -/
def reach : K := Point.tolerance * Point.tolerance * 4.0

/-- The roads with a stretch within reach of a point, in increasing order. -/
def near (book : Roadbook index) (p : Point K) : List (FeatureId × RoadLine K) :=
  let hits := (index.within book.stretches reach p).map Stretch.feature
  book.roads.toList.filter fun (id, _) => hits.contains id

/-- The forward edge along a stretch. -/
def edge? (book : Roadbook index) (s : Stretch K) : Option (Edge K) := do
  let road ← book.roads[s.feature]?
  let i := s.index.toNat
  some { feature := some s.feature, index := s.index
         start := ← road.junctions[i]?, stop := ← road.junctions[i + 1]? }

/-- The forward edge along a stretch, with the point of it that is nearest to a point. -/
def found? (book : Roadbook index) (p : Point K) (s : Stretch K) : Option (Edge K × Junction K) :=
  (book.edge? s).map fun e => (e, { point := s.project p })

/-- At most `count` edges, the closest to a point first, each with the point of it that is nearest.
-/
def closest (book : Roadbook index) (p : Point K) (count : Nat) : List (Edge K × Junction K) :=
  ((index.nearest book.stretches p).filterMap (book.found? p)).take count

/-- The roadbook as something to lay the road graph over. -/
def source (book : Roadbook index) : RoadSource K where
  mode := book.mode
  maxSpeed := book.maxSpeed
  road? id := book.roads[id]?
  near := book.near

end Roadbook

end Crossroads

import Crossroads.Graph.Segment
import Crossroads.Sphere
import Crossroads.Vehicle.Model

/-!
# Roads

A `Road` is a feature as one vehicle sees it, and a `RoadMap` holds the roads of a region.  `Pace`
turns the length of a segment into a travel time.
-/

namespace Crossroads

/-- A feature as one vehicle sees it. -/
structure Road where
  points : List (Point Coordinate)
  /-- The speed in km/h. -/
  speed : Float
  oneWay : Bool

namespace Road

/-- A road can be travelled when it has a segment and a speed. -/
def isValid (r : Road) : Bool := decide (2 ≤ r.points.length) && decide (r.speed > 0.0)

/-- The point with an index. -/
def point? (r : Road) (index : UInt32) : Option (Point Coordinate) := r.points[index.toNat]?

/-- A feature as a model sees it, if the vehicle may travel it. -/
def ofFeature? (model : Model) (f : Feature) : Option Road :=
  let road : Road := ⟨f.points, model.speed f, model.isOneWay f⟩
  if model.isRoad f && road.isValid then some road else none

end Road

/-- The roads of a region. -/
structure RoadMap where
  roads : Std.TreeMap FeatureId Road := {}

namespace RoadMap

/-- Adds or replaces a road. -/
def insert (m : RoadMap) (id : FeatureId) (road : Road) : RoadMap := ⟨m.roads.insert id road⟩

/-- The number of roads, valid or not. -/
def size (m : RoadMap) : Nat := m.roads.size

/-- The valid road of a feature. -/
def road? (m : RoadMap) (id : FeatureId) : Option Road := m.roads[id]?.filter Road.isValid

/-- The roads that a model sees in a list of features; a later feature replaces one of the same
number. -/
def ofFeatures (model : Model) (features : List Feature) : RoadMap :=
  features.foldl
    (fun m f => match Road.ofFeature? model f with
      | some road => m.insert f.id road
      | none => m)
    {}

end RoadMap

/-- How travel times are estimated: nobody goes faster than `maxSpeed`, in km/h. -/
structure Pace where
  maxSpeed : Float := 110.0

namespace Pace

/-- The greatest travel time. -/
def slowest : Float := 4294967294.0

/-- The time for a distance in meters at a speed in km/h. -/
def time (meters speed : Float) : Weight :=
  let tenths := meters / (speed / 3.6) * 10.0
  if tenths < slowest then Double.nearestWord tenths else 4294967294

/-- The travel time along a segment of a road. -/
def weight (p : Pace) (road : Road) (s : Segment) : Weight :=
  match road.point? s.index, road.point? (s.index + 1) with
  | some a, some b =>
    let speed := Double.lesser road.speed p.maxSpeed
    if speed ≤ 0.0 then 0 else time (Sphere.distance a b) speed
  | _, _ => 0

end Pace

end Crossroads

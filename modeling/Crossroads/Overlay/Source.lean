import Crossroads.Overlay.Junction

/-!
# Road sources

A `RoadSource` is what the road graph is laid over: it finds the roads near a point and knows their
speed.  From it follow the real edges that touch a junction (`RoadSource.edges`).
-/

namespace Crossroads

/-- Whether one-way roads are heeded. -/
inductive Mode
  | obeyOneWay
  | ignoreOneWay
deriving DecidableEq, Repr

/-- A mode in words. -/
def Mode.text : Mode → String
  | obeyOneWay => "ObeyOnewayTag"
  | ignoreOneWay => "IgnoreOnewayTag"

/-- Out of a junction, or into it. -/
inductive Direction
  | outgoing
  | ingoing
deriving DecidableEq, Repr

/-- A road as a line of junctions. -/
structure RoadLine (K : Type) where
  junctions : List (Junction K)
  /-- The speed in km/h. -/
  speed : Float
  bidirectional : Bool

/-- What the road graph is laid over. -/
structure RoadSource (K : Type) where
  mode : Mode
  /-- The greatest speed in km/h. -/
  maxSpeed : Float
  road? : FeatureId → Option (RoadLine K)
  /-- The roads with a vertex near a point, and perhaps others. -/
  near : Point K → List (FeatureId × RoadLine K)

namespace RoadLine

variable {K : Type} [Scalar K]

/-- The edge of a road from or to a junction at one of its vertices: `other` is the neighbouring
vertex, which comes later on the road if `ahead`. -/
def edge (mode : Mode) (direction : Direction) (id : FeatureId) (road : RoadLine K)
    (cross : Junction K) (index : Nat) (other : Junction K) (ahead : Bool) : List (Edge K) :=
  let bothWays := road.bidirectional || mode == .ignoreOneWay
  match direction with
  | .outgoing =>
    if ahead || bothWays then
      [{ feature := some id, forward := ahead, index := UInt32.ofNat index
         start := cross, stop := other }]
    else []
  | .ingoing =>
    if !ahead || bothWays then
      [{ feature := some id, forward := !ahead, index := UInt32.ofNat index
         start := other, stop := cross }]
    else []

/-- The edges between a junction and the neighbours of the vertices that are almost equal to it. -/
def edges (mode : Mode) (direction : Direction) (cross : Junction K) (id : FeatureId)
    (road : RoadLine K) : List (Edge K) :=
  road.junctions.zipIdx.flatMap fun (vertex, i) =>
    if cross.almostEqual Point.tolerance vertex then
      (match road.junctions[i + 1]? with
        | some next => edge mode direction id road cross i next true
        | none => [])
      ++ (match i with
        | 0 => []
        | before + 1 => match road.junctions[before]? with
          | some previous => edge mode direction id road cross before previous false
          | none => [])
    else []

end RoadLine

namespace RoadSource

variable {K : Type} [Scalar K]

/-- The real edges that touch a junction. -/
def edges (source : RoadSource K) (cross : Junction K) (direction : Direction) : List (Edge K) :=
  (source.near cross.point).flatMap fun (id, road) => road.edges source.mode direction cross id

/-- The speed on an edge; fake edges are as fast as can be. -/
def speed (source : RoadSource K) (e : Edge K) : Float :=
  match e.feature with
  | some id => ((source.road? id).map RoadLine.speed).getD 0.0
  | none => source.maxSpeed

end RoadSource

end Crossroads

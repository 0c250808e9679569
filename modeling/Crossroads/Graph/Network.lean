import Crossroads.Graph.Road

/-!
# The network of a region

The places of a `Network` are directed segments.  Segments of one road follow one another along it;
segments of different roads meet only at joints.  `Network.steps` lists the segments that follow a
segment, or those that lead into it, each with the cost of the segment travelled next.  No step
turns straight back.
-/

namespace Crossroads

/-- The number of a joint. -/
abbrev JointId := UInt32

/-- Which joint each point of one road belongs to, up to the last point that belongs to one. -/
structure RoadJoints where
  slots : Array (Option JointId) := #[]

namespace RoadJoints

/-- Records that a point belongs to a joint; the slots grow as far as they have to. -/
def add (road : RoadJoints) (index : UInt32) (joint : JointId) : RoadJoints :=
  ⟨(road.slots.rightpad (index.toNat + 1) none).setIfInBounds index.toNat (some joint)⟩

/-- The joint of a point. -/
def joint? (road : RoadJoints) (index : UInt32) : Option JointId := road.slots[index.toNat]?.join

end RoadJoints

/-- Which joint each road point belongs to. -/
structure JointIndex where
  byRoad : Std.TreeMap FeatureId RoadJoints := {}

namespace JointIndex

/-- Records that a road point belongs to a joint; a later joint takes it over. -/
def add (index : JointIndex) (joint : JointId) (p : RoadPoint) : JointIndex :=
  ⟨index.byRoad.insert p.feature ((index.byRoad.getD p.feature {}).add p.index joint)⟩

/-- The joint of a road point. -/
def joint? (index : JointIndex) (p : RoadPoint) : Option JointId := do
  (← index.byRoad[p.feature]?).joint? p.index

/-- The number of roads with a point in some joint. -/
def roadCount (index : JointIndex) : Nat := index.byRoad.size

/-- More than the greatest index of a road's points that belong to a joint. -/
def beyond (index : JointIndex) (id : FeatureId) : Nat :=
  (index.byRoad[id]?).elim 0 fun road => road.slots.size

/-- The index of a list of joints, which are known by their places in it, as far as words go. -/
def ofJoints (joints : List Joint) : JointIndex :=
  joints.zipIdx.foldl
    (fun index (joint, i) => joint.foldl (fun index p => index.add (UInt32.ofNat i) p) index) {}

end JointIndex

/-- The roads of a region and where they meet. -/
structure Network where
  map : RoadMap := {}
  pace : Pace := {}
  joints : List Joint := []
  index : JointIndex := {}

namespace Network

/-- The network with these joints and no others. -/
def withJoints (g : Network) (joints : List Joint) : Network :=
  { g with joints := joints, index := JointIndex.ofJoints joints }

/-- The joint with a number. -/
def joint? (g : Network) (id : JointId) : Option Joint := g.joints[id.toNat]?

/-- The number of the joint that a road point belongs to. -/
def jointId? (g : Network) (p : RoadPoint) : Option JointId := g.index.joint? p

/-- The number of roads that touch a joint. -/
def roadCount (g : Network) : Nat := g.index.roadCount

/-- The number of joints. -/
def jointCount (g : Network) : Nat := g.joints.length

/-- The number of road points over all joints. -/
def pointCount (g : Network) : Nat := g.joints.flatten.length

/-- The valid road of a feature. -/
def road? (g : Network) (id : FeatureId) : Option Road := g.map.road? id

/-- The cost of a segment. -/
def weight (g : Network) (s : Segment) : Weight :=
  match g.road? s.feature with
  | some road => g.pace.weight road s
  | none => 0

/-- The road points at the same place as a road point. -/
def meeting (g : Network) (p : RoadPoint) : List RoadPoint :=
  ((g.jointId? p).bind g.joint?).getD [p]

/-- The step between two segments, out of `s` or into it, unless it turns straight back. -/
def stepTo (g : Network) (s : Segment) (outgoing : Bool) (t : Segment) : List Step :=
  if t = s.reversed then [] else [⟨t, g.weight (if outgoing then t else s)⟩]

/-- The steps between `s` and the segments of one road that start, or end, at road point `p`. -/
def stepsAt (g : Network) (s : Segment) (outgoing : Bool) (p : RoadPoint) : List Step :=
  match g.road? p.feature with
  | none => []
  | some road =>
    (if (outgoing || !road.oneWay) && p.index.toNat + 1 < road.points.length then
      g.stepTo s outgoing ⟨p.feature, p.index, outgoing⟩ else [])
    ++ (if (!outgoing || !road.oneWay) && 0 < p.index then
      g.stepTo s outgoing ⟨p.feature, p.index - 1, !outgoing⟩ else [])

/-- The steps out of a segment, or those into it. -/
def steps (g : Network) (s : Segment) (outgoing : Bool) : List Step :=
  (g.meeting (s.roadPoint outgoing)).flatMap (g.stepsAt s outgoing)

/-- More than the greatest index that steps can come to on a road. -/
def span (g : Network) (id : FeatureId) (road : Road) : Nat :=
  max road.points.length (g.index.beyond id)

/-- No fewer than the segments that steps can lead to, from segments whose own index is below it. -/
def extent (g : Network) : Nat :=
  ((g.map.roads.toList.filter fun entry => entry.2.isValid).map fun entry =>
    2 * g.span entry.1 entry.2).foldr (· + ·) 0

end Network

end Crossroads

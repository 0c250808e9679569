import Std.Data.ExtTreeMap
import Crossroads.Graph.Network
import Crossroads.Grid
import Crossroads.Vehicle.Atlas

/-!
# Surveys

A survey walks over the features of a region once.  It notes who may use each road, and which road
points fall into each cell of the grid; the cells with two or more of them are the joints.

The joints come in an order of their own: each lists its points in increasing order, and joints are
ordered as their lists are.  So they do not depend on the order in which the cells are visited.
-/

namespace Crossroads

/-- Who may use each road, by feature. -/
abbrev MaskTable := Std.ExtTreeMap FeatureId Mask

/-- What has been noted about the features seen so far. -/
structure Survey where
  masks : MaskTable := ∅
  cells : Std.TreeMap Cell (List RoadPoint) := {}

namespace Joint

/-- The road points of a joint in increasing order. -/
def normalized (joint : Joint) : Joint := joint.mergeSort fun a b => (compare a b).isLE

/-- The joints among clusters of road points that share a place each, in their own order. -/
def ofClusters (clusters : List (List RoadPoint)) : List Joint :=
  ((clusters.filter fun points => 2 ≤ points.length).map normalized).mergeSort fun a b =>
    (compare a b).isLE

end Joint

namespace Survey

/-- Notes a road point under its cell. -/
def place (bits : Nat) (feature : FeatureId) (survey : Survey) (p : Point Coordinate × Nat) :
    Survey :=
  let cell := Cell.ofPoint bits p.1
  { survey with
    cells := survey.cells.insert cell (survey.cells.getD cell [] ++ [⟨feature, UInt32.ofNat p.2⟩]) }

/-- Takes in one more feature; one that nobody may use is passed over. -/
def add (maskOf : Feature → Mask) (bits : Nat) (survey : Survey) (f : Feature) : Survey :=
  let mask := maskOf f
  if mask.isEmpty then survey
  else
    f.points.zipIdx.foldl (place bits f.id) { survey with masks := survey.masks.insert f.id mask }

/-- The survey of a list of features. -/
def ofFeatures (maskOf : Feature → Mask) (bits : Nat) (features : List Feature) : Survey :=
  features.foldl (add maskOf bits) {}

/-- The joints of all places that two or more road points share. -/
def joints (survey : Survey) : List Joint := Joint.ofClusters survey.cells.values

end Survey

end Crossroads

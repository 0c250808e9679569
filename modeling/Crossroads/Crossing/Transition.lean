import Crossroads.Crossing.Connector
import Crossroads.Vehicle.Atlas

/-!
# Transitions

A transition is a segment whose two ends lie on different sides of the border.
`Transition.ofFeature` finds those of one feature, `Transition.ofFeatures` those of a list of
features in order, and `Transition.connectors` registers them with the connector of every vehicle
that may use the road.

A `Detection` does both in one pass: it registers a transition with all vehicles before it looks for
the next one.
-/

namespace Crossroads

/-- A segment whose ends lie on different sides of the border. -/
structure Transition where
  feature : FeatureId
  index : UInt32
  roadMask : Mask
  oneWayMask : Mask
  /-- Going forward enters the region. -/
  inward : Bool
  back : Point Coordinate
  front : Point Coordinate

namespace Transition

/-- The gate that a transition is for a vehicle. -/
def gate (t : Transition) (v : Vehicle) : Gate :=
  ⟨t.oneWayMask.contains v, t.inward, t.back, t.front⟩

/-- Registers a transition for a vehicle that may use the road. -/
def register (v : Vehicle) (c : Connector) (t : Transition) : Connector :=
  if t.roadMask.contains v then c.addGate t.feature t.index (t.gate v) else c

/-- The connector of a vehicle for a list of transitions. -/
def connector (transitions : List Transition) (v : Vehicle) : Connector :=
  transitions.foldl (register v) {}

/-- The connectors of all vehicles for a list of transitions. -/
def connectors (transitions : List Transition) : Connectors := .ofFn (connector transitions)

/-- The transitions along a line of points, from point number `i` on; `inside` tells the two sides of
the border apart.  Each point is compared with the side that was last come to, `before`, which is
the side of the point before it. -/
def along (inside : Point Coordinate → Bool) (id : FeatureId) (roadMask oneWayMask : Mask) :
    Bool → Nat → List (Point Coordinate) → List Transition
  | before, i, back :: front :: rest =>
    let now := inside front
    if now == before then along inside id roadMask oneWayMask before (i + 1) (front :: rest)
    else
      ⟨id, UInt32.ofNat i, roadMask, oneWayMask, now, back, front⟩
        :: along inside id roadMask oneWayMask now (i + 1) (front :: rest)
  | _, _, _ => []

/-- The transitions of one feature. -/
def ofFeature (inside : Point Coordinate → Bool) (rules : Rules) (f : Feature) : List Transition :=
  let mask := rules.roadMask f
  if mask.isEmpty then []
  else
    match f.points.head? with
    | none => []
    | some first => along inside f.id mask (rules.oneWayMask f) (inside first) 0 f.points

/-- The transitions of a list of features, in order. -/
def ofFeatures (inside : Point Coordinate → Bool) (rules : Rules) (features : List Feature) :
    List Transition :=
  features.flatMap (ofFeature inside rules)

end Transition

/-- The transitions found so far, and the connectors that they are registered with. -/
structure Detection where
  transitions : List Transition := []
  connectors : Connectors := .ofFn fun _ => {}

namespace Detection

/-- Records a transition with one vehicle after another. -/
def record (d : Detection) (t : Transition) : Detection where
  transitions := d.transitions ++ [t]
  connectors := Vehicle.all.foldl (fun all v => all.modify v (Transition.register v · t)) d.connectors

/-- Records the transitions of one more feature. -/
def add (inside : Point Coordinate → Bool) (rules : Rules) (d : Detection) (f : Feature) :
    Detection :=
  (Transition.ofFeature inside rules f).foldl record d

/-- What is detected in a list of features. -/
def ofFeatures (inside : Point Coordinate → Bool) (rules : Rules) (features : List Feature) :
    Detection :=
  features.foldl (add inside rules) {}

end Detection

end Crossroads

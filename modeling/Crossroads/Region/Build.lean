import Crossroads.Border.Poly
import Crossroads.Crossing.Leap
import Crossroads.Disk
import Crossroads.Feature.Record
import Crossroads.Region.CrossingSection
import Crossroads.Region.Settings

/-!
# Building regions

A region is built in three steps, each on the container in a file: `Build.init` creates it with a
header, `Build.routing` adds the routing section, and `Build.crossing` adds the crossing section,
which needs the other two.  A step that fails leaves the disk as it was.
-/

namespace Crossroads

/-- A computation on a disk that can fail. -/
abbrev OnDisk := ExceptT Fault (StateM Disk)

namespace OnDisk

/-- Opens the container in a file. -/
def openContainer (path : String) : OnDisk Container := do
  let file ← ((← get).read path).mapError Fault.io
  Container.ofBytes path file

/-- Puts the outcome of a write to a container on the disk. -/
def save {α : Type} (outcome : Except Fault α × Container) : OnDisk α := do
  set (← ((← get).write outcome.2.path outcome.2.file).mapError Fault.io)
  outcome.1

end OnDisk

namespace Build

/-! ## Creating a region -/

/-- The least box that holds all points: its lowest and its highest corner. -/
def boundingBox (points : List (Point Coordinate)) : Point Coordinate × Point Coordinate :=
  let infinity : Coordinate := 1.0 / 0.0
  points.foldl
    (fun (low, high) p =>
      (⟨low.x.lesser p.x, low.y.lesser p.y⟩, ⟨high.x.greater p.x, high.y.greater p.y⟩))
    (⟨infinity, infinity⟩, ⟨0.0 - infinity, 0.0 - infinity⟩)

/-- The middle of the points of all features; the origin if there are none. -/
def center (features : List Feature) : Point Coordinate :=
  let (low, high) := boundingBox (features.flatMap Feature.points)
  if low.x > high.x then ⟨0.0, 0.0⟩
  else ⟨(low.x + high.x) / 2.0, (low.y + high.y) / 2.0⟩

/-- Creates a region that holds nothing but the coding of its points; the base point is the middle
of the features, if there are any. -/
def init (path : String) (features : Option Stream) (settings : Settings) : OnDisk Coding := do
  settings.check.mapError Fault.invalid
  let base ← match features with
    | some stream => pure (center (← stream.all))
    | none => pure ⟨0.0, 0.0⟩
  let coding ← (Coding.ofPoint settings.bits base).mapError Fault.invalid
  let _ ← OnDisk.save (coding.write (Container.create path))
  return coding

/-! ## The routing section -/

/-- What is told about a routing section. -/
structure RoutingSummary where
  size : Nat
  roads : Nat
  joints : Nat
  points : Nat
deriving DecidableEq, Repr

/-- The precision of a region; that of the settings if it has no header. -/
def precision (container : Container) (settings : Settings) : Except Fault UInt8 :=
  match Coding.load container with
  | .ok coding => .ok coding.bits
  | .error (.sectionMissing _) => .ok settings.bits
  | .error fault => .error fault

/-- The routing section of a list of features. -/
def routingSection (rules : Rules) (bits : Nat) (features : List Feature) : RoutingSection :=
  let survey := Survey.ofFeatures rules.roadMask bits features
  ⟨survey.masks, survey.joints⟩

/-- Builds the routing section of a region. -/
def routing (path country : String) (features : Stream) (atlas : Atlas) (settings : Settings) :
    OnDisk RoutingSummary := do
  let container ← OnDisk.openContainer path
  let bits ← precision container settings
  let rules ← atlas.rules country
  let body := routingSection rules bits.toNat (← features.all)
  let network := ({} : Network).withJoints body.joints
  let size ← OnDisk.save (body.write container)
  return ⟨size, network.roadCount, network.jointCount, network.pointCount⟩

/-! ## The crossing section -/

/-- What is told about a crossing section. -/
structure CrossingSummary where
  size : Nat
  transitions : Nat
  carEnters : Nat
  carExits : Nat
deriving DecidableEq, Repr

/-- The borders in a file. -/
def borders (disk : Disk) (path : String) : Except Complaint Borders :=
  match disk.readText path with
  | .error failure => .error (.unreadableBorders path failure)
  | .ok text => (Borders.parse text.toList).mapError fun c => .inBorders path (.inFile path c)

/-- The network of cars for a list of features and the joints of a routing section. -/
def carNetwork (car : Model) (features : List Feature) (joints : List Joint) : Network :=
  ({ map := RoadMap.ofFeatures car features, pace := ⟨car.maxSpeed⟩ } : Network).withJoints joints

/-- The crossing section of what is detected at a border, with the leaps of cars in a network. -/
def crossingSection (workers : Workers) (threads : Option Nat) (coding : Coding)
    (detected : Detection) (network : Network) : Except Fault CrossingSection := do
  let car ← detected.connectors.car.fillLeaps network workers threads
  return ⟨coding, detected.transitions, { detected.connectors with car := car }⟩

/-- Builds the crossing section of a region in two passes over its features, which need not give the
same: transitions are found in the first one, and the network is built in the second one.  Leaps are
computed for cars only. -/
def crossingInPasses (workers : Workers) (dataDir path country : String) (first second : Stream)
    (atlas : Atlas) (settings : Settings) : OnDisk CrossingSummary := do
  let borders ←
    (borders (← get) (settings.bordersPath dataDir country)).mapError Fault.invalid
  let models ← atlas.models country
  let detected := Detection.ofFeatures borders.contains (.ofModels models) (← first.all)
  let container ← OnDisk.openContainer path
  let coding ← Coding.load container
  let features ← second.all
  let joints := (← RoutingSection.load container).joints
  let network := carNetwork models.car features joints
  let body ← crossingSection workers settings.leapThreads coding detected network
  let size ← OnDisk.save (body.write container)
  let car := body.connectors.car
  return ⟨size, body.transitions.length, car.enters.length, car.exits.length⟩

/-- Builds the crossing section of a region. -/
def crossing (workers : Workers) (dataDir path country : String) (features : Stream)
    (atlas : Atlas) (settings : Settings) : OnDisk CrossingSummary :=
  crossingInPasses workers dataDir path country features features atlas settings

/-! ## Success or failure -/

/-- Whether a step succeeded, and the disk after it. -/
def succeeds {α : Type} (step : OnDisk α) : StateM Disk Bool := do
  return (← ExceptT.run step).isOk

end Build

end Crossroads

import Crossroads.Feature

/-!
# Vehicle models

A model reads from a feature's tags whether a vehicle may use it, in which direction and how fast.
The three built-in models are those of pedestrians, bicycles and cars.
-/

namespace Crossroads

/-- What a vehicle makes of features. -/
structure Model where
  isRoad : Feature → Bool
  isOneWay : Feature → Bool
  /-- The speed on a feature in km/h, 0 where the vehicle may not go. -/
  speed : Feature → Float
  /-- The greatest speed in km/h. -/
  maxSpeed : Float

namespace Model

/-! ## Tags -/

/-- The tag denies access. -/
def denies (value : Option String) : Bool := value == some "no" || value == some "private"

/-- The tag says yes. -/
def affirms (value : Option String) : Bool :=
  value == some "yes" || value == some "1" || value == some "true"

/-- The feature is a roundabout. -/
def isRoundabout (f : Feature) : Bool := f.tag "junction" == some "roundabout"

/-- The model of a vehicle that goes where `speed?` gives a speed. -/
def ofSpeed (speed? : Feature → Option Float) (isOneWay : Feature → Bool) (maxSpeed : Float) :
    Model where
  isRoad f := (speed? f).isSome
  isOneWay := isOneWay
  speed f := (speed? f).getD 0.0
  maxSpeed := maxSpeed

/-! ## Pedestrians -/

/-- The walking speed on a class of road. -/
def walkingSpeed? : String → Option Float
  | "footway" | "pedestrian" | "steps" => some 5.0
  | "path" | "cycleway" => some 4.5
  | "residential" | "living_street" | "unclassified" => some 5.0
  | "tertiary" | "secondary" | "primary" => some 4.5
  | "tertiary_link" | "secondary_link" | "primary_link" => some 4.5
  | "service" => some 4.5
  | "track" => some 4.0
  | _ => none

/-- Pedestrians heed no one-way signs. -/
def pedestrian : Model :=
  ofSpeed
    (fun f => do
      let speed ← walkingSpeed? (← f.tag "highway")
      if denies (f.tag "foot") then none else some speed)
    (fun _ => false) 5.0

/-! ## Bicycles -/

/-- The cycling speed on a class of road; footways count only where bicycles are signed. -/
def cyclingSpeed? (bicycle : Option String) : String → Option Float
  | "cycleway" => some 18.0
  | "primary" | "primary_link" | "secondary" | "secondary_link" => some 16.0
  | "tertiary" | "tertiary_link" | "unclassified" | "residential" => some 16.0
  | "living_street" | "service" => some 12.0
  | "path" | "track" => some 12.0
  | "footway" | "pedestrian" =>
    if affirms bicycle || bicycle == some "designated" then some 8.0 else none
  | _ => none

/-- Bicycles heed one-way signs unless these except them. -/
def bicycle : Model :=
  ofSpeed
    (fun f => do
      let signed := f.tag "bicycle"
      let speed ← cyclingSpeed? signed (← f.tag "highway")
      if denies signed || (denies (f.tag "access") && !affirms signed) then none else some speed)
    (fun f =>
      !(f.tag "oneway:bicycle" == some "no") && (affirms (f.tag "oneway") || isRoundabout f))
    20.0

/-! ## Cars -/

/-- The driving speed on a class of road. -/
def drivingSpeed? : String → Option Float
  | "motorway" => some 110.0
  | "motorway_link" => some 60.0
  | "trunk" => some 90.0
  | "trunk_link" => some 50.0
  | "primary" => some 70.0
  | "primary_link" => some 40.0
  | "secondary" => some 60.0
  | "secondary_link" => some 40.0
  | "tertiary" => some 50.0
  | "tertiary_link" => some 30.0
  | "unclassified" => some 50.0
  | "residential" => some 30.0
  | "service" => some 20.0
  | "living_street" => some 10.0
  | _ => none

/-- Cars never go faster than `maxSpeed`.  Motorways are one-way unless tagged otherwise. -/
def carUpTo (maxSpeed : Float) : Model :=
  ofSpeed
    (fun f => do
      let speed ← drivingSpeed? (← f.tag "highway")
      if denies (f.tag "motor_vehicle") || denies (f.tag "vehicle") || denies (f.tag "access") then
        none
      else some (Double.lesser speed maxSpeed))
    (fun f =>
      affirms (f.tag "oneway") || isRoundabout f
        || ((f.tag "highway" == some "motorway" || f.tag "highway" == some "motorway_link")
          && !(f.tag "oneway" == some "no")))
    maxSpeed

/-- Cars up to 110 km/h. -/
def car : Model := carUpTo 110.0

/-- The built-in models. -/
def builtin : PerVehicle Model := ⟨pedestrian, bicycle, car⟩

end Model

end Crossroads

import Crossroads.Spelling
import Crossroads.Vehicle.Model

/-!
# Models by country

An `Atlas` lists the vehicle models of countries, with models for all other countries if it has a
fallback.  `Rules` are what features are classified by; they need the models of all three vehicles,
and `Atlas.rules` fails with a suggestion when the country is not listed.
-/

namespace Crossroads

/-- The vehicle models of countries. -/
structure Atlas where
  countries : Std.TreeMap String (PerVehicle Model) := {}
  fallback : Option (PerVehicle Model) := none
  /-- How names of countries are compared. -/
  likeness : Text.Likeness := .standard

namespace Atlas

/-- The atlas that knows no country. -/
def empty : Atlas := {}

/-- The built-in models for every country. -/
def worldwide : Atlas := { fallback := some Model.builtin }

/-- Lists the models of one more country. -/
def register (a : Atlas) (country : String) (models : PerVehicle Model) : Atlas :=
  { a with countries := a.countries.insert country models }

/-- The models of a country. -/
def models? (a : Atlas) (country : String) : Option (PerVehicle Model) :=
  a.countries[country]? <|> a.fallback

/-- The countries listed, in alphabetical order. -/
def known (a : Atlas) : List String := a.countries.keys

/-- The model of a vehicle in a country, or a fault that suggests a listed name. -/
def model (a : Atlas) (country : String) (v : Vehicle) : Except Fault Model :=
  match a.models? country with
  | some models => .ok (models.get v)
  | none => .error (.modelUnavailable country v.name (Spelling.suggest a.likeness country a.known))

end Atlas

/-- What features are classified by: who may use one, and for whom it is one-way. -/
structure Rules where
  roadMask : Feature → Mask
  oneWayMask : Feature → Mask

namespace Rules

/-- The rules of three vehicle models. -/
def ofModels (models : PerVehicle Model) : Rules where
  roadMask f := Mask.ofPred fun v => (models.get v).isRoad f
  oneWayMask f := Mask.ofPred fun v => (models.get v).isOneWay f

end Rules

/-- The three models of a country; the first that is missing is the fault. -/
def Atlas.models (a : Atlas) (country : String) : Except Fault (PerVehicle Model) := do
  let pedestrian ← a.model country .pedestrian
  let bicycle ← a.model country .bicycle
  let car ← a.model country .car
  return ⟨pedestrian, bicycle, car⟩

/-- The rules of a country. -/
def Atlas.rules (a : Atlas) (country : String) : Except Fault Rules :=
  (a.models country).map Rules.ofModels

end Crossroads

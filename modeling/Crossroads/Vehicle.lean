/-!
# Vehicles

The three vehicle types and sets of them.  A road carries two such sets (`Mask`): who may use it,
and for whom it is one-way.
-/

namespace Crossroads

/-- A vehicle type. -/
inductive Vehicle
  | pedestrian
  | bicycle
  | car
deriving DecidableEq, Repr

namespace Vehicle

/-- All vehicle types, in their order. -/
def all : List Vehicle := [pedestrian, bicycle, car]

/-- The place of a vehicle type in that order. -/
def index : Vehicle → Nat
  | pedestrian => 0
  | bicycle => 1
  | car => 2

/-- The name of a vehicle type. -/
def name : Vehicle → String
  | pedestrian => "pedestrian"
  | bicycle => "bicycle"
  | car => "car"

end Vehicle

/-- One value for each vehicle type. -/
structure PerVehicle (α : Type) where
  pedestrian : α
  bicycle : α
  car : α
deriving DecidableEq, Repr

namespace PerVehicle

variable {α β : Type}

/-- The value for a vehicle type. -/
def get (p : PerVehicle α) : Vehicle → α
  | .pedestrian => p.pedestrian
  | .bicycle => p.bicycle
  | .car => p.car

/-- The values that a function gives. -/
def ofFn (f : Vehicle → α) : PerVehicle α := ⟨f .pedestrian, f .bicycle, f .car⟩

/-- Replaces the value for one vehicle type. -/
def set (p : PerVehicle α) (v : Vehicle) (a : α) : PerVehicle α :=
  match v with
  | .pedestrian => { p with pedestrian := a }
  | .bicycle => { p with bicycle := a }
  | .car => { p with car := a }

/-- Changes the value for one vehicle type. -/
def modify (p : PerVehicle α) (v : Vehicle) (f : α → α) : PerVehicle α := p.set v (f (p.get v))

/-- The values in the order of the vehicle types. -/
def toList (p : PerVehicle α) : List α := Vehicle.all.map p.get

@[simp]
theorem get_ofFn (f : Vehicle → α) (v : Vehicle) : (ofFn f).get v = f v := by cases v <;> rfl

@[simp]
theorem get_set (p : PerVehicle α) (v w : Vehicle) (a : α) :
    (p.set v a).get w = if w = v then a else p.get w := by
  cases v <;> cases w <;> rfl

end PerVehicle

/-- A set of vehicle types. -/
structure Mask where
  pedestrian : Bool
  bicycle : Bool
  car : Bool
deriving DecidableEq, Repr

namespace Mask

/-- No vehicle type. -/
def none : Mask := ⟨false, false, false⟩

/-- Every vehicle type. -/
def all : Mask := ⟨true, true, true⟩

/-- The vehicle type belongs to the set. -/
def contains (m : Mask) : Vehicle → Bool
  | .pedestrian => m.pedestrian
  | .bicycle => m.bicycle
  | .car => m.car

/-- The vehicle types with a property. -/
def ofPred (p : Vehicle → Bool) : Mask := ⟨p .pedestrian, p .bicycle, p .car⟩

/-- The set of one vehicle type. -/
def single (v : Vehicle) : Mask := ofPred (· == v)

/-- The vehicle types of either set. -/
def union (a b : Mask) : Mask := ofPred fun v => a.contains v || b.contains v

/-- The vehicle types of both sets. -/
def inter (a b : Mask) : Mask := ofPred fun v => a.contains v && b.contains v

/-- The set has no member. -/
def isEmpty (m : Mask) : Bool := m == none

/-- The sets have a member in common. -/
def intersects (a b : Mask) : Bool := !(a.inter b).isEmpty

/-- The set as a number: one bit for each vehicle type, lowest first. -/
def bits (m : Mask) : UInt8 :=
  (if m.pedestrian then 1 else 0) + (if m.bicycle then 2 else 0) + (if m.car then 4 else 0)

/-- The set that a number stands for; other bits than the three lowest stand for nothing. -/
def ofBits? (bits : UInt8) : Option Mask :=
  if bits < 8 then some ⟨bits &&& 1 != 0, bits &&& 2 != 0, bits &&& 4 != 0⟩ else .none

/-- The names of the members with bars between them. -/
def text (m : Mask) : String :=
  let names := (Vehicle.all.filter m.contains).map Vehicle.name
  if names.isEmpty then "none" else "|".intercalate names

@[simp]
theorem contains_ofPred (p : Vehicle → Bool) (v : Vehicle) : (ofPred p).contains v = p v := by
  cases v <;> rfl

/-- A set with a member is not empty. -/
theorem isEmpty_of_contains {m : Mask} {v : Vehicle} (h : m.contains v = true) :
    m.isEmpty = false := by
  rw [isEmpty, beq_eq_false_iff_ne]
  rintro rfl
  cases v <;> cases h

/-- Numbers stand for the sets that they were made from. -/
@[simp]
theorem ofBits?_bits (m : Mask) : ofBits? m.bits = some m := by
  obtain ⟨p, b, c⟩ := m
  cases p <;> cases b <;> cases c <;> decide

end Mask

end Crossroads

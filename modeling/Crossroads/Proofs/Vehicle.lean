import Crossroads.Vehicle.Model

/-!
# Roads with a speed

Where a built-in model lets a vehicle go, it gives a speed; for cars that takes a limit above zero.
-/

namespace Crossroads

namespace Model

/-- If there is any speed to go at, the vehicle has one on each of its roads. -/
def Paced (model : Model) : Prop :=
  model.maxSpeed > 0.0 → ∀ f, model.isRoad f = true → model.speed f > 0.0

theorem paced_ofSpeed {speed? : Feature → Option Float} {maxSpeed : Float}
    (isOneWay : Feature → Bool)
    (h : maxSpeed > 0.0 → ∀ f speed, speed? f = some speed → speed > 0.0) :
    (ofSpeed speed? isOneWay maxSpeed).Paced := by
  intro hmax f hroad
  obtain ⟨speed, hspeed⟩ := Option.isSome_iff_exists.mp hroad
  show (speed? f).getD 0.0 > 0.0
  rw [hspeed]
  exact h hmax f speed hspeed

theorem drivingSpeed?_pos {highway : String} {speed : Float}
    (h : drivingSpeed? highway = some speed) : speed > 0.0 := by
  unfold drivingSpeed? at h
  split at h
  all_goals
    cases h
  all_goals
    decide

theorem cyclingSpeed?_pos {bicycle : Option String} {highway : String} {speed : Float}
    (h : cyclingSpeed? bicycle highway = some speed) : speed > 0.0 := by
  unfold cyclingSpeed? at h
  split at h
  any_goals
    split at h
  all_goals
    cases h
  all_goals
    decide

theorem walkingSpeed?_pos {highway : String} {speed : Float}
    (h : walkingSpeed? highway = some speed) : speed > 0.0 := by
  unfold walkingSpeed? at h
  split at h
  all_goals
    cases h
  all_goals
    decide

theorem lesser_pos {a b : Float} (ha : a > 0.0) (hb : b > 0.0) : Double.lesser a b > 0.0 := by
  rw [Double.lesser]
  split
  · exact hb
  · exact ha

/-- Cars have a speed on each of their roads, whatever their limit is, as long as there is one. -/
theorem paced_carUpTo (limit : Float) : (carUpTo limit).Paced := by
  apply paced_ofSpeed
  intro hlimit f speed h
  obtain ⟨highway, -, h⟩ := Option.bind_eq_some_iff.mp h
  obtain ⟨base, hbase, h⟩ := Option.bind_eq_some_iff.mp h
  split at h
  · cases h
  · rw [← Option.some.inj h]
    exact lesser_pos (drivingSpeed?_pos hbase) hlimit

theorem paced_bicycle : bicycle.Paced := by
  apply paced_ofSpeed
  intro _ f speed h
  obtain ⟨highway, -, h⟩ := Option.bind_eq_some_iff.mp h
  obtain ⟨base, hbase, h⟩ := Option.bind_eq_some_iff.mp h
  split at h
  · cases h
  · rw [← Option.some.inj h]
    exact cyclingSpeed?_pos hbase

theorem paced_pedestrian : pedestrian.Paced := by
  apply paced_ofSpeed
  intro _ f speed h
  obtain ⟨highway, -, h⟩ := Option.bind_eq_some_iff.mp h
  obtain ⟨base, hbase, h⟩ := Option.bind_eq_some_iff.mp h
  split at h
  · cases h
  · rw [← Option.some.inj h]
    exact walkingSpeed?_pos hbase

/-- All built-in models are such. -/
theorem paced_builtin (v : Vehicle) : (builtin.get v).Paced := by
  cases v with
  | pedestrian => exact paced_pedestrian
  | bicycle => exact paced_bicycle
  | car => exact paced_carUpTo 110.0

end Model

end Crossroads

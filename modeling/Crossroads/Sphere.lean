import Crossroads.Coordinate
import Crossroads.Point

/-!
# Distances on the earth

The great-circle distance between two places, on a sphere of the earth's mean radius.
-/

namespace Crossroads.Sphere

/-- The radius of the sphere in meters. -/
def radius : Float := 6371008.8

/-- The ratio of a circle's circumference to its diameter, as near as a number can be. -/
def pi : Float := 3.141592653589793

/-- Degrees as an angle in radians. -/
def radians (degrees : Float) : Float := degrees * (pi / 180.0)

/-- The distance between two places in meters. -/
def distance (a b : Point Coordinate) : Float :=
  let sinLat := (radians (b.y - a.y).toFloat / 2.0).sin
  let sinLon := (radians (b.x - a.x).toFloat / 2.0).sin
  let cosLats := (radians a.y.toFloat).cos * (radians b.y.toFloat).cos
  let h := sinLat * sinLat + cosLats * (sinLon * sinLon)
  radius * (2.0 * Float.atan2 h.sqrt (1.0 - h).sqrt)

end Crossroads.Sphere

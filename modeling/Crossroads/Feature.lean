import Std.Data.TreeMap
import Crossroads.Coordinate
import Crossroads.Fault
import Crossroads.Point

/-!
# Features

A feature is a line of points with tags.  A `Stream` is what one pass over a region's features
brings: the features delivered, and how the pass ended.  A pass can fail after it has delivered
some.
-/

namespace Crossroads

/-- The number of a feature in its region. -/
abbrev FeatureId := UInt32

/-- A line of points with tags. -/
structure Feature where
  id : FeatureId
  points : List (Point Coordinate)
  tags : Std.TreeMap String String := {}

namespace Feature

/-- The value of a tag. -/
def tag (f : Feature) (key : String) : Option String := f.tags[key]?

end Feature

/-- What one pass over a region's features brings. -/
structure Stream where
  /-- The features delivered before the end, in order. -/
  features : List Feature
  ending : Except Fault Unit := .ok ()

namespace Stream

/-- The stream of a list. -/
def ofList (features : List Feature) : Stream := ⟨features, .ok ()⟩

/-- All features, if the pass came to its end. -/
def all (s : Stream) : Except Fault (List Feature) := s.ending.map fun _ => s.features

end Stream

end Crossroads

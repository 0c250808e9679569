/-!
# Paths

A path is a text whose parts are separated by slashes; one that starts with a slash is absolute.
-/

namespace Crossroads.Path

/-- The path of `path` as seen from `base`: itself if it is absolute. -/
def join (base path : String) : String :=
  if path.startsWith "/" then path
  else if base.isEmpty || base.endsWith "/" then base ++ path
  else base ++ "/" ++ path

end Crossroads.Path

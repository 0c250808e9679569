import Crossroads.Bytes
import Crossroads.Feature
import Crossroads.Text.Blank
import Crossroads.Text.Json

/-!
# Feature records

A feature file holds one JSON record on each line.  A record names its fields or lists them in
order; `Stream.ofBytes` delivers the features up to the first line that is no text or no record.
-/

namespace Crossroads

namespace Feature

open Json (Value)

/-- The number that a value spells. -/
def readNumber? : Value → Option Coordinate
  | .number n => n.toFloat?.map .ofFloat
  | _ => none

/-- The text that a value spells. -/
def readText? : Value → Option String
  | .string text => text
  | _ => none

/-- The value of the one field with this name; nothing if there are two. -/
def field? (key : String) (fields : List (Option String × Value)) : Option Value :=
  match fields.filter fun f => f.1 == some key with
  | [(_, value)] => some value
  | _ => none

/-- All names are texts. -/
def namesRead (fields : List (Option String × Value)) : Bool := fields.all fun f => f.1.isSome

/-- A point, by names or in order. -/
def readPoint? : Value → Option (Point Coordinate)
  | .object fields => do
    if !namesRead fields then none
    else some ⟨← readNumber? (← field? "x" fields), ← readNumber? (← field? "y" fields)⟩
  | .array [x, y] => do some ⟨← readNumber? x, ← readNumber? y⟩
  | _ => none

/-- A list of points. -/
def readPoints? : Value → Option (List (Point Coordinate))
  | .array items => items.mapM readPoint?
  | _ => none

/-- Tags; of two with the same key the later one counts. -/
def readTags? : Value → Option (Std.TreeMap String String)
  | .object fields =>
    fields.foldlM (fun tags f => do some (tags.insert (← f.1) (← readText? f.2))) {}
  | _ => none

/-- The number of a feature. -/
def readId? : Value → Option FeatureId
  | .number n => n.toWord?
  | _ => none

/-- A feature, by names or in order; other names are passed over. -/
def ofValue? : Value → Option Feature
  | .object fields => do
    if !namesRead fields then none
    else
      let tags ←
        if fields.any fun f => f.1 == some "tags" then readTags? (← field? "tags" fields)
        else some {}
      some ⟨← readId? (← field? "id" fields), ← readPoints? (← field? "points" fields), tags⟩
  | .array [id, points] => do some ⟨← readId? id, ← readPoints? points, {}⟩
  | .array [id, points, tags] => do some ⟨← readId? id, ← readPoints? points, ← readTags? tags⟩
  | _ => none

/-- The feature that a line records. -/
def ofRecord? (line : List Char) : Option Feature := do ofValue? (← Json.read? line)

end Feature

namespace Stream

/-- Delivers the features of the lines from number `n` on; blank lines are passed over. -/
def ofLines (path : String) (n : Nat) : List Bytes → Stream
  | [] => ofList []
  | line :: rest =>
    match Bytes.toText? line with
    | none => ⟨[], .error (.io .notText)⟩
    | some text =>
      let text := text.toList
      if text.all Text.isBlank then ofLines path (n + 1) rest
      else
        match Feature.ofRecord? text with
        | none => ⟨[], .error (.invalid (.badRecord path n))⟩
        | some feature =>
          let later := ofLines path (n + 1) rest
          ⟨feature :: later.features, later.ending⟩

/-- The stream of a feature file. -/
def ofBytes (path : String) (bytes : Bytes) : Stream := ofLines path 1 (Text.lines 10 13 bytes)

end Stream

end Crossroads

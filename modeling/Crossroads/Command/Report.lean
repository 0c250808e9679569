import Crossroads.Overlay.Junction
import Crossroads.Region.CrossingSection

/-!
# Reports on containers

The list of a container's sections, as lines or as JSON, and what its sections hold.
-/

namespace Crossroads.Command.Report

open Text (hex padEnd padStart)

/-! ## Sections as JSON -/

/-- A character inside a JSON string. -/
def quoteChar (c : Char) : String :=
  match c with
  | '"' => "\\\""
  | '\\' => "\\\\"
  | '\x08' => "\\b"
  | '\x0c' => "\\f"
  | '\n' => "\\n"
  | '\r' => "\\r"
  | '\t' => "\\t"
  | c => if c.toNat < 0x20 then "\\u" ++ hex 4 c.toNat else String.singleton c

/-- A JSON string. -/
def quote (text : String) : String := "\"" ++ String.join (text.toList.map quoteChar) ++ "\""

/-- A section as a JSON object. -/
def entryObject (e : Entry) : String :=
  "  \x7b\n    \"name\": " ++ quote e.name ++ ",\n    \"offset\": " ++ toString e.offset
    ++ ",\n    \"size\": " ++ toString e.size ++ ",\n    \"crc64\": "
    ++ quote (hex 16 e.checksum.toNat) ++ "\n  \x7d"

/-- The sections as a JSON array. -/
def entriesArray (entries : List Entry) : String :=
  if entries.isEmpty then "[]\n"
  else "[\n" ++ ",\n".intercalate (entries.map entryObject) ++ "\n]\n"

/-! ## Sections as lines -/

/-- A section as a line. -/
def entryLine (e : Entry) : String :=
  "  " ++ padEnd 10 e.name ++ " offset " ++ padStart 10 (toString e.offset) ++ "  size "
    ++ padStart 10 (toString e.size) ++ "  crc64 " ++ hex 16 e.checksum.toNat ++ "\n"

/-- The container's path and its sections. -/
def listing (c : Container) : String := c.path ++ "\n" ++ String.join (c.entries.map entryLine)

/-! ## What sections hold -/

/-- The coding of points. -/
def coding (c : Coding) : String :=
  s!"  coding: {c.bits} bits, base {c.basePoint.text}\n"

/-- The counts of a routing section. -/
def routing (s : RoutingSection) : String :=
  s!"  routing: {s.masks.size} masks, {s.joints.length} joints, {s.pointCount} points\n"

/-- The counts of a connector. -/
def connector (v : Vehicle) (c : Connector) : String :=
  "    " ++ padEnd 10 v.name ++ " enters " ++ padStart 6 (toString c.enters.length) ++ "  exits "
    ++ padStart 6 (toString c.exits.length) ++ "  weights "
    ++ (if c.hasWeights then "yes" else "no") ++ "\n"

/-- The counts of a crossing section. -/
def crossing (s : CrossingSection) : String :=
  s!"  cross_mwm: {s.transitions.length} transitions\n"
    ++ String.join (Vehicle.all.map fun v => connector v (s.connectors.get v))

/-- The report on one section, if the container has it. -/
def part {α : Type} (c : Container) (name : String) (load : Container → Except Fault α)
    (report : α → String) : Except Fault String :=
  if c.has name then (load c).map report else .ok ""

/-- The reports on what the sections hold, one after another. -/
def parts (c : Container) : List (Except Fault String) :=
  [part c Coding.sectionName Coding.load coding,
    part c RoutingSection.sectionName RoutingSection.load routing,
    part c CrossingSection.sectionName CrossingSection.load crossing]

end Crossroads.Command.Report

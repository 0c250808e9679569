import Crossroads.Text.Column
import Crossroads.Vehicle

/-!
# What can go wrong

Faults name causes; their wording stands here and nowhere else.  `Damage` is what is wrong with
stored data, `Complaint` what is wrong with what a user supplied, `IoFailure` what the file system
refuses, and a `Fault` is any of them, or a missing model or section.
-/

namespace Crossroads

open Text (hex)

/-- What is wrong with stored data. -/
inductive Damage
  /-- The bytes end inside a value. -/
  | truncated (what : String)
  | badFlag (what : String) (byte : Nat)
  | endlessNumber (what : String)
  | beyondWord (what : String) (value : Nat)
  | countBeyondData (what : String) (count left : Nat)
  | trailing (what : String) (count : Nat)
  | shortFrame (what : String) (size : Nat)
  | wrongMagic (what : String) (found expected : Nat)
  | wrongVersion (what : String) (found expected : Nat)
  | wrongChecksum (what : String) (stored actual : Nat)
  | offGrid (value : Int) (bits : Nat)
  | badPrecision (bits : Nat)
  | repeatedFeature
  | featureBeyondWord
  | badMask (what : String) (bits : Nat)
  | connectorMismatch (vehicle : Vehicle)
  | tableMismatch (vehicle : Vehicle)
  | weightBeyondWord (weight : Nat)
  | segmentBeyondWord
  | shortContainer (path : String) (size : Nat)
  | notContainer (path : String) (magic version : Nat)
  | badFooter (path : String)
  | nameNotText (path : String)
  | outsideData (path name : String)
  | sectionChecksum (name path : String)
  | leapTableMismatch
  /-- Damage described by whoever found it. -/
  | reported (text : String)
deriving DecidableEq, Repr

/-- The wording of a damage. -/
def Damage.message : Damage → String
  | truncated what => s!"{what}: truncated"
  | badFlag what byte => s!"{what}: bad flag byte {byte}"
  | endlessNumber what => s!"{what}: varint too long"
  | beyondWord what value => s!"{what}: value {value} overflows u32"
  | countBeyondData what count left => s!"{what}: count {count} exceeds remaining {left} bytes"
  | trailing what count => s!"{what}: {count} trailing bytes"
  | shortFrame what size => s!"{what}: {size} bytes is too short"
  | wrongMagic what found expected =>
    s!"{what}: invalid magic 0x{hex 8 found}, expected 0x{hex 8 expected}"
  | wrongVersion what found expected => s!"{what}: unsupported version {found}, expected {expected}"
  | wrongChecksum what stored actual =>
    s!"{what}: checksum mismatch (stored 0x{hex 16 stored}, computed 0x{hex 16 actual})"
  | offGrid value bits => s!"coordinate {value} outside the {bits}-bit grid"
  | badPrecision bits => s!"stored coord_bits {bits} out of range"
  | repeatedFeature => "routing section: duplicate feature id"
  | featureBeyondWord => "routing section: feature id overflow"
  | badMask what bits => s!"{what}: bad mask 0x{hex 2 bits}"
  | connectorMismatch vehicle =>
    s!"cross_mwm section: {vehicle.name} connector does not match its transitions"
  | tableMismatch vehicle =>
    s!"cross_mwm section: {vehicle.name} weight table does not match connector shape"
  | weightBeyondWord weight => s!"cross_mwm section: weight {weight} out of range"
  | segmentBeyondWord => "cross_mwm section: segment index overflow"
  | shortContainer path size => s!"{path}: {size} bytes is too short for a region container"
  | notContainer path magic version =>
    s!"{path}: not a region container (magic 0x{hex 8 magic}, version {version})"
  | badFooter path => s!"{path}: bad container footer"
  | nameNotText path => s!"{path}: section name is not UTF-8"
  | outsideData path name => s!"{path}: section '{name}' lies outside the data area"
  | sectionChecksum name path => s!"section '{name}' in {path} fails its checksum"
  | leapTableMismatch => "leap weight table does not match connector shape"
  | reported text => text

/-- What the file system refuses. -/
inductive IoFailure
  | notFound
  | notDirectory
  | isDirectory
  /-- The file ends before what was to be read. -/
  | shortRead
  | notText
  /-- A failure described by whoever met it. -/
  | reported (text : String)
deriving DecidableEq, Repr

/-- The wording of a refusal. -/
def IoFailure.message : IoFailure → String
  | notFound => "No such file or directory (os error 2)"
  | notDirectory => "Not a directory (os error 20)"
  | isDirectory => "Is a directory (os error 21)"
  | shortRead => "failed to fill whole buffer"
  | notText => "stream did not contain valid UTF-8"
  | reported text => text

/-- What is wrong with what a user supplied. -/
inductive Complaint
  | precision (bits : Nat)
  | noThreads
  /-- The workers that were asked for cannot be set up. -/
  | noWorkers (reason : String)
  | badSettings
  | unreadableSettings (path : String) (failure : IoFailure)
  /-- A complaint about the settings read from a file. -/
  | inSettings (path : String) (complaint : Complaint)
  | badRecord (path : String) (line : Nat)
  | emptyBorders
  | bordersWithoutEnd
  | badCoordinates (line : String)
  | shortRing (header : String) (count : Nat)
  | strayHole (header : String)
  /-- A complaint about the contents of a file. -/
  | inFile (path : String) (complaint : Complaint)
  | unreadableBorders (path : String) (failure : IoFailure)
  /-- A complaint about the borders read from a file. -/
  | inBorders (path : String) (complaint : Complaint)
  /-- A complaint worded by whoever makes it. -/
  | reported (text : String)
deriving DecidableEq, Repr

/-- The wording of a complaint. -/
def Complaint.message : Complaint → String
  | precision bits => s!"coord_bits must be within 1..=32, got {bits}"
  | noThreads => "leap_threads must be greater than 0"
  | noWorkers reason => s!"leap thread pool: {reason}"
  | badSettings => "failed to parse config"
  | unreadableSettings path failure => s!"failed to read config {path}: {failure.message}"
  | inSettings path complaint => s!"{path}: invalid input: {complaint.message}"
  | badRecord path line => s!"{path}:{line}: bad feature record"
  | emptyBorders => "empty poly file"
  | bordersWithoutEnd => "missing final END"
  | badCoordinates line => s!"bad coordinate line '{line}'"
  | shortRing header count => s!"ring '{header}' has {count} points, need at least 3"
  | strayHole header => s!"hole '{header}' before any outer ring"
  | inFile path complaint => s!"{path}: {complaint.message}"
  | unreadableBorders path failure => s!"borders {path}: I/O error: {failure.message}"
  | inBorders path complaint => s!"borders {path}: invalid input: {complaint.message}"
  | reported text => text

/-- Anything that can go wrong. -/
inductive Fault
  /-- No vehicle model is known for the country; perhaps another name was meant. -/
  | modelUnavailable (country vehicle : String) (suggestion : Option String)
  /-- A section could not be written. -/
  | sectionFailed (name reason : String)
  | sectionMissing (name : String)
  | corrupt (damage : Damage)
  | invalid (complaint : Complaint)
  | io (failure : IoFailure)
deriving DecidableEq, Repr

/-- The wording of a fault. -/
def Fault.message : Fault → String
  | modelUnavailable country vehicle suggestion =>
    let hint := match suggestion with
      | some name => s!" (did you mean '{name}'?)"
      | none => ""
    s!"no {vehicle} model for country '{country}'{hint}"
  | sectionFailed name reason => s!"failed to write section '{name}': {reason}"
  | sectionMissing name => s!"section '{name}' not found"
  | corrupt damage => s!"corrupt data: {damage.message}"
  | invalid complaint => s!"invalid input: {complaint.message}"
  | io failure => s!"I/O error: {failure.message}"

end Crossroads

import Crossroads.Fault
import Crossroads.Grid
import Crossroads.Path
import Crossroads.Region.Coding
import Crossroads.Text.Toml

/-!
# Settings

What can be set for the building of regions: the precision of new ones, where border files are, and
how leaps are computed.  Settings come from a flat TOML document, with defaults for what it leaves
out.
-/

namespace Crossroads

/-- What can be set. -/
structure Settings where
  /-- The precision of new regions. -/
  bits : UInt8 := 30
  /-- The directory of border files. -/
  bordersDir : String := "borders"
  /-- What follows the country in the name of a border file. -/
  bordersExtension : String := ".poly"
  /-- The number of sweeps made at once; left to the machine if not given. -/
  leapThreads : Option Nat := none
  /-- After how many sweeps progress is reported; never if zero. -/
  leapProgressInterval : Nat := 10
deriving DecidableEq, Repr

namespace Settings

/-- Takes over one setting of a document. -/
def assign? (settings : Settings) : String × Toml.Item → Option Settings
  | ("coord_bits", .integer n) =>
    if 0 ≤ n ∧ n < 256 then some { settings with bits := UInt8.ofNat n.toNat } else none
  | ("borders_dir", .text s) => some { settings with bordersDir := s }
  | ("borders_extension", .text s) => some { settings with bordersExtension := s }
  | ("leap_threads", .integer n) =>
    if 0 ≤ n then some { settings with leapThreads := some n.toNat } else none
  | ("leap_progress_interval", .integer n) =>
    if 0 ≤ n then some { settings with leapProgressInterval := n.toNat } else none
  | _ => none

/-- The settings can be worked with. -/
def check (settings : Settings) : Except Complaint Unit :=
  if !Coding.allows settings.bits.toNat then .error (.precision settings.bits.toNat)
  else if settings.leapThreads = some 0 then .error .noThreads
  else .ok ()

/-- The settings of a document. -/
def parse (text : List Char) : Except Complaint Settings :=
  match (Toml.read? text).bind fun items => items.foldlM assign? {} with
  | none => .error .badSettings
  | some settings => settings.check.map fun _ => settings

/-- The border file of a country, in a directory of data. -/
def bordersPath (settings : Settings) (dataDir country : String) : String :=
  Path.join (Path.join dataDir settings.bordersDir) (country ++ settings.bordersExtension)

end Settings

end Crossroads

import Crossroads.Command.Line
import Crossroads.Command.Report
import Crossroads.Region.Build

/-!
# Running commands

A call of the program works on a disk.  It prints a text and either succeeds or fails with a chain
of messages, from what was attempted down to what went wrong.
-/

namespace Crossroads.Command

/-- What a call prints, and the messages of its failure if it fails. -/
structure Outcome where
  printed : String := ""
  failure : Option (List String) := none
deriving DecidableEq, Repr

/-- The messages of a fault, from the outside in. -/
def chain : Fault → List String
  | .io failure => [(Fault.io failure).message, failure.message]
  | fault => [fault.message]

/-- The failure of an attempt. -/
def failed (attempt : String) (fault : Fault) : Outcome :=
  { failure := some (attempt :: chain fault) }

/-- The settings that a call works with. -/
def settings (disk : Disk) : Option String → Except Complaint Settings
  | none => .ok {}
  | some path =>
    match disk.readText path with
    | .error failure => .error (.unreadableSettings path failure)
    | .ok text => (Settings.parse text.toList).mapError (.inSettings path)

/-- The paths of the files that a call looks at besides its settings. -/
def paths (disk : Disk) (call : Call) : List String :=
  match call.task with
  | .init container features => container :: features.toList
  | .routing container _ features => [container, features]
  | .crossing container country features dataDir =>
    [container, features] ++
      ((settings disk call.config).toOption.map fun s => s.bordersPath dataDir country).toList
  | .info container => [container]

/-- The features in a file. -/
def featuresIn (disk : Disk) (path : String) : Stream :=
  match disk.read path with
  | .ok bytes => Stream.ofBytes path bytes
  | .error failure => ⟨[], .error (.io failure)⟩

/-- Prints report after report, up to the first that fails. -/
def printParts (printed : String) : List (Except Fault String) → Outcome
  | [] => { printed := printed }
  | .ok text :: rest => printParts (printed ++ text) rest
  | .error fault :: _ => { printed := printed, failure := some (chain fault) }

/-- Reports on the container in a file. -/
def info (disk : Disk) (path : String) (json : Bool) : Outcome :=
  match (disk.read path).mapError Fault.io >>= Container.ofBytes path with
  | .error fault => failed s!"Failed to open {path}" fault
  | .ok container =>
    if json then { printed := Report.entriesArray container.entries }
    else printParts (Report.listing container) (Report.parts container)

/-- Runs a step and tells no more than whether it succeeded. -/
def attempt {α : Type} (failure : String) (step : OnDisk α) : StateM Disk Outcome := do
  if ← Build.succeeds step then return {}
  else return { failure := some [failure] }

/-- Carries out a task. -/
def perform (settings : Settings) (json : Bool) : Task → StateM Disk Outcome
  | .init container features => do
    let stream := features.map (featuresIn (← get))
    match ← ExceptT.run (Build.init container stream settings) with
    | .ok _ => return {}
    | .error fault => return failed s!"Failed to create {container}" fault
  | .routing container country features => do
    attempt s!"{RoutingSection.sectionName} section failed for {country}"
      (Build.routing container country (featuresIn (← get) features) .worldwide settings)
  | .crossing container country features dataDir => do
    attempt s!"{CrossingSection.sectionName} section failed for {country}"
      (Build.crossing .single dataDir container country (featuresIn (← get) features) .worldwide settings)
  | .info container => do return info (← get) container json

/-- Carries out a call. -/
def run (call : Call) : StateM Disk Outcome := do
  match settings (← get) call.config with
  | .error complaint =>
    return failed ("Failed to load config " ++ call.config.getD "") (.invalid complaint)
  | .ok settings => perform settings call.json call.task

end Crossroads.Command

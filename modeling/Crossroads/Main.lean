import Crossroads.Command.Help
import Crossroads.Command.Run

/-!
# The program

The program observes the files that its call looks at, runs the call on them, and stores those that
the call changed.
-/

namespace Crossroads

/-- The path of a place. -/
def Place.path (place : Place) : String := "/" ++ "/".intercalate place

namespace Disk

/-- Observes what stands at a place and on the way to it. -/
def observe (disk : Disk) (place : Place) : IO Disk :=
  (List.range place.length).foldlM
    (fun disk n => do
      let step : Place := place.take (n + 1)
      try
        let bytes ← IO.FS.readBinFile step.path
        return { disk with files := disk.files.insert step bytes.toList }
      catch
        | .inappropriateType .. =>
          match disk.look step.dropLast with
          | .directory => return disk.makeDirectory step
          | _ => return disk
        | _ => return disk)
    disk

/-- Stores the files that differ from those observed. -/
def store (observed disk : Disk) : IO Unit :=
  disk.files.toList.forM fun (place, bytes) => do
    if observed.files[place]? != some bytes then
      IO.FS.writeBinFile place.path ⟨bytes.toArray⟩

end Disk

/-- Runs a call on the files of the machine. -/
def Command.execute (call : Call) : IO Outcome := do
  let here := ((← IO.currentDir).toString.splitOn "/").foldl Place.enter []
  let mut disk ← ({ here := here } : Disk).observe here
  for path in call.config do
    disk ← disk.observe (disk.place path)
  for path in Command.paths disk call do
    disk ← disk.observe (disk.place path)
  let (outcome, after) := (Command.run call).run disk
  disk.store after
  return outcome

end Crossroads

open Crossroads in
/-- Runs the program on its arguments. -/
def main (args : List String) : IO UInt32 := do
  match Command.read args with
  | .error .help =>
    IO.print Command.help
    return 0
  | .error usage =>
    IO.eprint (usage.message ++ "\n\n" ++ Command.help)
    return 2
  | .ok call =>
    let outcome ← Command.execute call
    IO.print outcome.printed
    match outcome.failure with
    | none => return 0
    | some chain =>
      chain.forM fun message => IO.eprintln message
      return 1

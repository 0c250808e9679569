import Std.Data.TreeMap
import Std.Data.TreeSet
import Crossroads.Bytes
import Crossroads.Fault

/-!
# Disks

A disk holds directories and the bytes of files.  A path starts at the working directory, or at the
root if it is absolute, and is walked part by part; every part but the last must be a directory.
-/

namespace Crossroads

/-- The names of the directories on the way to a file or directory, and its own name, outermost
first. -/
abbrev Place := List String

/-- The place that a part of a path leads to. -/
def Place.enter (place : Place) (part : String) : Place :=
  if part == "" || part == "." then place
  else if part == ".." then place.dropLast
  else place ++ [part]

/-- Directories and files. -/
structure Disk where
  directories : Std.TreeSet Place := {}
  files : Std.TreeMap Place Bytes := {}
  /-- The working directory. -/
  here : Place := []

namespace Disk

/-- What stands at a place. -/
inductive Found
  | directory
  | file (bytes : Bytes)
  | nothing

/-- What stands at a place; the root is always there. -/
def look (disk : Disk) (place : Place) : Found :=
  match disk.files[place]? with
  | some bytes => .file bytes
  | none => if place.isEmpty || place ∈ disk.directories then .directory else .nothing

/-- Walks the parts of a path from a directory; the last part may lead anywhere. -/
def walk (disk : Disk) (place : Place) : List String → Except IoFailure Place
  | [] => .ok place
  | part :: rest =>
    match disk.look place with
    | .nothing => .error .notFound
    | .file _ => .error .notDirectory
    | .directory => walk disk (place.enter part) rest

/-- Where a path starts. -/
def origin (disk : Disk) (path : String) : Place := if path.startsWith "/" then [] else disk.here

/-- The place that a path leads to, if every directory on the way is there. -/
def resolve (disk : Disk) (path : String) : Except IoFailure Place :=
  if path.isEmpty then .error .notFound else walk disk (disk.origin path) (path.splitOn "/")

/-- The place that a path leads to, wherever that is. -/
def place (disk : Disk) (path : String) : Place :=
  (path.splitOn "/").foldl Place.enter (disk.origin path)

/-- The bytes of a file. -/
def read (disk : Disk) (path : String) : Except IoFailure Bytes := do
  match disk.look (← disk.resolve path) with
  | .file bytes => .ok bytes
  | .directory => .error .isDirectory
  | .nothing => .error .notFound

/-- The text of a file. -/
def readText (disk : Disk) (path : String) : Except IoFailure String := do
  match Bytes.toText? (← disk.read path) with
  | some text => .ok text
  | none => .error .notText

/-- The parts of a path without the empty ones at its end. -/
def trimmedParts (path : String) : List String :=
  ((path.splitOn "/").reverse.dropWhile String.isEmpty).reverse

/-- The place at which a path names a file to be written, which may be new.  A path that ends in a
slash names a directory, be it there or not. -/
def target (disk : Disk) (path : String) : Except IoFailure Place :=
  if path.endsWith "/" then
    (disk.walk (disk.origin path) (trimmedParts path)).bind fun _ => .error .isDirectory
  else disk.resolve path

/-- The disk with a file of these bytes, which may be new if its directory is there. -/
def write (disk : Disk) (path : String) (bytes : Bytes) : Except IoFailure Disk := do
  let place ← disk.target path
  match disk.look place with
  | .directory => .error .isDirectory
  | .file _ | .nothing => .ok { disk with files := disk.files.insert place bytes }

/-- The disk with a directory and all those on the way to it. -/
def makeDirectory (disk : Disk) (place : Place) : Disk :=
  { disk with
    directories := (List.range place.length).foldl
      (fun known n => known.insert (place.take (n + 1))) disk.directories }

end Disk

end Crossroads

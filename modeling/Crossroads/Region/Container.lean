import Crossroads.Bytes.Checksum
import Crossroads.Bytes.Decoder

/-!
# Region containers

A container is a file of named sections: a header, the sections' data back to back, a table of
contents and a footer that says where the table starts.  A section is written over the old table and
followed by the new one; when its writer fails, the old table is written again in the same place and
the file is cut off behind it.

A `Container` is what is known of a file that has been opened, together with the file's bytes.  The
bytes can change behind its back, so every operation looks at them afresh.
-/

namespace Crossroads

/-- A line of the table of contents. -/
structure Entry where
  name : String
  offset : Nat
  size : Nat
  checksum : UInt64
deriving DecidableEq, Repr

/-- What a section is written by: pieces of data, and perhaps a failure after them. -/
structure Writer where
  pieces : List Bytes
  failure : Option Fault := none

/-- The writer of a byte string. -/
def Writer.ofBytes (bytes : Bytes) : Writer := { pieces := [bytes] }

/-- An opened container. -/
structure Container where
  path : String
  entries : List Entry
  /-- Where the data ends and the table of contents starts. -/
  cursor : Nat
  file : Bytes

namespace Container

/-! ## Layout -/

/-- What containers are known by. -/
def magic : Nat := 0x5443474D

/-- The version of the layout. -/
def version : Nat := 1

/-- Where the data starts. -/
def dataStart : Nat := 8

/-- The size of the footer. -/
def footerSize : Nat := 16

/-- The octets before the data. -/
def header : Bytes :=
  Bytes.littleEndian 4 magic ++ Bytes.littleEndian 2 version ++ Bytes.littleEndian 2 0

/-- The octets of a line of the table of contents. -/
def encodeEntry (e : Entry) : Bytes :=
  Bytes.littleEndian 2 e.name.utf8ByteSize ++ Bytes.ofText e.name ++ Bytes.littleEndian 8 e.offset
    ++ Bytes.littleEndian 8 e.size ++ Bytes.littleEndian 8 e.checksum.toNat

/-- The table of contents and the footer. -/
def encodeContents (entries : List Entry) (cursor : Nat) : Bytes :=
  entries.flatMap encodeEntry ++ Bytes.littleEndian 8 cursor
    ++ Bytes.littleEndian 4 entries.length ++ Bytes.littleEndian 4 magic

/-! ## Writing into files -/

/-- The first `n` octets of a file, filled up with zeros if it is shorter. -/
def upTo (n : Nat) (file : Bytes) : Bytes :=
  file.take n ++ List.replicate (n - file.length) 0

/-- A file that is being written: its octets, and where the next ones go. -/
structure Tape where
  file : Bytes
  position : Nat

namespace Tape

/-- Writes octets over those that are there; a gap before them is filled up with zeros. -/
def put (t : Tape) (octets : Bytes) : Tape where
  file :=
    if octets.isEmpty then t.file
    else upTo t.position t.file ++ octets ++ t.file.drop (t.position + octets.length)
  position := t.position + octets.length

/-- Writes one piece after another. -/
def putAll (t : Tape) (pieces : List Bytes) : Tape := pieces.foldl put t

/-- The file, cut off at the position. -/
def cut (t : Tape) : Bytes := upTo t.position t.file

end Tape

/-- The file wound to where the data ends. -/
def tape (c : Container) : Tape := ⟨c.file, c.cursor⟩

/-- The container after its table of contents has been written where the data ends, and the file cut
off behind it. -/
def writeContents (c : Container) : Container :=
  { c with file := (c.tape.put (encodeContents c.entries c.cursor)).cut }

/-! ## Opening -/

/-- The container without sections. -/
def create (path : String) : Container :=
  writeContents { path := path, entries := [], cursor := dataStart, file := header }

/-- Reads a line of the table of contents of a container whose data ends at `cursor`. -/
def readEntry (path : String) (cursor : Nat) : Decoder Fault Entry := do
  let short : Fault := .io .shortRead
  let name ← Decoder.take short (← Decoder.word short 2)
  match Bytes.toText? name with
  | none => throw (.corrupt (.nameNotText path))
  | some name =>
    let offset ← Decoder.word short 8
    let size ← Decoder.word short 8
    let checksum ← Decoder.word short 8
    if cursor < offset + size then throw (.corrupt (.outsideData path name))
    else return ⟨name, offset, size, UInt64.ofNat checksum⟩

/-- Opens the container that a file holds. -/
def ofBytes (path : String) (file : Bytes) : Except Fault Container :=
  if file.length < dataStart + footerSize then
    .error (.corrupt (.shortContainer path file.length))
  else
    let word (offset width : Nat) := Bytes.ofLittleEndian ((file.drop offset).take width)
    let contentsEnd := file.length - footerSize
    let cursor := word contentsEnd 8
    let count := word (contentsEnd + 8) 4
    if word 0 4 ≠ magic ∨ word 4 2 ≠ version then
      .error (.corrupt (.notContainer path (word 0 4) (word 4 2)))
    else if word (contentsEnd + 12) 4 ≠ magic ∨ cursor < dataStart ∨ contentsEnd < cursor then
      .error (.corrupt (.badFooter path))
    else do
      let entries ← (Decoder.runOn (Decoder.times (readEntry path cursor) count)
        (file.drop cursor)).1
      return ⟨path, entries, cursor, file⟩

/-! ## Sections -/

/-- The entry of a section: the first one with its name. -/
def entry? (c : Container) (name : String) : Option Entry := c.entries.find? fun e => e.name == name

/-- The container has a section of this name. -/
def has (c : Container) (name : String) : Bool := (c.entry? name).isSome

/-- A section can have this name. -/
def nameFits (name : String) : Bool :=
  decide (0 < name.utf8ByteSize) && decide (name.utf8ByteSize < UInt16.size)

/-- The container after pieces of data have been written over its table of contents and given up:
the table is written again over them. -/
def restore (c : Container) (pieces : List Bytes) : Container :=
  writeContents { c with file := (c.tape.putAll pieces).file }

/-- The container after pieces of data have been written as a section, in place of one of the same
name. -/
def append (c : Container) (name : String) (pieces : List Bytes) : Container :=
  let tape := c.tape.putAll pieces
  let checksum := (pieces.foldl Digest.update Digest.empty).finish
  let entry : Entry := ⟨name, c.cursor, tape.position - c.cursor, checksum⟩
  writeContents { c with
    entries := c.entries.filter (fun e => e.name != name) ++ [entry]
    cursor := tape.position
    file := tape.file }

/-- Writes a section; answers its size. -/
def write (c : Container) (name : String) (writer : Writer) : Except Fault Nat × Container :=
  if nameFits name then
    match writer.failure with
    | some fault => (.error (.sectionFailed name fault.message), c.restore writer.pieces)
    | none =>
      let written := c.append name writer.pieces
      (.ok (written.cursor - c.cursor), written)
  else
    (.error (.sectionFailed name s!"invalid section name length {name.utf8ByteSize}"), c)

/-- The data of a section. -/
def read (c : Container) (name : String) : Except Fault Bytes :=
  match c.entry? name with
  | none => .error (.sectionMissing name)
  | some e =>
    let data := (c.file.drop e.offset).take e.size
    if data.length < e.size then .error (.io .shortRead)
    else if checksum data = e.checksum then .ok data
    else .error (.corrupt (.sectionChecksum name c.path))

end Container

end Crossroads

import Crossroads.Bytes.Checksum
import Crossroads.Bytes.Decoder

/-!
# Sealed frames

A sealed frame holds a body behind a magic number and a version, with a checksum over all of it at
the end.  `unwrap` takes off what `wrap` put around the body, and says what is wrong with any other
bytes.

Frames are written to a sink and read off the data field by field (`writeTo`, `readBody`).
-/

namespace Crossroads

/-- What a kind of frame is known by. -/
structure Seal where
  magic : UInt32
  version : UInt16
deriving DecidableEq, Repr

namespace Seal

/-- The octets before a body. -/
def header (s : Seal) : Bytes :=
  Bytes.littleEndian 4 s.magic.toNat ++ Bytes.littleEndian 2 s.version.toNat

/-- The number of octets before a body. -/
def headerSize : Nat := 6

/-- The number of octets after a body. -/
def footerSize : Nat := 8

/-- The frame of a body. -/
def wrap (s : Seal) (body : Bytes) : Bytes :=
  let framed := s.header ++ body
  framed ++ Bytes.littleEndian footerSize (checksum framed).toNat

/-- Writes the frame of a body to a sink, one field after another.  The checksum is that of the octets
which the sink has accepted by then. -/
def writeTo {σ : Type} (sink : Sink σ) (s : Seal) (body : Bytes) (state : σ) : Option σ := do
  let framed ← Metered.writeAll sink { inner := state }
    [Bytes.littleEndian 4 s.magic.toNat, Bytes.littleEndian 2 s.version.toNat, body]
  let footer := Bytes.littleEndian footerSize framed.digest.finish.toNat
  let written ← Metered.offerAll sink { inner := framed.inner } footer
  return written.inner

/-- The body of a frame. -/
def unwrap (s : Seal) (what : String) (data : Bytes) : Except Damage Bytes :=
  if data.length < headerSize + footerSize then .error (.shortFrame what data.length)
  else
    let framed := data.take (data.length - footerSize)
    let magic := Bytes.ofLittleEndian (framed.take 4)
    let version := Bytes.ofLittleEndian ((framed.drop 4).take 2)
    let stored := Bytes.ofLittleEndian (data.drop (data.length - footerSize))
    let actual := (checksum framed).toNat
    if magic ≠ s.magic.toNat then .error (.wrongMagic what magic s.magic.toNat)
    else if version ≠ s.version.toNat then .error (.wrongVersion what version s.version.toNat)
    else if stored ≠ actual then .error (.wrongChecksum what stored actual)
    else .ok (framed.drop headerSize)

/-- Reads the fields of a frame off the octets before its footer; what is left of them is the body. -/
def readFields (s : Seal) (what : String) (framed footer : Bytes) : Decoder Fault Bytes := do
  let short : Fault := .io .shortRead
  let magic ← Decoder.word short 4
  if magic ≠ s.magic.toNat then throw (.corrupt (.wrongMagic what magic s.magic.toNat))
  let version ← Decoder.word short 2
  if version ≠ s.version.toNat then
    throw (.corrupt (.wrongVersion what version s.version.toNat))
  match (Decoder.runOn (Decoder.word short 8) footer).1 with
  | .error fault => throw fault
  | .ok stored =>
    let actual := (checksum framed).toNat
    if stored ≠ actual then throw (.corrupt (.wrongChecksum what stored actual))
    get

/-- The body of a frame, read field by field.  A field that ends too early is a failure of the input,
not damage. -/
def readBody (s : Seal) (what : String) (data : Bytes) : Except Fault Bytes :=
  if data.length < headerSize + footerSize then
    .error (.corrupt (.shortFrame what data.length))
  else
    let framed := data.take (data.length - footerSize)
    let footer := data.drop (data.length - footerSize)
    (Decoder.runOn (s.readFields what framed footer) framed).1

end Seal

end Crossroads

import Crossroads.Bytes.Decoder
import Crossroads.Bytes.Varint
import Crossroads.Coordinate
import Crossroads.Grid

/-!
# Coding of points

A region stores its points as differences from a base point, on the grid of its own precision.
`Coding` holds the precision and the base point; `encodePoint` and `decodePoint` write and read
points, and `encode` and `decode` the coding itself.
-/

namespace Crossroads

/-- The precision and the base point of a region's stored points. -/
structure Coding where
  bits : UInt8
  base : Cell
deriving DecidableEq, Repr

namespace Coding

/-- The precisions that are allowed. -/
def allows (bits : Nat) : Bool := decide (1 ≤ bits) && decide (bits ≤ 32)

/-- The coding with a precision and the base point nearest to a point. -/
def ofPoint (bits : UInt8) (base : Point Coordinate) : Except Complaint Coding :=
  if allows bits.toNat then .ok ⟨bits, Cell.ofPoint bits.toNat base⟩
  else .error (.precision bits.toNat)

/-- The base point in degrees. -/
def basePoint (c : Coding) : Point Coordinate := c.base.toPoint c.bits.toNat

/-! ## Points -/

/-- The octets of a coordinate relative to that of the base point. -/
def encodeAxis (base n : UInt32) : Bytes :=
  Varint.encode (Zigzag.encode (n.toUInt64.toInt64 - base.toUInt64.toInt64)).toNat

/-- The octets of a cell. -/
def encodeCell (c : Coding) (cell : Cell) : Bytes :=
  encodeAxis c.base.x cell.x ++ encodeAxis c.base.y cell.y

/-- The octets of a point. -/
def encodePoint (c : Coding) (p : Point Coordinate) : Bytes :=
  c.encodeCell (Cell.ofPoint c.bits.toNat p)

/-- The coordinate at a stored difference from that of the base point.  The sum is that of signed
words. -/
def axisAt (bits : Nat) (base : UInt32) (difference : UInt64) : Except Damage UInt32 :=
  let value := (base.toUInt64.toInt64 + Zigzag.decode difference).toInt
  if 0 ≤ value ∧ value ≤ Grid.top bits then .ok (UInt32.ofNat value.toNat)
  else .error (.offGrid value bits)

/-- Reads a coordinate. -/
def decodeAxis (what : String) (bits : Nat) (base : UInt32) : Decoder Damage UInt32 := do
  match axisAt bits base (← Decoder.number what) with
  | .ok n => return n
  | .error damage => throw damage

/-- Reads a cell. -/
def decodeCell (c : Coding) (what : String) : Decoder Damage Cell := do
  let x ← decodeAxis what c.bits.toNat c.base.x
  let y ← decodeAxis what c.bits.toNat c.base.y
  return ⟨x, y⟩

/-- Reads a point. -/
def decodePoint (c : Coding) (what : String) : Decoder Damage (Point Coordinate) := do
  return (← c.decodeCell what).toPoint c.bits.toNat

/-! ## The coding itself -/

/-- The octets of a coding. -/
def encode (c : Coding) : Bytes :=
  c.bits :: (Varint.encode c.base.x.toNat ++ Varint.encode c.base.y.toNat)

/-- Reads a coding. -/
def decode (what : String) : Decoder Damage Coding := do
  let bits ← Decoder.octet what
  if allows bits.toNat then
    let x ← Decoder.number32 what
    let y ← Decoder.number32 what
    return ⟨bits, x, y⟩
  else throw (.badPrecision bits.toNat)

end Coding

end Crossroads

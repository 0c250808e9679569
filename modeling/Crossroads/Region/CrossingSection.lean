import Crossroads.Crossing.Transition
import Crossroads.Region.RoutingSection

/-!
# The crossing section

The crossing section holds the transitions of a region and, for each vehicle, its connector with the
weights of the leaps if they were computed.  The lists of a connector follow from the transitions; a
body whose lists differ from those is refused.
-/

namespace Crossroads

/-- What the crossing section holds. -/
structure CrossingSection where
  coding : Coding
  transitions : List Transition
  connectors : Connectors

namespace CrossingSection

/-- The name of the section. -/
def sectionName : String := "cross_mwm"

/-- The seal of the section. -/
def sectionSeal : Seal := ⟨0x4D43474D, 1⟩

/-- What a failure to read the section is about. -/
def label : String := "cross_mwm section"

/-! ## Writing -/

/-- The octet of a flag. -/
def encodeFlag (b : Bool) : UInt8 := if b then 1 else 0

/-- The octets of a transition. -/
def encodeTransition (coding : Coding) (t : Transition) : Bytes :=
  Varint.encode t.feature.toNat ++ Varint.encode t.index.toNat
    ++ [t.roadMask.bits, t.oneWayMask.bits, encodeFlag t.inward]
    ++ coding.encodePoint t.back ++ coding.encodePoint t.front

/-- The octets of a segment: its index is stored together with its direction. -/
def encodeSegment (s : Segment) : Bytes :=
  Varint.encode s.feature.toNat ++ Varint.encode (2 * s.index.toNat + if s.forward then 1 else 0)

/-- The octets of a list of segments. -/
def encodeSegments (segments : List Segment) : Bytes :=
  Varint.encode segments.length ++ segments.flatMap encodeSegment

/-- The octets of a weight: one more than the weight, or 0 where there is no way. -/
def encodeWeight (w : Weight) : Bytes :=
  Varint.encode (if w = Weight.none then 0 else w.toNat + 1)

/-- The octets of a connector. -/
def encodeConnector (c : Connector) : Bytes :=
  encodeSegments c.enters ++ encodeSegments c.exits ++ [encodeFlag c.hasWeights]
    ++ c.weights.flatMap encodeWeight

/-- The octets of the section's body. -/
def encode (s : CrossingSection) : Bytes :=
  s.coding.encode ++ Varint.encode s.transitions.length
    ++ s.transitions.flatMap (encodeTransition s.coding)
    ++ s.connectors.toList.flatMap encodeConnector

/-! ## Reading -/

/-- Reads a transition. -/
def decodeTransition (coding : Coding) : Decoder Damage Transition := do
  let feature ← Decoder.number32 label
  let index ← Decoder.number32 label
  let roadMask ← RoutingSection.decodeMask label
  let oneWayMask ← RoutingSection.decodeMask label
  let inward ← Decoder.flag label
  let back ← coding.decodePoint label
  let front ← coding.decodePoint label
  return ⟨feature, index, roadMask, oneWayMask, inward, back, front⟩

/-- Reads a segment. -/
def decodeSegment : Decoder Damage Segment := do
  let feature ← Decoder.number32 label
  let packed := (← Decoder.number label).toNat
  if UInt32.size ≤ packed / 2 then throw .segmentBeyondWord
  return ⟨feature, UInt32.ofNat (packed / 2), packed % 2 == 1⟩

/-- Reads a list of segments. -/
def decodeSegments : Decoder Damage (List Segment) := do
  Decoder.times decodeSegment (← Decoder.count label)

/-- Reads a weight. -/
def decodeWeight : Decoder Damage Weight := do
  let stored := (← Decoder.number label).toNat
  if stored = 0 then return Weight.none
  else if stored < UInt32.size then return UInt32.ofNat (stored - 1)
  else throw (.weightBeyondWord stored)

/-- Reads the connector of a vehicle, which must list what the transitions register. -/
def decodeConnector (transitions : List Transition) (v : Vehicle) : Decoder Damage Connector := do
  let c := Transition.connector transitions v
  let enters ← decodeSegments
  let exits ← decodeSegments
  if enters ≠ c.enters ∨ exits ≠ c.exits then throw (.connectorMismatch v)
  if ← Decoder.flag label then
    let weights ← Decoder.times decodeWeight (enters.length * exits.length)
    match c.install? weights with
    | some c => return c
    | none => throw (.tableMismatch v)
  else return c

/-- Reads the section's body. -/
def decoder : Decoder Damage CrossingSection := do
  let coding ← Coding.decode label
  let transitions ← Decoder.times (decodeTransition coding) (← Decoder.count label)
  let pedestrian ← decodeConnector transitions .pedestrian
  let bicycle ← decodeConnector transitions .bicycle
  let car ← decodeConnector transitions .car
  return ⟨coding, transitions, ⟨pedestrian, bicycle, car⟩⟩

/-- What a body stands for. -/
def decode (body : Bytes) : Except Damage CrossingSection := Decoder.readAll label decoder body

/-! ## In a container -/

/-- Writes the section. -/
def write (s : CrossingSection) (c : Container) : Except Fault Nat × Container :=
  c.writeSealed sectionName sectionSeal s.encode

/-- Loads the section. -/
def load (c : Container) : Except Fault CrossingSection :=
  c.readSealed sectionName sectionSeal decode

end CrossingSection

end Crossroads

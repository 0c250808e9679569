import Crossroads.Graph.Survey
import Crossroads.Region.Header

/-!
# The routing section

The routing section holds who may use each road, in increasing order of features, and the joints of
the region.  `decode` accepts what `encode` writes and gives it back.
-/

namespace Crossroads

/-- What the routing section holds. -/
structure RoutingSection where
  masks : MaskTable := ∅
  joints : List Joint := []

namespace RoutingSection

/-- The name of the section. -/
def sectionName : String := "routing"

/-- The seal of the section. -/
def sectionSeal : Seal := ⟨0x5452474D, 1⟩

/-- What a failure to read the section is about. -/
def label : String := "routing section"

/-- The number of road points over all joints. -/
def pointCount (s : RoutingSection) : Nat := s.joints.flatten.length

/-! ## Writing -/

/-- The octets of masks in increasing order of features, after feature `last`. -/
def encodeMasks (last : FeatureId) : List (FeatureId × Mask) → Bytes
  | [] => []
  | (id, mask) :: rest => Varint.encode (id - last).toNat ++ mask.bits :: encodeMasks id rest

/-- The octets of a road point. -/
def encodePoint (p : RoadPoint) : Bytes :=
  Varint.encode p.feature.toNat ++ Varint.encode p.index.toNat

/-- The octets of a joint. -/
def encodeJoint (joint : Joint) : Bytes := Varint.encode joint.length ++ joint.flatMap encodePoint

/-- The octets of the section's body. -/
def encode (s : RoutingSection) : Bytes :=
  Varint.encode s.masks.size ++ encodeMasks 0 s.masks.toList
    ++ Varint.encode s.joints.length ++ s.joints.flatMap encodeJoint

/-! ## Reading -/

/-- Reads a mask. -/
def decodeMask (what : String) : Decoder Damage Mask := do
  let bits ← Decoder.octet what
  match Mask.ofBits? bits with
  | some mask => return mask
  | none => throw (.badMask what bits.toNat)

/-- Reads masks, `n` of them, into a table whose greatest feature is `last`; the first mask of all
may be at any feature. -/
def decodeMasks (first : Bool) (last : FeatureId) (table : MaskTable) :
    Nat → Decoder Damage MaskTable
  | 0 => return table
  | n + 1 => do
    let difference ← Decoder.number32 label
    if !first && difference == 0 then throw .repeatedFeature
    if UInt32.size ≤ last.toNat + difference.toNat then throw .featureBeyondWord
    let mask ← decodeMask label
    decodeMasks false (last + difference) (table.insert (last + difference) mask) n

/-- Reads a road point. -/
def decodePoint : Decoder Damage RoadPoint := do
  let feature ← Decoder.number32 label
  let index ← Decoder.number32 label
  return ⟨feature, index⟩

/-- Reads a joint. -/
def decodeJoint : Decoder Damage Joint := do Decoder.times decodePoint (← Decoder.count label)

/-- Reads the section's body. -/
def decoder : Decoder Damage RoutingSection := do
  let masks ← decodeMasks true 0 ∅ (← Decoder.count label)
  let joints ← Decoder.times decodeJoint (← Decoder.count label)
  return ⟨masks, joints⟩

/-- What a body stands for. -/
def decode (body : Bytes) : Except Damage RoutingSection := Decoder.readAll label decoder body

/-! ## In a container -/

/-- Writes the section. -/
def write (s : RoutingSection) (c : Container) : Except Fault Nat × Container :=
  c.writeSealed sectionName sectionSeal s.encode

/-- Loads the section. -/
def load (c : Container) : Except Fault RoutingSection :=
  c.readSealed sectionName sectionSeal decode

end RoutingSection

end Crossroads

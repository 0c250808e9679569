import Crossroads.Bytes

/-!
# Checksums

The 64-bit cyclic redundancy check with generator `x⁶⁴ + x⁴ + x³ + x + 1`, lowest bit first, with
all bits of the remainder set at the start and all of them flipped at the end.

`Digest` takes the data in any number of pieces; `checksum` takes it at once.  `Metered` is a sink
that passes what it is offered on to another one and digests what that one accepted.
-/

namespace Crossroads

namespace Checksum

/-- The generator less its leading term, lowest degree in the highest bit. -/
def generator : UInt64 := 0xD800000000000000

/-- One division step: the lowest bit leaves the remainder. -/
def shift (r : UInt64) : UInt64 :=
  if r &&& 1 == 1 then (r >>> 1) ^^^ generator else r >>> 1

/-- Several division steps. -/
def shifts : Nat → UInt64 → UInt64
  | 0, r => r
  | n + 1, r => shifts n (shift r)

/-- The remainder after one more octet. -/
def absorb (r : UInt64) (b : UInt8) : UInt64 := shifts 8 (r ^^^ b.toUInt64)

/-- All bits set: where a remainder starts, and what flips it at the end. -/
def ones : UInt64 := 0xFFFFFFFFFFFFFFFF

end Checksum

/-- A checksum in the making. -/
structure Digest where
  /-- The remainder of the octets seen so far. -/
  remainder : UInt64
deriving DecidableEq, Repr

namespace Digest

/-- The digest of nothing. -/
def empty : Digest := ⟨Checksum.ones⟩

/-- The digest after some more octets. -/
def update (d : Digest) (bytes : Bytes) : Digest := ⟨bytes.foldl Checksum.absorb d.remainder⟩

/-- The checksum of all octets seen. -/
def finish (d : Digest) : UInt64 := d.remainder ^^^ Checksum.ones

/-- Pieces may be cut anywhere. -/
@[simp]
theorem update_append (d : Digest) (xs ys : Bytes) :
    d.update (xs ++ ys) = (d.update xs).update ys := by
  simp [update]

end Digest

/-- The checksum of a byte string. -/
def checksum (bytes : Bytes) : UInt64 := (Digest.empty.update bytes).finish

/-- A place that octets are written to.  A sink may accept less than it is offered. -/
structure Sink (σ : Type) where
  /-- Offers octets; answers the new state and how many of them were accepted. -/
  offer : σ → Bytes → σ × Nat

/-- A sink's state together with the digest of everything it accepted. -/
structure Metered (σ : Type) where
  inner : σ
  digest : Digest := .empty

namespace Metered

variable {σ : Type}

/-- Offers octets to the inner sink and digests those that it accepts. -/
def offer (sink : Sink σ) (m : Metered σ) (bytes : Bytes) : Metered σ × Nat :=
  let (inner, accepted) := sink.offer m.inner bytes
  (⟨inner, m.digest.update (bytes.take accepted)⟩, accepted)

/-- Offers octets again and again until all are accepted; gives up when a sink accepts none. -/
def offerAll (sink : Sink σ) (m : Metered σ) : Bytes → Option (Metered σ)
  | [] => some m
  | b :: rest =>
    match m.offer sink (b :: rest) with
    | (_, 0) => none
    | (m', accepted + 1) => offerAll sink m' (rest.drop accepted)
termination_by bytes => bytes.length
decreasing_by simp only [List.length_drop, List.length_cons]; omega

/-- Writes pieces one after another. -/
def writeAll (sink : Sink σ) (m : Metered σ) (pieces : List Bytes) : Option (Metered σ) :=
  pieces.foldlM (offerAll sink) m

end Metered

/-- The sink that keeps everything it is offered, in order. -/
def Sink.keep : Sink Bytes := ⟨fun kept bytes => (kept ++ bytes, bytes.length)⟩

end Crossroads

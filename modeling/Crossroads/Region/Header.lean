import Crossroads.Bytes.Sealed
import Crossroads.Region.Coding
import Crossroads.Region.Container

/-!
# Sealed sections and the header section

The sections of a region are sealed frames.  The header section holds the coding of the region's
points.
-/

namespace Crossroads

/-- The writer of a sealed body.  It fails if what it writes to stops accepting octets. -/
def Writer.ofSealed (s : Seal) (body : Bytes) : Writer :=
  match s.writeTo .keep body [] with
  | some frame => .ofBytes frame
  | none => { pieces := [], failure := some (.io (.reported "failed to write whole buffer")) }

namespace Container

/-- Writes a sealed body as a section; answers the section's size. -/
def writeSealed (c : Container) (name : String) (s : Seal) (body : Bytes) :
    Except Fault Nat × Container :=
  c.write name (.ofSealed s body)

/-- What the sealed body of a section stands for. -/
def readSealed {α : Type} (c : Container) (name : String) (s : Seal)
    (decode : Bytes → Except Damage α) : Except Fault α := do
  let data ← c.read name
  let body ← s.readBody name data
  (decode body).mapError Fault.corrupt

end Container

namespace Coding

/-- The name of the header section. -/
def sectionName : String := "header"

/-- The seal of the header section. -/
def sectionSeal : Seal := ⟨0x4448474D, 1⟩

/-- The coding that a body holds. -/
def decodeAll (body : Bytes) : Except Damage Coding :=
  Decoder.readAll "header section" (decode "header section") body

/-- Writes the header section. -/
def write (coding : Coding) (c : Container) : Except Fault Nat × Container :=
  c.writeSealed sectionName sectionSeal coding.encode

/-- Loads the header section. -/
def load (c : Container) : Except Fault Coding := c.readSealed sectionName sectionSeal decodeAll

end Coding

end Crossroads

import Crossroads.Bytes
import Crossroads.Fault

/-!
# Reading stored values

A decoder takes values off the front of a byte string.  It may fail at any point, and what it has
taken by then stays taken.  The decoders here read octets, flags, numbers of variable length and
counts; each names what is being read, for the message of a failure.
-/

namespace Crossroads

/-- A reader of bytes that fails with `ε`. -/
abbrev Decoder (ε α : Type) := ExceptT ε (StateM Bytes) α

namespace Decoder

variable {ε α : Type}

/-- Reads from the front of `bytes`; answers the outcome and what is left. -/
def runOn (d : Decoder ε α) (bytes : Bytes) : Except ε α × Bytes := (ExceptT.run d).run bytes

/-- The next `n` octets; takes none and fails with `short` if there are fewer. -/
def take (short : ε) (n : Nat) : Decoder ε Bytes := do
  let bytes ← get
  if bytes.length < n then throw short
  else
    set (bytes.drop n)
    return bytes.take n

/-- The next word of `width` octets, lowest first. -/
def word (short : ε) (width : Nat) : Decoder ε Nat := do
  return Bytes.ofLittleEndian (← take short width)

/-- The value of the same decoder, read `n` times. -/
def times (d : Decoder ε α) : Nat → Decoder ε (List α)
  | 0 => return []
  | n + 1 => do
    let a ← d
    return a :: (← times d n)

/-- The next octet. -/
def octet (what : String) : Decoder Damage UInt8 := do
  match ← get with
  | [] => throw (.truncated what)
  | b :: rest =>
    set rest
    return b

/-- The next octet, which must be 0 or 1. -/
def flag (what : String) : Decoder Damage Bool := do
  let b ← octet what
  if b == 0 then return false
  else if b == 1 then return true
  else throw (.badFlag what b.toNat)

/-- Reads the groups of seven bits of a number, at most `limit` of them, into a word from the bit
`place` on.  What goes beyond the word is lost. -/
def gather (what : String) : Nat → Nat → UInt64 → Decoder Damage UInt64
  | 0, _, _ => throw (.endlessNumber what)
  | limit + 1, place, word => do
    let b ← octet what
    let word := word ||| (b &&& 0x7F).toUInt64 <<< UInt64.ofNat place
    if b &&& 0x80 = 0 then return word
    else gather what limit (place + 7) word

/-- A number of variable length, at most ten octets; only its lowest 64 bits are kept. -/
def number (what : String) : Decoder Damage UInt64 := gather what 10 0 0

/-- A number of variable length that fits into 32 bits. -/
def number32 (what : String) : Decoder Damage UInt32 := do
  let n ← number what
  if n.toNat < UInt32.size then return UInt32.ofNat n.toNat
  else throw (.beyondWord what n.toNat)

/-- The count of items that take at least one octet each. -/
def count (what : String) : Decoder Damage Nat := do
  let n ← number what
  let left := (← get).length
  if left < n.toNat then throw (.countBeyondData what n.toNat left)
  else return n.toNat

/-- Fails unless all bytes have been taken. -/
def finish (what : String) : Decoder Damage Unit := do
  let left ← get
  if left.isEmpty then return ()
  else throw (.trailing what left.length)

/-- The value that a whole byte string stands for. -/
def readAll (what : String) (d : Decoder Damage α) (bytes : Bytes) : Except Damage α :=
  (runOn (do let a ← d; finish what; return a) bytes).1

end Decoder

end Crossroads

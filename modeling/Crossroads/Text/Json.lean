/-!
# JSON

`Value` is the tree of a JSON text and `read?` reads one.  Nothing is interpreted before it is asked
for: a number keeps its digits, and a string whose escapes stand for no text is still a string, so
that parts nobody looks at need only be well formed.

`Number.toFloat?` takes the digits of a number as a word as far as they fit into one, drops the
others and scales the word by a power of ten, so that its result can be off in the last place.
-/

namespace Crossroads.Json

/-- A number as it is spelled. -/
structure Number where
  negative : Bool
  whole : List Char
  fraction : List Char := []
  /-- The exponent's sign and digits. -/
  exponent : Option (Bool × List Char) := none
deriving DecidableEq, Repr

/-- A JSON text. -/
inductive Value
  | null
  | bool (b : Bool)
  | number (n : Number)
  /-- A string, or nothing where its escapes stand for no text. -/
  | string (text : Option String)
  | array (items : List Value)
  | object (fields : List (Option String × Value))

/-! ## Numbers -/

namespace Number

/-- The value of a digit. -/
def digit (c : Char) : Nat := c.toNat - '0'.toNat

/-- The greatest word. -/
def maxWord : Nat := UInt64.size - 1

/-- Appends digits to a word while it can hold them; answers the word and the digits left over. -/
def appendDigits (word : Nat) : List Char → Nat × List Char
  | [] => (word, [])
  | c :: rest =>
    let next := 10 * word + digit c
    if maxWord < next then (word, c :: rest) else appendDigits next rest

/-- Multiplies by powers of ten, as long as no step leaves the range of numbers. -/
def scaleUp (x : Float) (exponent : Nat) : Option Float :=
  if exponent ≤ 308 then
    let y := x * Float.ofScientific 1 false exponent
    if y.isInf then none else some y
  else if x == 0.0 then some x
  else none

/-- Divides by powers of ten, the greatest one first until what is left is one. -/
def scaleDown (x : Float) (exponent : Nat) : Float :=
  if exponent ≤ 308 then x / Float.ofScientific 1 false exponent
  else if x == 0.0 then x
  else if exponent ≤ 2 * 308 then
    x / Float.ofScientific 1 false 308 / Float.ofScientific 1 false (exponent - 308)
  else 0.0

/-- The word times a power of ten. -/
def scale (word : Nat) (exponent : Int) : Option Float :=
  let x := Float.ofNat word
  if 0 ≤ exponent then scaleUp x exponent.toNat else some (scaleDown x (-exponent).toNat)

/-- The greatest exponent that is looked at. -/
def maxExponent : Nat := 2147483647

/-- The number without its sign; nothing where it is too great. -/
def magnitude? (n : Number) : Option Float :=
  let (word, dropped) := appendDigits 0 n.whole
  let (word, unread) := appendDigits word n.fraction
  let shift : Int := (dropped.length : Int) - (n.fraction.length - unread.length : Nat)
  match n.exponent with
  | none => scale word shift
  | some (negative, digits) =>
    let exponent := digits.foldl (fun e c => 10 * e + digit c) 0
    if maxExponent < exponent then if word = 0 || negative then some 0.0 else none
    else scale word (if negative then shift - exponent else shift + exponent)

/-- The number as a floating-point number; nothing where it is too great. -/
def toFloat? (n : Number) : Option Float :=
  n.magnitude?.map fun x => if n.negative then -x else x

/-- The number as a word of 32 bits, if it is spelled without sign, fraction and exponent. -/
def toWord? (n : Number) : Option UInt32 :=
  let value := n.whole.foldl (fun e c => 10 * e + digit c) 0
  if !n.negative && n.fraction.isEmpty && n.exponent.isNone && value < UInt32.size then
    some (UInt32.ofNat value)
  else none

/-- Digits, at least one of them, and what follows. -/
def readDigits? (text : List Char) : Option (List Char × List Char) :=
  let digits := text.takeWhile Char.isDigit
  if digits.isEmpty then none else some (digits, text.dropWhile Char.isDigit)

/-- The whole part: a zero, or digits that do not start with one. -/
def readWhole? (text : List Char) : Option (List Char × List Char) := do
  let (digits, rest) ← readDigits? text
  if digits.head? == some '0' && digits.length ≠ 1 then none else some (digits, rest)

/-- The fraction and the exponent of a number whose whole part has been read. -/
def readTail? (negative : Bool) (whole text : List Char) : Option (Number × List Char) := do
  let (fraction, text) ← match text with
    | '.' :: rest => readDigits? rest
    | text => some ([], text)
  let number : Number := ⟨negative, whole, fraction, none⟩
  match text with
  | c :: rest =>
    if c == 'e' || c == 'E' then
      let (down, rest) := match rest with
        | '-' :: rest => (true, rest)
        | '+' :: rest => (false, rest)
        | rest => (false, rest)
      let (digits, rest) ← readDigits? rest
      some ({ number with exponent := some (down, digits) }, rest)
    else some (number, text)
  | [] => some (number, text)

/-- A number at the start of a text. -/
def read? (text : List Char) : Option (Number × List Char) :=
  match text with
  | '-' :: rest => do
    let (whole, rest) ← readWhole? rest
    readTail? true whole rest
  | text => do
    let (whole, rest) ← readWhole? text
    readTail? false whole rest

end Number

/-! ## Strings -/

/-- The value of a hexadecimal digit. -/
def hexDigit? (c : Char) : Option Nat :=
  if c.isDigit then some (c.toNat - '0'.toNat)
  else if 'a' ≤ c && c ≤ 'f' then some (c.toNat - 'a'.toNat + 10)
  else if 'A' ≤ c && c ≤ 'F' then some (c.toNat - 'A'.toNat + 10)
  else none

/-- Four hexadecimal digits. -/
def readUnit? : List Char → Option (Nat × List Char)
  | a :: b :: c :: d :: rest => do
    let unit := (((← hexDigit? a) * 16 + (← hexDigit? b)) * 16 + (← hexDigit? c)) * 16
      + (← hexDigit? d)
    some (unit, rest)
  | _ => none

/-- A piece of a string: a character, or a code unit that was written by number. -/
inductive Piece
  | char (c : Char)
  | unit (n : Nat)

/-- The character that a letter stands for after a backslash. -/
def escape? : Char → Option Char
  | '"' => some '"'
  | '\\' => some '\\'
  | '/' => some '/'
  | 'b' => some '\x08'
  | 'f' => some '\x0c'
  | 'n' => some '\n'
  | 'r' => some '\r'
  | 't' => some '\t'
  | _ => none

/-- The pieces of a string up to its closing quote, and what follows. -/
def readPieces? : Nat → List Char → Option (List Piece × List Char)
  | 0, _ => none
  | fuel + 1, text =>
    match text with
    | '"' :: rest => some ([], rest)
    | '\\' :: 'u' :: rest => do
      let (unit, rest) ← readUnit? rest
      let (pieces, rest) ← readPieces? fuel rest
      some (.unit unit :: pieces, rest)
    | '\\' :: c :: rest => do
      let c ← escape? c
      let (pieces, rest) ← readPieces? fuel rest
      some (.char c :: pieces, rest)
    | c :: rest =>
      if c.toNat < 0x20 || c == '\\' then none
      else do
        let (pieces, rest) ← readPieces? fuel rest
        some (.char c :: pieces, rest)
    | [] => none

/-- The text that pieces stand for: the two halves of a surrogate pair make one character, and a
half alone makes none. -/
def joinPieces? : List Piece → Option (List Char)
  | [] => some []
  | .char c :: rest => (joinPieces? rest).map (c :: ·)
  | .unit high :: .unit low :: rest =>
    if 0xD800 ≤ high && high < 0xDC00 then
      if 0xDC00 ≤ low && low < 0xE000 then
        (joinPieces? rest).map
          (Char.ofNat (0x10000 + (high - 0xD800) * 0x400 + (low - 0xDC00)) :: ·)
      else none
    else if 0xDC00 ≤ high && high < 0xE000 then none
    else (joinPieces? (.unit low :: rest)).map (Char.ofNat high :: ·)
  | .unit n :: rest =>
    if 0xD800 ≤ n && n < 0xE000 then none else (joinPieces? rest).map (Char.ofNat n :: ·)

/-- A string after its opening quote, and what follows. -/
def readString? (text : List Char) : Option (Option String × List Char) := do
  let (pieces, rest) ← readPieces? (text.length + 1) text
  some ((joinPieces? pieces).map String.ofList, rest)

/-! ## Values -/

/-- The text without the blanks at its start. -/
def skipBlanks (text : List Char) : List Char :=
  text.dropWhile fun c => c == ' ' || c == '\n' || c == '\t' || c == '\r'

/-- What follows a word at the start of a text. -/
def readWord? (word text : List Char) : Option (List Char) :=
  if word.isPrefixOf text then some (text.drop word.length) else none

mutual

/-- A value at the start of a text, and what follows. -/
def readValue? : Nat → List Char → Option (Value × List Char)
  | 0, _ => none
  | fuel + 1, text =>
    match skipBlanks text with
    | '"' :: rest => do
      let (string, rest) ← readString? rest
      some (.string string, rest)
    | '[' :: rest =>
      match skipBlanks rest with
      | ']' :: rest => some (.array [], rest)
      | rest => do
        let (items, rest) ← readItems? fuel rest
        some (.array items, rest)
    | '\x7b' :: rest =>
      match skipBlanks rest with
      | '\x7d' :: rest => some (.object [], rest)
      | rest => do
        let (fields, rest) ← readFields? fuel rest
        some (.object fields, rest)
    | 'n' :: rest => (readWord? "ull".toList rest).map (.null, ·)
    | 't' :: rest => (readWord? "rue".toList rest).map (.bool true, ·)
    | 'f' :: rest => (readWord? "alse".toList rest).map (.bool false, ·)
    | rest => do
      let (number, rest) ← Number.read? rest
      some (.number number, rest)

/-- The items of an array up to its closing bracket, and what follows. -/
def readItems? : Nat → List Char → Option (List Value × List Char)
  | 0, _ => none
  | fuel + 1, text => do
    let (item, rest) ← readValue? fuel text
    match skipBlanks rest with
    | ']' :: rest => some ([item], rest)
    | ',' :: rest => do
      let (items, rest) ← readItems? fuel rest
      some (item :: items, rest)
    | _ => none

/-- The fields of an object up to its closing brace, and what follows. -/
def readFields? : Nat → List Char → Option (List (Option String × Value) × List Char)
  | 0, _ => none
  | fuel + 1, text =>
    match skipBlanks text with
    | '"' :: rest => do
      let (key, rest) ← readString? rest
      match skipBlanks rest with
      | ':' :: rest => do
        let (value, rest) ← readValue? fuel rest
        match skipBlanks rest with
        | '\x7d' :: rest => some ([(key, value)], rest)
        | ',' :: rest => do
          let (fields, rest) ← readFields? fuel rest
          some ((key, value) :: fields, rest)
        | _ => none
      | _ => none
    | _ => none

end

/-- The value that a whole text stands for. -/
def read? (text : List Char) : Option Value := do
  let (value, rest) ← readValue? (2 * text.length + 2) text
  if (skipBlanks rest).isEmpty then some value else none

end Crossroads.Json

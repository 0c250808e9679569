import Crossroads.Text.Json

/-!
# Flat TOML

The part of TOML that a flat list of settings needs: a key, an equals sign and an integer or a
string on each line, with comments and blank lines between them.  Tables, dotted keys and all other
kinds of value are refused, and so are keys that stand twice.
-/

namespace Crossroads.Toml

/-- A value of a flat document. -/
inductive Item
  | integer (n : Int)
  | text (s : String)
deriving DecidableEq, Repr

/-! ## Characters -/

/-- The character can stand in a comment or a string on one line. -/
def isPlain (c : Char) : Bool := c == '\t' || (0x20 ≤ c.toNat && c.toNat ≠ 0x7F)

/-- The character can stand in a bare key. -/
def isBare (c : Char) : Bool := c.isAlphanum || c == '_' || c == '-'

/-- The text without spaces and tabs at its start. -/
def skipSpaces (text : List Char) : List Char := text.dropWhile fun c => c == ' ' || c == '\t'

/-- What follows a line's end. -/
def newline? : List Char → Option (List Char)
  | '\n' :: rest => some rest
  | '\r' :: '\n' :: rest => some rest
  | _ => none

/-- The text without blanks and line ends at its start. -/
def skipLines : List Char → List Char
  | ' ' :: rest => skipLines rest
  | '\t' :: rest => skipLines rest
  | '\n' :: rest => skipLines rest
  | '\r' :: '\n' :: rest => skipLines rest
  | text => text

/-- What follows the rest of a line that holds at most a comment. -/
def endOfLine? (text : List Char) : Option (List Char) :=
  let rest := match skipSpaces text with
    | '#' :: rest => rest.dropWhile isPlain
    | rest => rest
  if rest.isEmpty then some [] else newline? rest

/-! ## Strings -/

/-- The character with a number. -/
def scalar? (n : Nat) : Option Char := if h : n.isValidChar then some ⟨n.toUInt32, by
  rcases h with h | ⟨h, h'⟩
  · left; rw [Nat.toUInt32, UInt32.toNat_ofNat']; omega
  · right; rw [Nat.toUInt32, UInt32.toNat_ofNat']; omega⟩ else none

/-- The character that an escape stands for, after its backslash, and what follows. -/
def escape? : List Char → Option (Char × List Char)
  | 'b' :: rest => some ('\x08', rest)
  | 't' :: rest => some ('\t', rest)
  | 'n' :: rest => some ('\n', rest)
  | 'f' :: rest => some ('\x0c', rest)
  | 'r' :: rest => some ('\r', rest)
  | '"' :: rest => some ('"', rest)
  | '\\' :: rest => some ('\\', rest)
  | 'u' :: rest => do
    let (n, rest) ← Json.readUnit? rest
    some (← scalar? n, rest)
  | 'U' :: rest => do
    let (high, rest) ← Json.readUnit? rest
    let (low, rest) ← Json.readUnit? rest
    some (← scalar? (high * 0x10000 + low), rest)
  | _ => none

/-- A string on one line between quotes of a kind, after the first one; `escapes` says whether a
backslash means something in it. -/
def readShort? (quote : Char) (escapes : Bool) : Nat → List Char → Option (List Char × List Char)
  | 0, _ => none
  | fuel + 1, text =>
    match text with
    | [] => none
    | c :: rest =>
      if c == quote then some ([], rest)
      else do
        let (c, rest) ←
          if c == '\\' && escapes then escape? rest
          else if isPlain c then some (c, rest)
          else none
        let (later, rest) ← readShort? quote escapes fuel rest
        some (c :: later, rest)

/-- A string over several lines, after its three opening quotes; up to two quotes right before the
closing ones belong to it. -/
def readLong? (quote : Char) (escapes : Bool) : Nat → List Char → Option (List Char × List Char)
  | 0, _ => none
  | fuel + 1, text =>
    let quotes := (text.takeWhile (· == quote)).length
    if 3 ≤ quotes then
      let own := min (quotes - 3) 2
      some (List.replicate own quote, text.drop (own + 3))
    else
      match text with
      | [] => none
      | c :: rest =>
        if c == '\\' && escapes then
          match newline? (skipSpaces rest) with
          | some rest => readLong? quote escapes fuel (skipLines rest)
          | none => do
            let (c, rest) ← escape? rest
            let (later, rest) ← readLong? quote escapes fuel rest
            some (c :: later, rest)
        else
          match newline? text with
          | some rest => do
            let (later, rest) ← readLong? quote escapes fuel rest
            some ('\n' :: later, rest)
          | none =>
            if isPlain c then do
              let (later, rest) ← readLong? quote escapes fuel rest
              some (c :: later, rest)
            else none

/-- A string over one or several lines, and what follows. -/
def readString? (text : List Char) : Option (List Char × List Char) :=
  let long (quote : Char) (escapes : Bool) (rest : List Char) :=
    readLong? quote escapes (rest.length + 1) ((newline? rest).getD rest)
  match text with
  | '"' :: '"' :: '"' :: rest => long '"' true rest
  | '\'' :: '\'' :: '\'' :: rest => long '\'' false rest
  | '"' :: rest => readShort? '"' true (rest.length + 1) rest
  | '\'' :: rest => readShort? '\'' false (rest.length + 1) rest
  | _ => none

/-! ## Integers -/

/-- Removes underscores that stand between two digits of a kind; nothing if one stands elsewhere. -/
def joinDigits? (isDigit : Char → Bool) : List Char → Option (List Char)
  | [] => none
  | [c] => if isDigit c then some [c] else none
  | c :: '_' :: rest => if isDigit c then (joinDigits? isDigit rest).map (c :: ·) else none
  | c :: rest => if isDigit c then (joinDigits? isDigit rest).map (c :: ·) else none

/-- The number that digits of a base spell. -/
def readDigits? (base : Nat) (text : List Char) : Option Nat := do
  let isDigit (c : Char) := (Json.hexDigit? c).any (· < base)
  let digits ← joinDigits? isDigit text
  some (digits.foldl (fun n c => base * n + (Json.hexDigit? c).getD 0) 0)

/-- Digits that do not start with a superfluous zero. -/
def readDecimal? (text : List Char) : Option Nat :=
  if text.head? == some '0' && text.length ≠ 1 then none else readDigits? 10 text

/-- The number, if it is a signed word of 64 bits. -/
def fit? (n : Int) : Option Int :=
  if Int64.minValue.toInt ≤ n ∧ n ≤ Int64.maxValue.toInt then some n else none

/-- The integer that a whole text spells. -/
def readInteger? (text : List Char) : Option Int := do
  match text with
  | '+' :: rest => fit? (← readDecimal? rest)
  | '-' :: rest => fit? (-(← readDecimal? rest : Int))
  | '0' :: 'x' :: rest => fit? (← readDigits? 16 rest)
  | '0' :: 'o' :: rest => fit? (← readDigits? 8 rest)
  | '0' :: 'b' :: rest => fit? (← readDigits? 2 rest)
  | text => fit? (← readDecimal? text)

/-! ## Documents -/

/-- A value, and what follows. -/
def readItem? (text : List Char) : Option (Item × List Char) :=
  match text with
  | '"' :: _ | '\'' :: _ => (readString? text).map fun (s, rest) => (.text (String.ofList s), rest)
  | _ => do
    let isNumeral (c : Char) :=
      c.isAlphanum || c == '_' || c == '+' || c == '-' || c == '.' || c == ':'
    let n ← readInteger? (text.takeWhile isNumeral)
    some (.integer n, text.dropWhile isNumeral)

/-- A key, and what follows. -/
def readKey? (text : List Char) : Option (String × List Char) :=
  match text with
  | '"' :: rest => do
    let (key, rest) ← readShort? '"' true (rest.length + 1) rest
    some (String.ofList key, rest)
  | '\'' :: rest => do
    let (key, rest) ← readShort? '\'' false (rest.length + 1) rest
    some (String.ofList key, rest)
  | _ =>
    let key := text.takeWhile isBare
    if key.isEmpty then none else some (String.ofList key, text.dropWhile isBare)

/-- The lines of a document, one after another. -/
def readLines? : Nat → List Char → Option (List (String × Item))
  | 0, _ => none
  | fuel + 1, text =>
    match skipSpaces text with
    | [] => some []
    | start =>
      match endOfLine? start with
      | some rest => readLines? fuel rest
      | none => do
        let (key, rest) ← readKey? start
        match skipSpaces rest with
        | '=' :: rest => do
          let (item, rest) ← readItem? (skipSpaces rest)
          let later ← readLines? fuel (← endOfLine? rest)
          some ((key, item) :: later)
        | _ => none

/-- The settings of a document, if no key stands twice. -/
def read? (text : List Char) : Option (List (String × Item)) := do
  let text := match text with
    | '\uFEFF' :: rest => rest
    | text => text
  let items ← readLines? (text.length + 2) text
  let keys := items.map (·.1)
  if keys.eraseDups.length = keys.length then some items else none

end Crossroads.Toml

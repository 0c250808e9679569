import Crossroads.Double

/-!
# Decimal numerals

`fixed` writes a floating-point number with a fixed count of decimals, from its exact value, a half
going to the even neighbour.  `read?` reads a numeral as the nearest floating-point number; it also
takes the names of infinity and of what is no number.
-/

namespace Crossroads.Text.Decimal

/-- The whole number nearest to `num / den`, a half going to the even neighbour. -/
def divideToEven (num den : Nat) : Nat :=
  let whole := num / den
  let twice := 2 * (num % den)
  if den < twice || (twice = den && whole % 2 = 1) then whole + 1 else whole

/-- The number with `places` decimals. -/
def fixed (places : Nat) (x : Float) : String :=
  if x.isNaN then "NaN"
  else
    let (negative, mantissa, exponent) := Double.parts x
    let sign := if negative then "-" else ""
    if x.isInf then sign ++ "inf"
    else
      let unit := Nat.pow 10 places
      let scaled := mantissa * unit
      let units :=
        if 0 ≤ exponent then scaled <<< exponent.toNat
        else divideToEven scaled (1 <<< (-exponent).toNat)
      let decimals := toString (units % unit)
      sign ++ toString (units / unit) ++ "."
        ++ String.ofList (List.replicate (places - decimals.length) '0') ++ decimals

/-! ## Reading -/

/-- The number that a list of digits spells. -/
def ofDigits (digits : List Char) : Nat :=
  digits.foldl (fun n c => 10 * n + (c.toNat - '0'.toNat)) 0

/-- A sign in front, and what follows it. -/
def takeSign : List Char → Bool × List Char
  | '-' :: rest => (true, rest)
  | '+' :: rest => (false, rest)
  | text => (false, text)

/-- The number `mantissa * 10 ^ exponent`, rounded to the nearest. -/
def scale (mantissa : Nat) (exponent : Int) : Float :=
  let magnitude := (toString mantissa).length + exponent
  if mantissa = 0 || magnitude < -400 then 0.0
  else if magnitude > 400 then 1.0 / 0.0
  else Float.ofScientific mantissa (exponent < 0) exponent.natAbs

/-- The exponent of a numeral: nothing, or a letter, perhaps a sign, and digits to the end. -/
def readExponent? : List Char → Option Int
  | [] => some 0
  | c :: rest =>
    let (negative, digits) := takeSign rest
    if (c == 'e' || c == 'E') && !digits.isEmpty && digits.all Char.isDigit then
      some (if negative then -(ofDigits digits : Int) else ofDigits digits)
    else none

/-- The number that an unsigned numeral stands for. -/
def readUnsigned? (text : List Char) : Option Float :=
  let name := text.map Char.toLower
  if name == "inf".toList || name == "infinity".toList then some (1.0 / 0.0)
  else if name == "nan".toList then some (0.0 / 0.0)
  else
    let whole := text.takeWhile Char.isDigit
    let rest := text.dropWhile Char.isDigit
    let (fraction, rest) := match rest with
      | '.' :: rest => (rest.takeWhile Char.isDigit, rest.dropWhile Char.isDigit)
      | rest => ([], rest)
    if whole.isEmpty && fraction.isEmpty then none
    else do
      let exponent ← readExponent? rest
      some (scale (ofDigits (whole ++ fraction)) (exponent - fraction.length))

/-- The number nearest to what a numeral stands for. -/
def read? (text : List Char) : Option Float :=
  let (negative, rest) := takeSign text
  (readUnsigned? rest).map fun x => if negative then -x else x

end Crossroads.Text.Decimal

/-!
# Columns

Texts padded to a width, and numerals with a fixed count of hexadecimal digits.
-/

namespace Crossroads.Text

/-- The text with blanks after it, at least `width` characters in all. -/
def padEnd (width : Nat) (text : String) : String :=
  text ++ String.ofList (List.replicate (width - text.length) ' ')

/-- The text with blanks before it, at least `width` characters in all. -/
def padStart (width : Nat) (text : String) : String :=
  String.ofList (List.replicate (width - text.length) ' ') ++ text

/-- The number in lower-case hexadecimal digits, at least `width` of them. -/
def hex (width n : Nat) : String :=
  let digits := Nat.toDigits 16 n
  String.ofList (List.replicate (width - digits.length) '0' ++ digits)

end Crossroads.Text

/-!
# Blanks, words and lines

`isBlank` is the property White_Space of characters.  On it rest `trim` and `words`; `lines` cuts at
line feeds and takes a carriage return right before one as part of the line's end.
-/

namespace Crossroads.Text

/-- The character counts as white space. -/
def isBlank (c : Char) : Bool :=
  let n := c.toNat
  (9 ≤ n && n ≤ 13) || n == 0x20 || n == 0x85 || n == 0xA0 || n == 0x1680
    || (0x2000 ≤ n && n ≤ 0x200A) || n == 0x2028 || n == 0x2029 || n == 0x202F || n == 0x205F
    || n == 0x3000

/-- The text without the blanks at its two ends. -/
def trim (text : List Char) : List Char :=
  ((text.dropWhile isBlank).reverse.dropWhile isBlank).reverse

/-- The longest stretches of characters that are not blank; `word` is the one being read, backwards.
-/
def wordsFrom (word : List Char) : List Char → List (List Char)
  | [] => if word.isEmpty then [] else [word.reverse]
  | c :: rest =>
    if isBlank c then
      if word.isEmpty then wordsFrom [] rest else word.reverse :: wordsFrom [] rest
    else wordsFrom (c :: word) rest

/-- The longest stretches of characters that are not blank, in order. -/
def words (text : List Char) : List (List Char) := wordsFrom [] text

variable {α : Type} [BEq α]

/-- The lines of a text over any alphabet; `line` is the one being read, backwards. -/
def linesFrom (feed carriage : α) (line : List α) : List α → List (List α)
  | [] => if line.isEmpty then [] else [line.reverse]
  | c :: rest =>
    if c == feed then
      (if line.head? == some carriage then line.tail else line).reverse
        :: linesFrom feed carriage [] rest
    else linesFrom feed carriage (c :: line) rest

/-- The lines of a text: what ends at a line feed, less that feed and a carriage return right before
it, and what stands after the last feed unless it is empty. -/
def lines (feed carriage : α) (text : List α) : List (List α) := linesFrom feed carriage [] text

end Crossroads.Text

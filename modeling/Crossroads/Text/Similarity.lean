/-!
# How alike two words are

Words are compared by two measures, which can be any (`Likeness`).  The usual ones lie between 0 and
1, and are 1 for equal words: the edit distance taken relative to the longer word (`closeness`), and
the share of characters that match nearby, raised for a common beginning (`jaroWinkler`).
-/

namespace Crossroads.Text

/-- Two measures of how alike two words are. -/
structure Likeness where
  /-- Rewards what the beginnings have in common. -/
  byMatches : List Char → List Char → Float
  /-- Goes by the edits that lead from one to the other. -/
  byEdits : List Char → List Char → Float

namespace Similarity

/-! ## Edit distance -/

/-- The rest of a row of the distance table: `c` is the row's character, `left` the entry before,
`diagonal` the entry above that one, and the lists hold the other word and the row above. -/
def extendRow (c : Char) : Nat → Nat → List Char → List Nat → List Nat
  | left, diagonal, d :: word, above :: row =>
    let entry := min (min (left + 1) (above + 1)) (diagonal + if c == d then 0 else 1)
    entry :: extendRow c entry above word row
  | _, _, _, _ => []

/-- The row of the distance table after one more character of the first word. -/
def nextRow (word : List Char) (row : List Nat) (c : Char) : List Nat :=
  match row with
  | [] => []
  | first :: rest => (first + 1) :: extendRow c (first + 1) first word rest

/-- The least number of insertions, deletions and replacements that turn one word into another. -/
def editDistance (a b : List Char) : Nat :=
  (a.foldl (nextRow b) (List.range (b.length + 1))).getLastD 0

/-- One minus the edit distance over the longer word's length. -/
def closeness (a b : List Char) : Float :=
  if a.isEmpty && b.isEmpty then 1.0
  else 1.0 - (editDistance a b).toFloat / (max a.length b.length).toFloat

/-! ## Matches nearby -/

/-- Takes the first free `c` at a position from `low` up to, and without, `high`. -/
def claim (c : Char) : Nat → Nat → List (Char × Bool) → Option (List (Char × Bool))
  | _, 0, _ => none
  | _, _, [] => none
  | low, high + 1, (d, taken) :: rest =>
    if low == 0 && d == c && !taken then some ((d, true) :: rest)
    else (claim c (low - 1) high rest).map ((d, taken) :: ·)

/-- The characters of the first word that find a partner within `reach`, in order, and the second
word with the partners marked; `i` is the position of the first word's next character. -/
def pairUp (reach : Nat) : Nat → List Char → List (Char × Bool) → List Char × List (Char × Bool)
  | _, [], word => ([], word)
  | i, c :: rest, word =>
    match claim c (i - reach) (i + reach + 1) word with
    | some word' =>
      let (found, last) := pairUp reach (i + 1) rest word'
      (c :: found, last)
    | none => pairUp reach (i + 1) rest word

/-- The mean of three shares: of each word's characters that match nearby, and of the matches that
stand in the same order. -/
def jaro (a b : List Char) : Float :=
  if a.isEmpty && b.isEmpty then 1.0
  else if a.isEmpty || b.isEmpty then 0.0
  else
    let (found, marked) := pairUp (max a.length b.length / 2 - 1) 0 a (b.map (·, false))
    let partners := (marked.filter (·.2)).map (·.1)
    let swaps := ((found.zip partners).countP fun (c, d) => c != d) / 2
    let hits := found.length
    if hits == 0 then 0.0
    else (hits.toFloat / a.length.toFloat + hits.toFloat / b.length.toFloat
      + (hits - swaps).toFloat / hits.toFloat) / 3.0

/-- The length of the common beginning of two words. -/
def commonPrefix : List Char → List Char → Nat
  | c :: a, d :: b => if c == d then commonPrefix a b + 1 else 0
  | _, _ => 0

/-- `jaro`, raised for words above 0.7 by a tenth of the rest for each of the first four characters
in common. -/
def jaroWinkler (a b : List Char) : Float :=
  let base := jaro a b
  if base > 0.7 then base + 0.1 * (commonPrefix (a.take 4) b).toFloat * (1.0 - base) else base

end Similarity

/-- The usual measures. -/
def Likeness.standard : Likeness := ⟨Similarity.jaroWinkler, Similarity.closeness⟩

end Crossroads.Text

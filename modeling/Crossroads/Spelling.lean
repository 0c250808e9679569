import Crossroads.Text.Lowercase
import Crossroads.Text.Similarity

/-!
# Suggesting the name that was meant

A misspelled name is compared with the known ones, all in lower case.  `score` mixes two measures of
likeness, which are given, and rewards a like beginning; `suggest` offers the first name of the highest
score, if that score reaches `threshold`.  A name that is known up to case needs no correction.
-/

namespace Crossroads.Spelling

/-- The least score that is worth a suggestion. -/
def threshold : Float := 0.65

open Text (Likeness)

/-- The bonus for a like beginning: both words are cut at the length of the input, at most seven
characters; inputs below four characters earn none. -/
def beginningBonus (likeness : Likeness) (input candidate : List Char) : Float :=
  let n := min input.length 7
  if 4 ≤ n then
    let alike := likeness.byEdits (input.take n) (candidate.take n)
    if alike > 0.7 then 0.1 * alike else 0.0
  else 0.0

/-- How well a candidate fits the input, both in lower case. -/
def score (likeness : Likeness) (input candidate : List Char) : Float :=
  likeness.byMatches input candidate * 0.7
    + likeness.byEdits input candidate * 0.3
    + beginningBonus likeness input candidate

/-- A text in lower case. -/
def fold (text : String) : List Char := Text.Lowercase.toLower text.toList

/-- Keeps the better of the best so far and a new candidate; the earlier one wins a tie. -/
def better (likeness : Likeness) (input : List Char) (best : Option (Float × String))
    (candidate : String) : Option (Float × String) :=
  let s := score likeness input (fold candidate)
  let improves := match best with
    | some (top, _) => decide (s > top)
    | none => true
  if s ≥ threshold && improves then some (s, candidate) else best

/-- The name among `known` that `input` was most likely meant to be. -/
def suggest (likeness : Likeness) (input : String) (known : List String) : Option String :=
  let word := fold input
  if known.any fun name => fold name == word then none
  else (known.foldl (better likeness word) none).map (·.2)

end Crossroads.Spelling

import Crossroads.Text.Lowercase.Table

/-!
# Lower case

`toLower` maps a text to lower case, one character at a time by the tables, with the two rules that
look at more than the character: the dotted capital I becomes two characters, and a capital sigma
becomes a final sigma at the end of a word.
-/

namespace Crossroads.Text.Lowercase

/-- The character lies in one of the ranges. -/
def inRanges (ranges : List (Nat × Nat)) (c : Char) : Bool :=
  ranges.any fun (first, last) => first ≤ c.toNat && c.toNat ≤ last

/-- The character's own lower-case form; itself if it has none. -/
def ofChar (c : Char) : Char :=
  if c.toNat < 128 then c.toLower
  else
    match runs.find? fun r => r.first ≤ c.toNat && c.toNat ≤ r.last with
    | some r => if (c.toNat - r.first) % r.step = 0 then Char.ofNat (c.toNat + r.shift).toNat else c
    | none => c

/-- The first character that is not transparent has case. -/
def startsCased (text : List Char) : Bool :=
  match text.dropWhile (inRanges transparent) with
  | c :: _ => inRanges cased c
  | [] => false

/-- Lower case of a text, given what stands before it, nearest character first. -/
def toLowerAfter (before : List Char) : List Char → List Char
  | [] => []
  | 'Σ' :: rest =>
    (if startsCased before && !startsCased rest then 'ς' else 'σ')
      :: toLowerAfter ('Σ' :: before) rest
  | 'İ' :: rest => 'i' :: '\u0307' :: toLowerAfter ('İ' :: before) rest
  | c :: rest => ofChar c :: toLowerAfter (c :: before) rest

/-- Lower case of a text. -/
def toLower (text : List Char) : List Char := toLowerAfter [] text

end Crossroads.Text.Lowercase

import Crossroads.Box

/-!
# Nodes of a tree of boxes

A node has parts and keeps a box around them.  Here is what happens at one node, whatever its parts
are: which of them is to take in another box (`Node.choose?`), which of them leave it when they are
too many (`Node.overflow`), and how it is split in two (`Node.split`).

A node that was split has at least three parts, and none has more than six.
-/

namespace Crossroads.BoxTree

/-- A node of a tree of boxes. -/
structure Node (K α : Type) where
  box : Box K
  parts : List α

variable {K α : Type} [Scalar K]

/-- The costs are lower, the first that differ counting. -/
def cheaper : List K → List K → Bool
  | a :: as, b :: bs => if a == b then cheaper as bs else decide (a < b)
  | _, _ => false

/-- The first item of the lowest costs. -/
def cheapest? {β : Type} (costs : β → List K) : List β → Option β
  | [] => none
  | first :: rest =>
    some (rest.foldl (fun best b => if cheaper (costs b) (costs best) then b else best) first)

namespace Node

/-- No node has more parts. -/
def most : Nat := 6

/-- A node that was split has no fewer parts. -/
def fewest : Nat := 3

/-- So many parts leave a node that has too many. -/
def leaving : Nat := 2

variable (box : α → Box K)

/-- The node of some parts. -/
def ofParts? (parts : List α) : Option (Node K α) :=
  (Box.hull? (parts.map box)).map fun hull => ⟨hull, parts⟩

/-- The node with its box fitted to its parts. -/
def fit (node : Node K α) : Node K α := (ofParts? box node.parts).getD node

/-- The node with one more part. -/
def push (node : Node K α) (part : α) : Node K α :=
  ⟨node.box.around (box part), node.parts ++ [part]⟩

/-- The node without a part, in whose place comes the last one. -/
def takeOut (node : Node K α) (place : Nat) : Node K α :=
  match node.parts.getLast? with
  | some last => { node with parts := (node.parts.set place last).dropLast }
  | none => node

/-! ## Choosing a part -/

/-- The area that a box has in common with boxes, taken together. -/
def overlap (own : Box K) (others : List (Box K)) : K :=
  others.foldl (fun total other => total + (own.common other).area) 0.0

/-- What it costs to take a box in: how much the overlap with the other parts grows, if that is
heeded, how much the area grows, and the area then. -/
def costs (heedOverlap : Bool) (own new : Box K) (others : List (Box K)) : List K :=
  let grown := own.around new
  let growth := if heedOverlap then overlap grown others - overlap own others else 0.0
  [growth, grown.area - own.area, grown.area]

/-- The part to take a box in, with its place: the smallest of those that enclose it, or else the
one at the lowest cost.  Where all that enclose it are too large for their areas to be compared, it
is the first part. -/
def choose? (heedOverlap : Bool) (new : Box K) (parts : List α) : Option (α × Nat) :=
  match parts.zipIdx.filter fun (part, _) => (box part).encloses new with
  | [] =>
    cheapest?
      (fun (part, i) => costs heedOverlap (box part) new ((parts.eraseIdx i).map box))
      parts.zipIdx
  | enclosing =>
    let comparable := enclosing.filter fun (part, _) =>
      (Scalar.greatest? : Option K).all fun far => decide ((box part).area < far)
    cheapest? (fun (part, _) => [(box part).area]) comparable <|> parts.zipIdx.head?

/-! ## Too many parts -/

/-- The node, and what leaves it if its parts are too many: those farthest from its middle, the
farthest first. -/
def overflow (node : Node K α) : Node K α × List α :=
  if node.parts.length ≤ most then (node, [])
  else
    let distance (part : α) := Point.distanceSquared (box part).middle node.box.middle
    let sorted := node.parts.mergeSort fun a b => !decide (distance b < distance a)
    let (near, far) := sorted.splitAt (sorted.length - leaving)
    (fit box ⟨node.box, near⟩, far.reverse)

/-- The parts in the order of their lower corners along an axis. -/
def along (axis : Point K → K) (parts : List α) : List α :=
  parts.mergeSort fun a b => !decide (axis (box b).lower < axis (box a).lower)

/-- The ways to cut a list in two that leave enough parts on each side. -/
def cuts (parts : List α) : List (List α × List α) :=
  (List.range' fewest (parts.length + 1 - 2 * fewest)).map fun size => parts.splitAt size

/-- How far it is around the two sides of a cut. -/
def rim (cut : List α × List α) : K :=
  let girth (side : List α) := ((Box.hull? (side.map box)).map Box.girth).getD 0.0
  girth cut.1 + girth cut.2

/-- The parts along the axis on which some cut has the shortest rim. -/
def spread (parts : List α) : List α :=
  let across := along box Point.x parts
  let upward := along box Point.y across
  let rims := (cuts across).map (fun cut => (rim box cut, true))
    ++ (cuts upward).map fun cut => (rim box cut, false)
  match cheapest? (fun r => [r.1]) rims with
  | some (_, true) => along box Point.x upward
  | _ => upward

/-- The box around one side of a cut. -/
def around? : List α → Option (Box K)
  | [] => none
  | part :: rest => some (rest.foldl (fun hull next => hull.around (box next)) (box part))

/-- What a cut costs: the overlap of its sides, and their areas. -/
def cutCosts (cut : List α × List α) : List K :=
  match around? box cut.1, around? box cut.2 with
  | some r, some s => [(r.common s).area, r.area + s.area]
  | _, _ => []

/-- The node, and the one that is split off it if its parts are too many. -/
def split (node : Node K α) : Node K α × Option (Node K α) :=
  if node.parts.length ≤ most then (node, none)
  else match cheapest? (cutCosts box) (cuts (spread box node.parts)) with
    | some (kept, off) => (fit box ⟨node.box, kept⟩, ofParts? box off)
    | none => (node, none)

end Node

end Crossroads.BoxTree

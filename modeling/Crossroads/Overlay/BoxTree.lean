import Crossroads.Overlay.BoxTree.Node
import Crossroads.Overlay.Stretch
import Crossroads.Selection

/-!
# Trees of boxes

A tree of boxes finds the stretches near a point without a look at all of them: what lies in a node
is looked at only if the node's box is near.  All stretches lie equally deep (`Layer`).

A new stretch goes down to a node of stretches.  If that has too many parts now, some leave it and
are settled elsewhere, by splitting the nodes that have too many for them (`insert`).

As long as all coordinates are numbers, a box encloses what its node holds.  A coordinate that is no
number spoils the boxes it comes into, until a later one covers it up, and what lies in a spoiled
box may not be found.  What is found is near in any case (`isWithin_of_mem_within`).
-/

namespace Crossroads

namespace BoxTree

variable {K : Type} [Scalar K]

/-- What a tree is made of at a height: stretches at the ground, and nodes above. -/
def Layer (K : Type) : Nat → Type
  | 0 => Stretch K
  | height + 1 => Node K (Layer K height)

namespace Layer

/-- The box around a stretch, or the box of a node. -/
def box : {height : Nat} → Layer K height → Box K
  | 0, s => Stretch.box s
  | _ + 1, node => Node.box node

/-- The number of stretches and nodes. -/
def size : {height : Nat} → Layer K height → Nat
  | 0, _ => 1
  | _ + 1, node => (Node.parts node).foldr (fun part total => size part + total) 1

/-! ## Adding a stretch -/

/-- The part of a node that is to take in a stretch; overlap is heeded right above the stretches. -/
def choose? {height : Nat} (s : Stretch K) (parts : List (Layer K (height + 1))) :
    Option (Layer K (height + 1) × Nat) :=
  Node.choose? box (height == 0) s.box parts

/-- A node with one more stretch, and the stretches that leave it if they are too many then. -/
def place (s : Stretch K) : {height : Nat} → Layer K (height + 1) →
    Layer K (height + 1) × List (Stretch K)
  | 0, node => Node.overflow Stretch.box (Node.push Stretch.box node s)
  | _ + 1, node =>
    match choose? s (Node.parts node) with
    | none => (node, [])
    | some (child, i) =>
      let (child, left) := place s child
      let grown : Node K _ := ⟨(Node.box node).around s.box, (Node.parts node).set i child⟩
      (if left.isEmpty then grown else grown.fit box, left)

/-- A node with one more stretch, and what is split off it if it has too many parts then. -/
def settle (s : Stretch K) : {height : Nat} → Layer K (height + 1) →
    Layer K (height + 1) × Option (Layer K (height + 1))
  | 0, node => Node.split Stretch.box (Node.push Stretch.box node s)
  | _ + 1, node =>
    match choose? s (Node.parts node) with
    | none => (node, none)
    | some (child, i) =>
      let (child, off) := settle s child
      let grown : Node K _ := ⟨(Node.box node).around s.box, (Node.parts node).set i child⟩
      match off with
      | none => (grown, none)
      | some off => Node.split box (grown.push box off)

/-! ## Removing a stretch -/

/-- A node without a stretch, if its boxes lead there; it may be left without parts. -/
def remove? (s : Stretch K) : {height : Nat} → Layer K (height + 1) → Option (Layer K (height + 1))
  | 0, node =>
    if (Node.box node).encloses s.box then
      ((Node.parts node).findIdx? fun t => t == s).map fun i =>
        Node.fit Stretch.box (Node.takeOut node i)
    else none
  | height + 1, node =>
    if (Node.box node).encloses s.box then
      (Node.parts node).zipIdx.findSome? fun (child, i) =>
        (remove? s child).map fun (child : Layer K (height + 1)) =>
          let rest := Node.takeOut node i
          let kept := if (Node.parts child).isEmpty then [] else [child]
          Node.fit box { rest with parts := rest.parts ++ kept }
    else none

/-! ## Searching -/

/-- The stretches within a distance of a point, which is given by its square. -/
def within (reach : K) (p : Point K) : {height : Nat} → Layer K height → List (Stretch K)
  | 0, s => if Stretch.isWithin reach p s then [s] else []
  | _ + 1, node =>
    if (Node.box node).distanceSquared p ≤ reach then (Node.parts node).flatMap (within reach p)
    else []

/-- A node is left out or gone through, but nothing is added. -/
theorem isWithin_of_mem_within {reach : K} {p : Point K} {s : Stretch K} :
    {height : Nat} → {layer : Layer K height} → s ∈ layer.within reach p → s.isWithin reach p
  | 0, t, h => by
    unfold within at h
    split at h
    · rename_i near
      rw [List.mem_singleton.mp h]
      exact near
    · cases h
  | _ + 1, node, h => by
    unfold within at h
    split at h
    · obtain ⟨part, _, h⟩ := List.mem_flatMap.mp h
      exact isWithin_of_mem_within h
    · cases h

/-- The square of the distance from a point: that of a stretch, or of a node's box. -/
def distanceSquared (p : Point K) : {height : Nat} → Layer K height → K
  | 0, s => Stretch.distanceSquared s p
  | _ + 1, node => (Node.box node).distanceSquared p

/-! ## Building -/

/-- A list cut along an axis into slabs of a size, with so many cuts at most: no stretch starts
before one in an earlier slab. -/
def slabs (axis : Point K → K) (size : Nat) : Nat → List (Stretch K) → List (List (Stretch K))
  | 0, stretches => [stretches]
  | cuts + 1, stretches =>
    if stretches.length ≤ size then [stretches]
    else
      let before (s t : Stretch K) := decide (axis s.box.lower < axis t.box.lower)
      let chosen := Selection.select before size stretches
      chosen.take size :: slabs axis size cuts (chosen.drop size)

/-- A list cut along an axis into so many slabs of one size; the last comes first and may be smaller.
-/
def cut (axis : Point K → K) (count : Nat) (stretches : List (Stretch K)) :
    List (List (Stretch K)) :=
  (slabs axis ((stretches.length + count - 1) / count) (count - 1) stretches).reverse

/-- A node over stretches, not more than one of its height can hold: they are cut along both axes,
into pieces that nodes of the height below can hold. -/
def build? : (height : Nat) → List (Stretch K) → Option (Layer K (height + 1))
  | 0, stretches => Node.ofParts? Stretch.box stretches
  | height + 1, stretches =>
    let count := if stretches.length ≤ 4 * Nat.pow Node.most (height + 1) then 2 else 3
    let pieces := (cut Point.y count stretches).flatMap (cut Point.x count)
    Node.ofParts? box (pieces.filterMap (build? height))

end Layer

/-- The least height at which one node can hold so many stretches. -/
def heightFor (count : Nat) : Nat :=
  if count ≤ Node.most then 0 else heightFor ((count + Node.most - 1) / Node.most) + 1
termination_by count
decreasing_by simp only [Node.most] at *; omega

end BoxTree

open BoxTree in
/-- A tree of boxes over stretches. -/
inductive BoxTree (K : Type) where
  | empty
  | root {height : Nat} (node : Layer K (height + 1))

namespace BoxTree

variable {K : Type} [Scalar K]

/-- The tree over a list of stretches. -/
def ofList (stretches : List (Stretch K)) : BoxTree K :=
  ((Layer.build? (heightFor stretches.length) stretches).map root).getD empty

/-- The tree with a stretch that has left a node; where its root is split, a new one comes above. -/
def settle (tree : BoxTree K) (s : Stretch K) : BoxTree K :=
  match tree with
  | empty => ofList [s]
  | root node =>
    match node.settle s with
    | (node, none) => root node
    | (node, some off) =>
      let above : Node K (Layer K _) := ⟨node.box.around off.box, [node, off]⟩
      @root K (_ + 1) above

/-- The tree with one more stretch. -/
def insert (tree : BoxTree K) (s : Stretch K) : BoxTree K :=
  match tree with
  | empty => ofList [s]
  | root node =>
    let (node, left) := node.place s
    left.foldl settle (root node)

/-- The tree without a stretch, if its boxes lead there. -/
def remove? (tree : BoxTree K) (s : Stretch K) : Option (BoxTree K) :=
  match tree with
  | empty => none
  | root node =>
    (node.remove? s).map fun node => if (Node.parts node).isEmpty then empty else root node

/-- The stretches within a distance of a point, which is given by its square. -/
def within (reach : K) (p : Point K) : BoxTree K → List (Stretch K)
  | empty => []
  | root node => node.within reach p

/-- What a tree finds is within the distance. -/
theorem isWithin_of_mem_within {reach : K} {p : Point K} {s : Stretch K} {tree : BoxTree K}
    (h : s ∈ tree.within reach p) : s.isWithin reach p := by
  cases tree with
  | empty => cases h
  | root node => exact Layer.isWithin_of_mem_within h

/-- Something that a search has come upon: a stretch or a node. -/
abbrev Sight (K : Type) := (height : Nat) × Layer K height

/-- Sights in order of distance from a point.  Of equally distant ones nodes come first, and
stretches are in order of feature and index. -/
def Sight.closer (p : Point K) (a b : Sight K) : Bool :=
  match a, b with
  | ⟨0, s⟩, ⟨0, t⟩ => Stretch.closer p s t
  | ⟨0, s⟩, ⟨_ + 1, node⟩ => decide (Stretch.distanceSquared s p < node.distanceSquared p)
  | ⟨_ + 1, node⟩, ⟨_, other⟩ => !decide (other.distanceSquared p < node.distanceSquared p)

/-- The stretches in sight, the closest to a point first; when a node is closest, its parts come in
sight. -/
def inOrder (p : Point K) : (fuel : Nat) → List (Sight K) → List (Stretch K)
  | 0, _ => []
  | fuel + 1, sights =>
    match sights.mergeSort (Sight.closer p) with
    | [] => []
    | ⟨0, s⟩ :: rest => s :: inOrder p fuel rest
    | ⟨_ + 1, node⟩ :: rest =>
      inOrder p fuel ((Node.parts node).map (fun part => ⟨_, part⟩) ++ rest)

/-- The stretches, the closest to a point first as far as the boxes tell. -/
def closest (tree : BoxTree K) (p : Point K) : List (Stretch K) :=
  match tree with
  | empty => []
  | root node => inOrder p node.size [⟨_, node⟩]

end BoxTree

end Crossroads

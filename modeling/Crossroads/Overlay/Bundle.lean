import Crossroads.Overlay.BoxTree
import Crossroads.Overlay.StretchIndex

/-!
# Bundles of stretches

A bundle holds stretches in a list and in a tree of boxes.  As long as all coordinates are numbers
the tree finds what a look at every stretch finds, so the list says what is near a point and what is
closest to it.  Otherwise it is for the tree to say, whose boxes may be spoiled.
-/

namespace Crossroads

/-- Stretches that can be searched. -/
structure Bundle (K : Type) where
  stretches : List (Stretch K) := []
  tree : BoxTree K := .empty

namespace Bundle

variable {K : Type} [Scalar K]

/-- The bundle of a list of stretches. -/
def ofList (stretches : List (Stretch K)) : Bundle K := ⟨stretches, .ofList stretches⟩

/-- All coordinates of a bundle are numbers. -/
def isMeasured (bundle : Bundle K) : Bool := bundle.stretches.all Stretch.isMeasured

/-- The bundle with one more stretch. -/
def insert (bundle : Bundle K) (s : Stretch K) : Bundle K :=
  ⟨bundle.stretches ++ [s], bundle.tree.insert s⟩

/-- The bundle without a stretch.  If some coordinate is no number, the stretch stays where the tree
does not find it. -/
def remove (bundle : Bundle K) (s : Stretch K) : Bundle K :=
  match bundle.tree.remove? s with
  | some tree => ⟨bundle.stretches.erase s, tree⟩
  | none => if bundle.isMeasured then ⟨bundle.stretches.erase s, bundle.tree⟩ else bundle

/-- The stretches within a distance of a point, which is given by its square. -/
def within (bundle : Bundle K) (reach : K) (p : Point K) : List (Stretch K) :=
  if bundle.isMeasured then bundle.stretches.filter (Stretch.isWithin reach p)
  else bundle.tree.within reach p

/-- The stretches, the closest to a point first. -/
def nearest (bundle : Bundle K) (p : Point K) : List (Stretch K) :=
  if bundle.isMeasured then
    bundle.stretches.mergeSort fun s t =>
      Scalar.notAfter (s.distanceSquared p) (t.distanceSquared p)
  else bundle.tree.closest p

end Bundle

/-- Bundles as indexes. -/
def StretchIndex.bundles (K : Type) [Scalar K] : StretchIndex K where
  State := Bundle K
  empty := {}
  ofList := Bundle.ofList
  insert := Bundle.insert
  remove := Bundle.remove
  within := Bundle.within
  nearest := Bundle.nearest
  contents := Bundle.stretches
  noFarther := Scalar.notAfter

end Crossroads

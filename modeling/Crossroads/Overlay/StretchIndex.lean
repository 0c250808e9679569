import Crossroads.Overlay.Stretch

/-!
# Indexes of stretches

An index holds stretches, each as often as it was put in, and is searched by place: for what is
within a distance of a point, and for all stretches with the closest first.  How it is built inside
is left open.  `StretchIndex.Lawful` says what can be relied on as long as all coordinates are
numbers; among stretches that are equally far, a search goes in any order.
-/

namespace Crossroads

/-- A kind of index of stretches. -/
structure StretchIndex (K : Type) where
  /-- What can be the state of the index. -/
  State : Type
  empty : State
  /-- The index of a list of stretches. -/
  ofList : List (Stretch K) → State
  /-- The index with one more stretch. -/
  insert : State → Stretch K → State
  /-- The index without a stretch. -/
  remove : State → Stretch K → State
  /-- The stretches within a distance of a point, which is given by its square, in any order. -/
  within : State → (reach : K) → Point K → List (Stretch K)
  /-- The stretches, the closest to a point first. -/
  nearest : State → Point K → List (Stretch K)
  /-- All stretches, in any order. -/
  contents : State → List (Stretch K)
  /-- In a search, the first distance does not come after the second. -/
  noFarther : K → K → Bool

/-- In a search neither distance comes before the other. -/
def StretchIndex.EquallyFar {K : Type} (index : StretchIndex K) (d e : K) : Prop :=
  index.noFarther d e = true ∧ index.noFarther e d = true

namespace Stretch

variable {K : Type} [Scalar K]

/-- All coordinates of the stretches are numbers. -/
def AllMeasured (stretches : List (Stretch K)) : Prop := ∀ s ∈ stretches, s.isMeasured = true

/-- What taking out a stretch does to stretches, in any order: one that is equal to it is gone, or
there was none. -/
inductive TakesOut (s : Stretch K) (before after : List (Stretch K)) : Prop
  | found {t : Stretch K} (same : (t == s) = true) (perm : before.Perm (t :: after))
  | missing (none : ∀ t ∈ before, (t == s) = false) (perm : before.Perm after)

end Stretch

/-- What can be relied on.  The contents of an index are those stretches that were put in and not
taken out, and searches find them.  Distances come in an order that is total, and in which lesser
numbers come first; where in it other distances come is up to the index. -/
class StretchIndex.Lawful {K : Type} [Scalar K] (index : StretchIndex K) : Prop where
  contents_empty : index.contents index.empty = []
  contents_ofList : ∀ stretches, (index.contents (index.ofList stretches)).Perm stretches
  contents_insert : ∀ q s, (index.contents (index.insert q s)).Perm (s :: index.contents q)
  contents_remove : ∀ {q} s, Stretch.AllMeasured (index.contents q) →
    Stretch.TakesOut s (index.contents q) (index.contents (index.remove q s))
  within_perm : ∀ {q} reach p, Stretch.AllMeasured (index.contents q) →
    (index.within q reach p).Perm ((index.contents q).filter (Stretch.isWithin reach p))
  nearest_perm : ∀ {q} p, Stretch.AllMeasured (index.contents q) →
    (index.nearest q p).Perm (index.contents q)
  nearest_sorted : ∀ {q} p, Stretch.AllMeasured (index.contents q) →
    (index.nearest q p).Pairwise fun s t =>
      index.noFarther (s.distanceSquared p) (t.distanceSquared p) = true
  noFarther_total : ∀ d e, index.noFarther d e = true ∨ index.noFarther e d = true
  noFarther_trans : ∀ {d e f}, index.noFarther d e = true → index.noFarther e f = true →
    index.noFarther d f = true
  noFarther_of_lt : ∀ {d e : K}, d < e → index.noFarther e d = false

end Crossroads

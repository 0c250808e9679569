import Crossroads.Proofs.Overlay.Bundle
import Crossroads.Proofs.Overlay.Regular
import Crossroads.Proofs.Overlay.Roadbook
import Crossroads.Proofs.Point

/-!
# Roads near a junction

The real edges at a junction are made from the roads near it only, those with a stretch within reach.
Where no step rounds, no other road has an edge there: a vertex that is almost equal to the junction is
within reach of it, and the stretches at the vertex are no farther than the vertex itself.

* `Stretch.isWithin_iff` — what is within a distance, whose box is then, too.
* `Roadbook.regularEdges_addAll` — the real edges at a junction are those of all roads.
-/

namespace Crossroads

/-- Where no step rounds, every coordinate is a number. -/
theorem RoadLine.isMeasured_of_exact (road : RoadLine ℚ) : road.IsMeasured := by
  intro v _
  show (v.point.x == v.point.x && v.point.y == v.point.y) = true
  rw [beq_self_eq_true, beq_self_eq_true]
  rfl

namespace Stretch

/-- A stretch is within a distance just if its nearest point is. -/
theorem isWithin_iff (reach : ℚ) (p : Point ℚ) (s : Stretch ℚ) :
    s.isWithin reach p = true ↔ s.distanceSquared p ≤ reach := by
  rw [isWithin, Bool.and_eq_true, decide_eq_true_iff, decide_eq_true_iff]
  refine ⟨And.right, fun h => ⟨?_, h⟩⟩
  obtain ⟨t, hlow, hhigh, hproject⟩ := Point.exists_project_eq p s.a s.b
  have hinside : s.box.contains (s.project p) = true := by
    rw [project, hproject]
    exact Box.contains_between s.a s.b hlow hhigh
  exact (Box.distanceSquared_le hinside p).trans h

/-- A stretch is no farther than its ends. -/
theorem distanceSquared_le_ends (p : Point ℚ) (s : Stretch ℚ) :
    s.distanceSquared p ≤ Point.distanceSquared s.a p
      ∧ s.distanceSquared p ≤ Point.distanceSquared s.b p := by
  have hstart := Point.distanceSquared_project_le p s.a s.b (le_refl 0) zero_le_one
  have hstop := Point.distanceSquared_project_le p s.a s.b zero_le_one (le_refl 1)
  rw [Point.between_zero] at hstart
  rw [Point.between_one] at hstop
  exact ⟨hstart, hstop⟩

end Stretch

/-- Almost equal points are within reach of each other. -/
theorem Point.distanceSquared_le_reach {p q : Point ℚ} (h : p.almostEqual tolerance q = true) :
    distanceSquared q p ≤ Roadbook.reach := by
  have hnear := distanceSquared_lt_of_almostEqual h
  have hreach : (Roadbook.reach : ℚ) = 4 * (tolerance : ℚ) ^ 2 := by
    rw [sq, mul_comm]
    show (tolerance * tolerance * 4.0 : ℚ) = _
    norm_num
  have hpos := sq_nonneg (tolerance : ℚ)
  linarith

/-- A road with an edge at a junction has a stretch within reach of it. -/
theorem RoadLine.exists_isWithin {mode : Mode} {d : Direction} {cross : Junction ℚ}
    {id : FeatureId} {road : RoadLine ℚ} {e : Edge ℚ} (h : e ∈ road.edges mode d cross id) :
    ∃ s ∈ Stretch.ofRoad id road, s.isWithin Roadbook.reach cross.point = true := by
  obtain ⟨i, a, b, ahead, ha, hb, -, hclose, -⟩ := RoadLine.mem_edges_iff.mp h
  refine ⟨_, Stretch.mem_ofRoad_iff.mpr ⟨i, a, b, ha, hb, rfl⟩, ?_⟩
  rw [Stretch.isWithin_iff]
  obtain ⟨hstart, hstop⟩ :=
    Stretch.distanceSquared_le_ends cross.point ⟨a.point, b.point, id, UInt32.ofNat i⟩
  have hend := Point.distanceSquared_le_reach hclose
  cases d <;> cases ahead
  · exact hstop.trans hend
  · exact hstart.trans hend
  · exact hstart.trans hend
  · exact hstop.trans hend

/-- What is left out contributes nothing. -/
theorem flatMap_filter_of_forall {α β : Type} {f : α → List β} {keep : α → Bool} {l : List α}
    (h : ∀ x ∈ l, keep x = false → f x = []) : (l.filter keep).flatMap f = l.flatMap f := by
  induction l with
  | nil => rfl
  | cons x l ih =>
    have hrest := ih fun y hy => h y (List.mem_cons_of_mem _ hy)
    rw [List.filter_cons, List.flatMap_cons, ← hrest]
    split
    · exact List.flatMap_cons
    · rename_i hx
      rw [h x List.mem_cons_self (Bool.eq_false_iff.mpr hx), List.nil_append]

namespace Roadbook

variable {index : StretchIndex ℚ} [index.Lawful]

/-- Near or not, roads with edges at a junction are found. -/
theorem Kept.edges_eq {book : Roadbook index} (h : book.Kept) (j : Junction ℚ) (d : Direction) :
    book.source.edges j d
      = book.roads.toList.flatMap fun (id, road) => road.edges book.mode d j id := by
  rw [RoadSource.edges]
  show (book.near j.point).flatMap _ = _
  rw [h.near_eq]
  refine flatMap_filter_of_forall ?_
  rintro ⟨id, road⟩ - hfar
  refine List.eq_nil_iff_forall_not_mem.mpr fun e he => ?_
  obtain ⟨s, hs, hwithin⟩ := RoadLine.exists_isWithin he
  exact Bool.eq_false_iff.mp hfar (List.any_eq_true.mpr ⟨s, hs, hwithin⟩)

/-- Where no step rounds, the search for the roads near a junction loses nothing, whatever the index:
the real edges at the junction are those of all roads, each feature's last one, in increasing order
of features. -/
theorem regularEdges_addAll (mode : Mode) (maxSpeed : Float)
    (roads : List (FeatureId × RoadLine ℚ)) (j : Junction ℚ) (d : Direction) :
    let book := ({ mode, maxSpeed } : Roadbook index).addAll roads
    (∀ g : Overlay ℚ, { g with source := book.source }.regularEdges j d
        = book.roads.toList.flatMap fun (id, road) => road.edges mode d j id)
      ∧ (book.roads.toList.map Prod.fst).Pairwise (· < ·)
      ∧ ∀ id road, (id, road) ∈ book.roads.toList ↔ lastRoad? id roads = some road := by
  intro book
  have hkept : book.Kept := (kept_new mode maxSpeed).addAll fun entry _ =>
    entry.2.isMeasured_of_exact
  refine ⟨fun g => ?_, ?_, fun id road => ?_⟩
  · rw [Overlay.regularEdges, hkept.edges_eq, mode_addAll]
  · rw [Std.TreeMap.map_fst_toList_eq_keys]
    exact Std.TreeMap.ordered_keys.imp Std.compare_eq_lt.mp
  · rw [Std.TreeMap.mem_toList_iff_getElem?_eq_some, getElem?_roads_addAll]
    show (lastRoad? id roads).or none = some road ↔ _
    rw [Option.or_none]

end Roadbook

/-! ## A lane that is cut short -/

namespace Meadow

def well : Junction ℚ := ⟨⟨0, 0⟩, 0⟩

def oak : Junction ℚ := ⟨⟨1, 0⟩, 0⟩

def mill : Junction ℚ := ⟨⟨1, 1⟩, 0⟩

/-- A one-way lane past the oak, a path from there, and then the lane ends at the oak. -/
def roads : List (FeatureId × RoadLine ℚ) :=
  [(5, ⟨[well, oak, mill], 30.0, false⟩), (2, ⟨[oak, mill], 5.0, true⟩),
    (5, ⟨[well, oak], 30.0, false⟩)]

def book : Roadbook (StretchIndex.bundles ℚ) :=
  ({ mode := .obeyOneWay, maxSpeed := 30.0 } : Roadbook (StretchIndex.bundles ℚ)).addAll roads

theorem toList_roads : book.roads.toList
    = [(2, ⟨[oak, mill], 5.0, true⟩), (5, ⟨[well, oak], 30.0, false⟩)] := rfl

/-- Searched in a bundle, the roads at the oak are the path and what is left of the lane. -/
theorem into_oak : (StretchIndex.bundles ℚ).Lawful
    ∧ ({ source := book.source } : Overlay ℚ).regularEdges oak .ingoing
      = [.along 2 0 false oak mill, .along 5 0 true well oak] := by
  refine ⟨inferInstance, ?_⟩
  obtain ⟨hedges, -, -⟩ :=
    @Roadbook.regularEdges_addAll (.bundles ℚ) _ .obeyOneWay 30.0 roads oak .ingoing
  refine (hedges { source := book.source }).trans ?_
  show book.roads.toList.flatMap _ = _
  have hoak : oak.almostEqual Point.tolerance oak = true := by decide +kernel
  have hwell : oak.almostEqual Point.tolerance well = false := by decide +kernel
  have hmill : oak.almostEqual Point.tolerance mill = false := by decide +kernel
  rw [toList_roads]
  simp only [RoadLine.edges, List.zipIdx_cons, List.zipIdx_nil, List.flatMap_cons, List.flatMap_nil,
    hoak, hwell, hmill, if_true, Bool.false_eq_true, if_false]
  rfl

end Meadow

end Crossroads

import Crossroads.Proofs.Graph.Places
import Crossroads.Region.RoutingSection

/-!
# Routing sections and the order of features

The routing section of a region has one form.  Features may come in any order, the cells of a survey
may be visited in any order, and points and joints may be sorted by any method: a list has one sorted
form (`Sorts.unique`), and surveys of the same features have the same road points in each cell, but
for their order (`Survey.perm_cell`).

* `Joint.arranges_iff` — however points and joints are sorted, the joints are the same.
* `Survey.masks_eq_of_perm`, `Survey.joints_eq_of_perm` — surveys of the same features agree.
* `RoutingSection.encode_eq_of_perm` — the same features make the same section.
-/

namespace Crossroads

/-! ## Sorting -/

/-- The second list is the first one sorted. -/
structure Sorts {α : Type} [Ord α] (before after : List α) : Prop where
  perm : after.Perm before
  sorted : after.Pairwise fun a b => (compare a b).isLE = true

section Sorting

variable {α : Type} [Ord α] [Std.TransOrd α]

theorem sorts_mergeSort (l : List α) : Sorts l (l.mergeSort fun a b => (compare a b).isLE) where
  perm := List.mergeSort_perm _ _
  sorted := by
    apply List.pairwise_mergeSort
    · intro a b c hab hbc
      exact Std.TransCmp.isLE_trans hab hbc
    · intro a b
      have hswap : compare b a = (compare a b).swap := Std.OrientedCmp.eq_swap
      rw [hswap]
      cases compare a b <;> rfl

/-- Elements in the same place of the order are the same, so there is one sorted list. -/
theorem Sorts.unique [Std.LawfulEqOrd α] {before before' after after' : List α}
    (h : Sorts before after) (h' : Sorts before' after') (hperm : before.Perm before') :
    after = after' := by
  refine List.Perm.eq_of_pairwise ?_ h.sorted h'.sorted
    (h.perm.trans (hperm.trans h'.perm.symm))
  intro a b _ _ hab hba
  exact Std.LawfulEqOrd.eq_of_compare (Std.OrientedCmp.isLE_antisymm hab hba)

end Sorting

/-! ## Joints -/

namespace Joint

theorem normalized_eq_of_perm {points points' : List RoadPoint} (h : points.Perm points') :
    normalized points = normalized points' :=
  (sorts_mergeSort points).unique (sorts_mergeSort points') h

theorem ofClusters_eq_of_perm {clusters clusters' : List (List RoadPoint)}
    (h : clusters.Perm clusters') : ofClusters clusters = ofClusters clusters' :=
  (sorts_mergeSort _).unique (sorts_mergeSort _) ((h.filter _).map _)

/-- The joints come from clusters by sorting: the points of each cluster with two or more, and then
the joints. -/
def Arranges (clusters : List (List RoadPoint)) (joints : List Joint) : Prop :=
  ∃ sorted : List Joint,
    List.Forall₂ Sorts (clusters.filter fun points => 2 ≤ points.length) sorted ∧
      Sorts sorted joints

/-- However points and joints are sorted, the joints are the same. -/
theorem arranges_iff {clusters : List (List RoadPoint)} {joints : List Joint} :
    Arranges clusters joints ↔ joints = ofClusters clusters := by
  constructor
  · rintro ⟨sorted, hpoints, hjoints⟩
    have hsorted : (clusters.filter fun points => 2 ≤ points.length).map normalized = sorted := by
      rw [← List.forall₂_eq_eq_eq, List.forall₂_map_left_iff]
      refine hpoints.imp fun points joint hsorts => ?_
      exact (sorts_mergeSort points).unique hsorts (List.Perm.refl points)
    rw [ofClusters, hsorted]
    exact hjoints.unique (sorts_mergeSort sorted) (List.Perm.refl sorted)
  · rintro rfl
    refine ⟨_, ?_, sorts_mergeSort _⟩
    rw [List.forall₂_map_right_iff, List.forall₂_same]
    exact fun points _ => sorts_mergeSort points

end Joint

/-! ## Surveys -/

namespace Survey

variable {maskOf : Feature → Mask} {bits : Nat} {features features' : List Feature}

/-- Surveys of the same features have the same road points in each cell. -/
theorem perm_cell (h : features.Perm features') (cell : Cell) :
    ((ofFeatures maskOf bits features).cells.getD cell []).Perm
      ((ofFeatures maskOf bits features').cells.getD cell []) := by
  rw [getD_cells_ofFeatures, getD_cells_ofFeatures]
  exact ((h.flatMap_right _).filter _).map _

theorem perm_crowded (h : features.Perm features') :
    (ofFeatures maskOf bits features).crowded.Perm (ofFeatures maskOf bits features').crowded := by
  rw [List.perm_ext_iff_of_nodup (nodup_crowded _) (nodup_crowded _)]
  intro cell
  rw [mem_crowded, mem_crowded, (perm_cell h cell).length_eq]

theorem joints_eq_of_perm (h : features.Perm features') :
    (ofFeatures maskOf bits features).joints = (ofFeatures maskOf bits features').joints := by
  have hsame : ∀ cell, Joint.normalized ((ofFeatures maskOf bits features).cells.getD cell [])
      = Joint.normalized ((ofFeatures maskOf bits features').cells.getD cell []) := fun cell =>
    Joint.normalized_eq_of_perm (perm_cell h cell)
  rw [joints_eq, joints_eq]
  simp only [hsame]
  exact (sorts_mergeSort _).unique (sorts_mergeSort _) ((perm_crowded h).map _)

theorem masks_eq_of_perm (h : features.Perm features')
    (hdistinct : (features.map Feature.id).Nodup) :
    (ofFeatures maskOf bits features).masks = (ofFeatures maskOf bits features').masks := by
  have hdistinct' : (features'.map Feature.id).Nodup := (h.map Feature.id).nodup_iff.mp hdistinct
  refine Std.ExtTreeMap.ext_getElem? fun id => Option.ext fun mask => ?_
  rw [getElem?_masks_eq_some_iff maskOf bits hdistinct,
    getElem?_masks_eq_some_iff maskOf bits hdistinct']
  simp only [h.mem_iff]

end Survey

/-! ## Sections -/

namespace RoutingSection

/-- **The order of features does not matter.**  Surveys of the same features, whose numbers tell them
apart, have the same masks and the same joints; so they do whatever the order in which their cells
are visited and the way in which points and joints are sorted, and the sections have the same octets.
-/
theorem encode_eq_of_perm (maskOf : Feature → Mask) (bits : Nat) {features features' : List Feature}
    (hperm : features.Perm features') (hdistinct : (features.map Feature.id).Nodup) :
    let survey := Survey.ofFeatures maskOf bits features
    let survey' := Survey.ofFeatures maskOf bits features'
    survey.masks = survey'.masks ∧ survey.joints = survey'.joints ∧
    Joint.Arranges survey.cells.values survey.joints ∧
    ∀ visited visited' joints joints', visited.Perm survey.cells.values →
      visited'.Perm survey'.cells.values → Joint.Arranges visited joints →
      Joint.Arranges visited' joints' →
      joints = joints' ∧ encode ⟨survey.masks, joints⟩ = encode ⟨survey'.masks, joints'⟩ := by
  intro survey survey'
  have hmasks : survey.masks = survey'.masks := Survey.masks_eq_of_perm hperm hdistinct
  have hjoints : survey.joints = survey'.joints := Survey.joints_eq_of_perm hperm
  refine ⟨hmasks, hjoints, Joint.arranges_iff.mpr rfl, ?_⟩
  intro visited visited' joints joints' hvisited hvisited' harranges harranges'
  have hsame : joints = joints' := by
    rw [Joint.arranges_iff.mp harranges, Joint.arranges_iff.mp harranges',
      Joint.ofClusters_eq_of_perm hvisited, Joint.ofClusters_eq_of_perm hvisited']
    exact hjoints
  exact ⟨hsame, by rw [hsame, hmasks]⟩

end RoutingSection

/-! ## The ring and the lane the other way round -/

namespace Village

def reordered : List Feature := [lane, ring, brook]

/-- The village has one section, wherever one begins. -/
theorem encode_reordered : features.Perm reordered ∧ (features.map Feature.id).Nodup ∧
    let survey := Survey.ofFeatures maskOf 8 features
    let survey' := Survey.ofFeatures maskOf 8 reordered
    survey.masks = survey'.masks ∧
    RoutingSection.encode ⟨survey.masks, Joint.ofClusters survey.cells.values.reverse⟩
      = RoutingSection.encode ⟨survey'.masks, survey'.joints⟩ := by
  have hperm : ([ring, brook] ++ [lane]).Perm ([lane] ++ [ring, brook]) := List.perm_append_comm
  have hdistinct : (features.map Feature.id).Nodup := by decide
  obtain ⟨hmasks, -, -, hsame⟩ := RoutingSection.encode_eq_of_perm maskOf 8 hperm hdistinct
  obtain ⟨-, hencode⟩ := hsame _ _ _ _ (List.reverse_perm _) (List.Perm.refl _)
    (Joint.arranges_iff.mpr rfl) (Joint.arranges_iff.mpr rfl)
  exact ⟨hperm, hdistinct, hmasks, hencode⟩

end Village

end Crossroads

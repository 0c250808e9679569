import Crossroads.Graph.Survey
import Crossroads.Proofs.Graph.JointIndex
import Crossroads.Proofs.Tables
import Mathlib.Data.List.Nodup

/-!
# What surveys say about places

A survey marks the points of every road that somebody may use with the cells that they fall into.
The joints hold these road points by their cells (`Survey.mem_joints_iff`).  So if no two features
have the same number, the road points that meet one of them in a network with these joints are those
in its cell (`Network.mem_meeting_iff`).
-/

namespace Crossroads

namespace Joint

theorem mem_normalized {joint : Joint} {p : RoadPoint} : p ∈ joint.normalized ↔ p ∈ joint := by
  rw [normalized, List.mem_mergeSort]

end Joint

namespace Survey

variable (maskOf : Feature → Mask) (bits : Nat)

/-! ## Marks -/

/-- The road points of a feature with their cells; none if nobody may use it. -/
def marksOf (f : Feature) : List (RoadPoint × Cell) :=
  if (maskOf f).isEmpty then []
  else f.points.zipIdx.map fun (p, i) => (⟨f.id, UInt32.ofNat i⟩, Cell.ofPoint bits p)

/-- The road points of all features with their cells. -/
def marks (features : List Feature) : List (RoadPoint × Cell) :=
  features.flatMap (marksOf maskOf bits)

/-- The road points in a cell. -/
def within (cell : Cell) (marks : List (RoadPoint × Cell)) : List RoadPoint :=
  (marks.filter fun mark => mark.2 = cell).map Prod.fst

theorem mem_within {cell : Cell} {marks : List (RoadPoint × Cell)} {p : RoadPoint} :
    p ∈ within cell marks ↔ (p, cell) ∈ marks := by
  rw [within, List.mem_map]
  constructor
  · rintro ⟨⟨q, cell'⟩, hmem, rfl⟩
    obtain ⟨hmark, hcell⟩ := List.mem_filter.mp hmem
    rwa [← of_decide_eq_true hcell]
  · intro hmark
    exact ⟨(p, cell), List.mem_filter.mpr ⟨hmark, decide_eq_true rfl⟩, rfl⟩

theorem within_append (cell : Cell) (marks more : List (RoadPoint × Cell)) :
    within cell (marks ++ more) = within cell marks ++ within cell more := by
  rw [within, List.filter_append, List.map_append]
  rfl

theorem getD_cells_place (feature : FeatureId) (survey : Survey) (p : Point Coordinate × Nat)
    (cell : Cell) : (place bits feature survey p).cells.getD cell []
      = survey.cells.getD cell []
        ++ within cell [(⟨feature, UInt32.ofNat p.2⟩, Cell.ofPoint bits p.1)] := by
  rw [place, Std.TreeMap.getD_insert]
  by_cases hcell : Cell.ofPoint bits p.1 = cell
  · simp [within, hcell]
  · simp [within, hcell]

theorem getD_cells_foldl_place (feature : FeatureId) (survey : Survey)
    (points : List (Point Coordinate × Nat)) (cell : Cell) :
    (points.foldl (place bits feature) survey).cells.getD cell []
      = survey.cells.getD cell [] ++ within cell (points.map fun (p, i) =>
        ((⟨feature, UInt32.ofNat i⟩ : RoadPoint), Cell.ofPoint bits p)) := by
  induction points generalizing survey with
  | nil => exact (List.append_nil _).symm
  | cons p points ih =>
    rw [List.foldl_cons, ih, getD_cells_place, List.append_assoc, ← within_append]
    rfl

/-- A survey lists the road points of each cell in the order in which they come. -/
theorem getD_cells_ofFeatures (features : List Feature) (cell : Cell) :
    (ofFeatures maskOf bits features).cells.getD cell []
      = within cell (marks maskOf bits features) := by
  have hfold : ∀ survey : Survey, (features.foldl (add maskOf bits) survey).cells.getD cell []
      = survey.cells.getD cell [] ++ within cell (marks maskOf bits features) := by
    induction features with
    | nil => exact fun survey => (List.append_nil _).symm
    | cons f features ih =>
      intro survey
      have hadd : (add maskOf bits survey f).cells.getD cell []
          = survey.cells.getD cell [] ++ within cell (marksOf maskOf bits f) := by
        rw [add, marksOf]
        by_cases hempty : (maskOf f).isEmpty
        · rw [if_pos hempty, if_pos hempty]
          exact (List.append_nil _).symm
        · rw [if_neg hempty, if_neg hempty, getD_cells_foldl_place]
      rw [List.foldl_cons, ih, hadd, List.append_assoc, ← within_append]
      rfl
  exact hfold {}

/-! ## Joints -/

/-- The clusters of a survey, in the order of their cells. -/
theorem values_cells (survey : Survey) :
    survey.cells.values = survey.cells.keys.map fun cell => survey.cells.getD cell [] := by
  rw [values_eq_map_toList, ← Std.TreeMap.map_fst_toList_eq_keys, List.map_map]
  refine List.map_congr_left ?_
  rintro ⟨cell, points⟩ hentry
  have hget := Std.TreeMap.mem_toList_iff_getElem?_eq_some.mp hentry
  simp [Std.TreeMap.getD_eq_getD_getElem?, hget]

/-- The cells with two or more road points. -/
def crowded (survey : Survey) : List Cell :=
  survey.cells.keys.filter fun cell => 2 ≤ (survey.cells.getD cell []).length

theorem mem_crowded {survey : Survey} {cell : Cell} :
    cell ∈ survey.crowded ↔ 2 ≤ (survey.cells.getD cell []).length := by
  rw [crowded, List.mem_filter, Std.TreeMap.mem_keys, decide_eq_true_eq]
  refine and_iff_right_of_imp fun hmany => ?_
  by_contra hmissing
  rw [Std.TreeMap.getD_eq_fallback hmissing] at hmany
  cases hmany

theorem nodup_crowded (survey : Survey) : survey.crowded.Nodup := Std.TreeMap.nodup_keys.filter _

/-- Each joint lists the road points of a cell with two or more. -/
theorem joints_eq (survey : Survey) : survey.joints
    = (survey.crowded.map fun cell => Joint.normalized (survey.cells.getD cell [])).mergeSort
      fun a b => (compare a b).isLE := by
  rw [joints, Joint.ofClusters, values_cells, List.filter_map, List.map_map]
  rfl

theorem mem_joints_iff {survey : Survey} {joint : Joint} :
    joint ∈ survey.joints ↔ ∃ cell, 2 ≤ (survey.cells.getD cell []).length
      ∧ Joint.normalized (survey.cells.getD cell []) = joint := by
  rw [joints_eq, List.mem_mergeSort, List.mem_map]
  simp only [mem_crowded]

/-! ## Masks -/

theorem masks_foldl_place (feature : FeatureId) (survey : Survey)
    (points : List (Point Coordinate × Nat)) :
    (points.foldl (place bits feature) survey).masks = survey.masks := by
  induction points generalizing survey with
  | nil => rfl
  | cons p points ih => exact ih _

theorem masks_concat (features : List Feature) (f : Feature) :
    (ofFeatures maskOf bits (features ++ [f])).masks
      = if (maskOf f).isEmpty then (ofFeatures maskOf bits features).masks
        else (ofFeatures maskOf bits features).masks.insert f.id (maskOf f) := by
  rw [ofFeatures, List.foldl_append, List.foldl_cons, List.foldl_nil, ← ofFeatures, add]
  split
  · rfl
  · exact masks_foldl_place bits f.id _ _

/-- Of features that can be told apart, the table of masks has those that somebody may use. -/
theorem getElem?_masks_eq_some_iff {features : List Feature}
    (hdistinct : (features.map Feature.id).Nodup) {id : FeatureId} {mask : Mask} :
    (ofFeatures maskOf bits features).masks[id]? = some mask
      ↔ ∃ f ∈ features, f.id = id ∧ maskOf f = mask ∧ mask.isEmpty = false := by
  induction features using List.reverseRecOn with
  | nil => simp [ofFeatures]
  | append_singleton features f ih =>
    rw [List.map_append, List.nodup_append] at hdistinct
    obtain ⟨hdistinct, -, hapart⟩ := hdistinct
    rw [masks_concat]
    simp only [List.mem_append, List.mem_singleton, or_and_right, exists_or, exists_eq_left,
      ← ih hdistinct]
    by_cases hempty : (maskOf f).isEmpty
    · rw [if_pos hempty]
      refine (or_iff_left ?_).symm
      rintro ⟨-, rfl, hmask⟩
      simp [hempty] at hmask
    · rw [if_neg hempty, Std.ExtTreeMap.getElem?_insert]
      by_cases hid : f.id = id
      · subst hid
        have hfresh : (ofFeatures maskOf bits features).masks[f.id]? ≠ some mask := by
          rw [Ne, ih hdistinct]
          rintro ⟨g, hg, hid, -⟩
          exact hapart g.id (List.mem_map_of_mem hg) f.id (by simp) hid
        rw [if_pos (by simp), Option.some.injEq, or_iff_right hfresh]
        constructor
        · rintro rfl
          exact ⟨rfl, rfl, by simpa using hempty⟩
        · rintro ⟨-, hmask, -⟩
          exact hmask
      · simp [hid]

/-! ## Marks of features that can be told apart -/

section Distinct

variable {maskOf : Feature → Mask} {bits : Nat} {features : List Feature}

/-- The indexes of all points are words. -/
def Indexable (features : List Feature) : Prop :=
  ∀ f ∈ features, f.points.length ≤ UInt32.size

theorem mem_marksOf_iff {f : Feature} (h : f.points.length ≤ UInt32.size) {p : RoadPoint}
    {cell : Cell} : (p, cell) ∈ marksOf maskOf bits f ↔ (maskOf f).isEmpty = false
      ∧ f.id = p.feature ∧ ∃ point, f.points[p.index.toNat]? = some point
        ∧ Cell.ofPoint bits point = cell := by
  rw [marksOf]
  by_cases hempty : (maskOf f).isEmpty
  · simp [hempty]
  · rw [if_neg hempty, List.mem_map]
    constructor
    · rintro ⟨⟨point, i⟩, hpoint, heq⟩
      obtain ⟨rfl, rfl⟩ := Prod.mk.inj heq
      have hget : f.points[i]? = some point := List.mem_zipIdx_iff_getElem?.mp hpoint
      have hlt : i < UInt32.size := Nat.lt_of_lt_of_le (List.getElem?_eq_some_iff.mp hget).1 h
      have hi : (UInt32.ofNat i).toNat = i := UInt32.toNat_ofNat_of_lt' hlt
      refine ⟨by simpa using hempty, rfl, point, ?_, rfl⟩
      show f.points[(UInt32.ofNat i).toNat]? = some point
      rw [hi, hget]
    · rintro ⟨-, hid, point, hget, rfl⟩
      refine ⟨(point, p.index.toNat), List.mem_zipIdx_iff_getElem?.mpr hget, ?_⟩
      show ((⟨f.id, UInt32.ofNat p.index.toNat⟩, Cell.ofPoint bits point) : RoadPoint × Cell) = _
      rw [hid, UInt32.ofNat_toNat]

theorem mem_marks_iff (h : Indexable features) {p : RoadPoint} {cell : Cell} :
    (p, cell) ∈ marks maskOf bits features ↔ ∃ f ∈ features, (maskOf f).isEmpty = false
      ∧ f.id = p.feature ∧ ∃ point, f.points[p.index.toNat]? = some point
        ∧ Cell.ofPoint bits point = cell := by
  rw [marks, List.mem_flatMap]
  constructor
  · rintro ⟨f, hf, hmark⟩
    exact ⟨f, hf, (mem_marksOf_iff (h f hf)).mp hmark⟩
  · rintro ⟨f, hf, hmark⟩
    exact ⟨f, hf, (mem_marksOf_iff (h f hf)).mpr hmark⟩

/-- A road point falls into one cell. -/
theorem cell_unique (hdistinct : (features.map Feature.id).Nodup) (h : Indexable features)
    {p : RoadPoint} {cell cell' : Cell} (hmark : (p, cell) ∈ marks maskOf bits features)
    (hmark' : (p, cell') ∈ marks maskOf bits features) : cell = cell' := by
  obtain ⟨f, hf, -, hid, point, hget, rfl⟩ := (mem_marks_iff h).mp hmark
  obtain ⟨f', hf', -, hid', point', hget', rfl⟩ := (mem_marks_iff h).mp hmark'
  obtain rfl : f = f' := List.inj_on_of_nodup_map hdistinct hf hf' (hid.trans hid'.symm)
  rw [hget] at hget'
  rw [Option.some.inj hget']

/-- A joint that holds a road point holds the road points in its cell. -/
theorem mem_of_joint (hdistinct : (features.map Feature.id).Nodup) (h : Indexable features)
    {joint : Joint} (hjoint : joint ∈ (ofFeatures maskOf bits features).joints) {p : RoadPoint}
    {cell : Cell} (hmark : (p, cell) ∈ marks maskOf bits features) (hp : p ∈ joint)
    (q : RoadPoint) : q ∈ joint ↔ (q, cell) ∈ marks maskOf bits features := by
  obtain ⟨cell', -, rfl⟩ := mem_joints_iff.mp hjoint
  rw [Joint.mem_normalized, getD_cells_ofFeatures, mem_within] at hp ⊢
  rw [cell_unique hdistinct h hmark hp]

/-- The road points that meet one of them are those in its cell. -/
theorem mem_meeting_iff (hdistinct : (features.map Feature.id).Nodup) (h : Indexable features)
    (hfew : (ofFeatures maskOf bits features).joints.length ≤ UInt32.size) (g : Network)
    {p : RoadPoint} {cell : Cell} (hmark : (p, cell) ∈ marks maskOf bits features)
    (q : RoadPoint) :
    q ∈ (g.withJoints (ofFeatures maskOf bits features).joints).meeting p
      ↔ (q, cell) ∈ marks maskOf bits features := by
  generalize hjoints : (ofFeatures maskOf bits features).joints = joints at hfew ⊢
  have hindex : (g.withJoints joints).jointId? p = (JointIndex.ofJoints joints).joint? p := rfl
  cases hid : (JointIndex.ofJoints joints).joint? p with
  | some k =>
    obtain ⟨⟨joint, hjoint, hp⟩, -⟩ := (JointIndex.joint?_eq_some_iff hfew p k).mp hid
    have hmeeting : (g.withJoints joints).meeting p = joint := by
      rw [Network.meeting, hindex, hid, Option.bind_some]
      show joints[k.toNat]?.getD [p] = joint
      rw [hjoint, Option.getD_some]
    rw [hmeeting]
    refine mem_of_joint hdistinct h ?_ hmark hp q
    rw [hjoints]
    exact List.mem_of_getElem? hjoint
  | none =>
    have hmeeting : (g.withJoints joints).meeting p = [p] := by
      rw [Network.meeting, hindex, hid]
      rfl
    have hmem := mem_within.mpr hmark
    have hwithin : q ∈ within cell (marks maskOf bits features)
        ↔ (q, cell) ∈ marks maskOf bits features := mem_within
    rw [hmeeting, ← hwithin]
    have hfew : (within cell (marks maskOf bits features)).length < 2 := by
      by_contra hmany
      rw [JointIndex.joint?_eq_none_iff] at hid
      refine hid (Joint.normalized (within cell (marks maskOf bits features))) ?_ ?_
      · rw [← hjoints, mem_joints_iff]
        refine ⟨cell, ?_⟩
        rw [getD_cells_ofFeatures]
        exact ⟨by omega, rfl⟩
      · rwa [Joint.mem_normalized]
    have hone : within cell (marks maskOf bits features) = [p] := by
      have hpos := List.length_pos_of_mem hmem
      have hlength : (within cell (marks maskOf bits features)).length = 1 := by omega
      obtain ⟨r, hr⟩ := List.length_eq_one_iff.mp hlength
      rw [hr] at hmem ⊢
      rw [List.mem_singleton.mp hmem]
    rw [hone]

end Distinct

end Survey

end Crossroads

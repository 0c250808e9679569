import Crossroads.Proofs.Graph.Survey
import Mathlib.Data.Set.Card

/-!
# Joints are shared places

A survey merges the road points that fall into one cell.  If features can be told apart, every road
point is marked once (`Survey.nodup_marks`), so the clusters of different cells have no road point
in common (`Survey.pairwise_disjoint_joints`), and the joints are the cells that two or more road
points share.

* `Survey.mem_flatten_joints_iff` — the road points in joints are those that share their cell.
* `Survey.joints_are_shared_places` — what a network with the joints of a survey answers.
-/

namespace Crossroads

namespace Survey

variable {maskOf : Feature → Mask} {bits : Nat} {features : List Feature}

/-! ## Places of road points -/

/-- A point of a feature that somebody may use falls into a cell. -/
def LiesIn (maskOf : Feature → Mask) (bits : Nat) (features : List Feature) (p : RoadPoint)
    (cell : Cell) : Prop :=
  ∃ f ∈ features, (maskOf f).isEmpty = false ∧ f.id = p.feature ∧
    ∃ point, f.points[p.index.toNat]? = some point ∧ Cell.ofPoint bits point = cell

/-- Another road point falls into the same cell. -/
def Shared (maskOf : Feature → Mask) (bits : Nat) (features : List Feature) (p : RoadPoint) : Prop :=
  ∃ cell, LiesIn maskOf bits features p cell ∧
    ∃ q, q ≠ p ∧ LiesIn maskOf bits features q cell

/-! ## Marks without repetition -/

theorem map_fst_marksOf (f : Feature) : (marksOf maskOf bits f).map Prod.fst
    = if (maskOf f).isEmpty then []
      else (List.range' 0 f.points.length).map fun i => ⟨f.id, UInt32.ofNat i⟩ := by
  rw [marksOf, apply_ite (List.map Prod.fst), List.map_nil, List.map_map, ← List.zipIdx_map_snd,
    List.map_map]
  rfl

/-- Every road point is marked once. -/
theorem nodup_marks (hdistinct : (features.map Feature.id).Nodup) (h : Indexable features) :
    ((marks maskOf bits features).map Prod.fst).Nodup := by
  rw [marks, List.map_flatMap, List.nodup_flatMap]
  constructor
  · intro f hf
    rw [map_fst_marksOf]
    split
    · exact List.nodup_nil
    · refine List.Nodup.map_on ?_ List.nodup_range'
      intro i hi j hj heq
      have hsize := h f hf
      rw [List.mem_range'_1] at hi hj
      have hindex := congrArg (fun p : RoadPoint => p.index.toNat) heq
      simp only at hindex
      rwa [UInt32.toNat_ofNat_of_lt' (by omega), UInt32.toNat_ofNat_of_lt' (by omega)] at hindex
  · -- road points of different features differ in the feature
    refine (List.pairwise_map.mp hdistinct).imp ?_
    intro f f' hne p hp hp'
    have hfeature : ∀ {f : Feature}, p ∈ (marksOf maskOf bits f).map Prod.fst → f.id = p.feature := by
      intro f hp
      rw [map_fst_marksOf] at hp
      split at hp
      · cases hp
      · obtain ⟨i, -, rfl⟩ := List.mem_map.mp hp
        rfl
    exact hne ((hfeature hp).trans (hfeature hp').symm)

theorem nodup_within (hdistinct : (features.map Feature.id).Nodup) (h : Indexable features)
    (cell : Cell) : (within cell (marks maskOf bits features)).Nodup :=
  (nodup_marks hdistinct h).sublist (List.filter_sublist.map Prod.fst)

/-! ## Joints without common road points -/

/-- No road point lies in two joints. -/
theorem pairwise_disjoint_joints (hdistinct : (features.map Feature.id).Nodup)
    (h : Indexable features) :
    (ofFeatures maskOf bits features).joints.Pairwise List.Disjoint := by
  rw [joints_eq]
  refine (List.Perm.pairwise_iff List.Disjoint.symm (List.mergeSort_perm _ _)).mpr ?_
  refine List.pairwise_map.mpr ((nodup_crowded _).imp ?_)
  intro cell cell' hne p hp hp'
  rw [Joint.mem_normalized, getD_cells_ofFeatures, mem_within] at hp hp'
  exact hne (cell_unique hdistinct h hp hp')

/-- A joint lists the road points of a cell, each once. -/
theorem nodup_of_mem_joints (hdistinct : (features.map Feature.id).Nodup) (h : Indexable features)
    {joint : Joint} (hjoint : joint ∈ (ofFeatures maskOf bits features).joints) : joint.Nodup := by
  obtain ⟨cell, -, rfl⟩ := mem_joints_iff.mp hjoint
  rw [Joint.normalized, (List.mergeSort_perm _ _).nodup_iff, getD_cells_ofFeatures]
  exact nodup_within hdistinct h cell

/-- No road point is listed twice. -/
theorem nodup_flatten_joints (hdistinct : (features.map Feature.id).Nodup)
    (h : Indexable features) : (ofFeatures maskOf bits features).joints.flatten.Nodup :=
  List.nodup_flatten.mpr ⟨fun _ hjoint => nodup_of_mem_joints hdistinct h hjoint,
    pairwise_disjoint_joints hdistinct h⟩

/-! ## Shared places -/

theorem exists_ne_of_two_le {α : Type} {l : List α} (hnodup : l.Nodup) (hlength : 2 ≤ l.length)
    (a : α) : ∃ b ∈ l, b ≠ a := by
  match l, hlength with
  | b :: c :: rest, _ =>
    by_cases hb : b = a
    · subst hb
      refine ⟨c, by simp, ?_⟩
      rintro rfl
      simp at hnodup
    · exact ⟨b, by simp, hb⟩

/-- The road points in joints are those that share their cell. -/
theorem mem_flatten_joints_iff (hdistinct : (features.map Feature.id).Nodup)
    (h : Indexable features) {p : RoadPoint} :
    p ∈ (ofFeatures maskOf bits features).joints.flatten ↔ Shared maskOf bits features p := by
  rw [List.mem_flatten]
  constructor
  · rintro ⟨joint, hjoint, hp⟩
    obtain ⟨cell, hmany, rfl⟩ := mem_joints_iff.mp hjoint
    rw [Joint.mem_normalized] at hp
    rw [getD_cells_ofFeatures] at hp hmany
    obtain ⟨q, hq, hne⟩ := exists_ne_of_two_le (nodup_within hdistinct h cell) hmany p
    exact ⟨cell, (mem_marks_iff h).mp (mem_within.mp hp), q, hne,
      (mem_marks_iff h).mp (mem_within.mp hq)⟩
  · rintro ⟨cell, hp, q, hne, hq⟩
    have hp := mem_within.mpr ((mem_marks_iff h).mpr hp)
    have hq := mem_within.mpr ((mem_marks_iff h).mpr hq)
    refine ⟨_, mem_joints_iff.mpr ⟨cell, ?_, rfl⟩, ?_⟩
    · have hpair : [q, p].Nodup := by simpa using hne
      rw [getD_cells_ofFeatures]
      exact hpair.length_le_of_subset (by simp [hp, hq])
    · rwa [Joint.mem_normalized, getD_cells_ofFeatures]

theorem length_flatten_joints (hdistinct : (features.map Feature.id).Nodup)
    (h : Indexable features) : (ofFeatures maskOf bits features).joints.flatten.length
      = {p | Shared maskOf bits features p}.ncard := by
  have hnodup : (ofFeatures maskOf bits features).joints.flatten.Nodup :=
    nodup_flatten_joints hdistinct h
  have hset : {p | Shared maskOf bits features p}
      = ((ofFeatures maskOf bits features).joints.flatten.toFinset : Set RoadPoint) := by
    rw [List.coe_toFinset]
    exact Set.ext fun p => (mem_flatten_joints_iff hdistinct h).symm
  rw [hset, Set.ncard_coe_finset, List.toFinset_card_of_nodup hnodup]

/-- There are no more joints than road points. -/
theorem length_joints_le (hdistinct : (features.map Feature.id).Nodup) (h : Indexable features) :
    (ofFeatures maskOf bits features).joints.length ≤ (marks maskOf bits features).length := by
  have hmany : (ofFeatures maskOf bits features).joints.length
      ≤ (ofFeatures maskOf bits features).joints.flatten.length := by
    rw [List.length_flatten, ← List.length_map List.length]
    refine List.length_le_sum_of_one_le _ fun n hn => ?_
    obtain ⟨joint, hjoint, rfl⟩ := List.mem_map.mp hn
    obtain ⟨cell, hcrowded, rfl⟩ := mem_joints_iff.mp hjoint
    rw [Joint.normalized, List.length_mergeSort]
    exact Nat.le_of_succ_le hcrowded
  have hnodup : (ofFeatures maskOf bits features).joints.flatten.Nodup :=
    nodup_flatten_joints hdistinct h
  refine Nat.le_trans hmany ?_
  rw [← List.length_map Prod.fst]
  refine hnodup.length_le_of_subset fun p hp => ?_
  obtain ⟨joint, hjoint, hp⟩ := List.mem_flatten.mp hp
  obtain ⟨cell, -, rfl⟩ := mem_joints_iff.mp hjoint
  rw [Joint.mem_normalized, getD_cells_ofFeatures, mem_within] at hp
  exact List.mem_map_of_mem hp

/-! ## What a network answers -/

/-- No road point lies in joints at two places of the list. -/
theorem getElem?_joints_unique (hdistinct : (features.map Feature.id).Nodup)
    (h : Indexable features) {i j : Nat} {joint joint' : Joint} {p : RoadPoint}
    (hi : (ofFeatures maskOf bits features).joints[i]? = some joint)
    (hj : (ofFeatures maskOf bits features).joints[j]? = some joint') (hp : p ∈ joint)
    (hp' : p ∈ joint') : i = j := by
  have hapart : (ofFeatures maskOf bits features).joints.Pairwise List.Disjoint :=
    pairwise_disjoint_joints hdistinct h
  rw [List.pairwise_iff_getElem] at hapart
  obtain ⟨hilt, rfl⟩ := List.getElem?_eq_some_iff.mp hi
  obtain ⟨hjlt, rfl⟩ := List.getElem?_eq_some_iff.mp hj
  rcases Nat.lt_trichotomy i j with hlt | heq | hgt
  · exact absurd hp' (hapart i j hilt hjlt hlt hp)
  · exact heq
  · exact absurd hp (hapart j i hjlt hilt hgt hp')

theorem jointId?_eq_some_iff (hdistinct : (features.map Feature.id).Nodup) (h : Indexable features)
    (hfew : (ofFeatures maskOf bits features).joints.length ≤ UInt32.size) (g : Network)
    {p : RoadPoint} {k : JointId} :
    (g.withJoints (ofFeatures maskOf bits features).joints).jointId? p = some k
      ↔ ∃ joint, (ofFeatures maskOf bits features).joints[k.toNat]? = some joint ∧ p ∈ joint := by
  show (JointIndex.ofJoints _).joint? p = some k ↔ _
  rw [JointIndex.joint?_eq_some_iff hfew]
  refine and_iff_left_of_imp ?_
  rintro ⟨joint, hjoint, hp⟩ l joint' hl hjoint' hp'
  exact hl.ne (getElem?_joints_unique hdistinct h hjoint hjoint' hp hp')

/-- Every joint has a number. -/
theorem exists_jointId {joints : List Joint} (hfew : joints.length ≤ UInt32.size) {joint : Joint}
    (h : joint ∈ joints) : ∃ k : JointId, joints[k.toNat]? = some joint := by
  obtain ⟨i, hi⟩ := List.getElem?_of_mem h
  have hlt := (List.getElem?_eq_some_iff.mp hi).1
  refine ⟨UInt32.ofNat i, ?_⟩
  rwa [UInt32.toNat_ofNat_of_lt' (Nat.lt_of_lt_of_le hlt hfew)]

/-- A road point has a joint just if it shares its cell. -/
theorem isSome_jointId?_iff (hdistinct : (features.map Feature.id).Nodup) (h : Indexable features)
    (hfew : (ofFeatures maskOf bits features).joints.length ≤ UInt32.size) (g : Network)
    {p : RoadPoint} :
    ((g.withJoints (ofFeatures maskOf bits features).joints).jointId? p).isSome
      ↔ Shared maskOf bits features p := by
  rw [← mem_flatten_joints_iff hdistinct h, List.mem_flatten, Option.isSome_iff_exists]
  simp only [jointId?_eq_some_iff hdistinct h hfew]
  constructor
  · rintro ⟨k, joint, hk, hp⟩
    exact ⟨joint, List.mem_of_getElem? hk, hp⟩
  · rintro ⟨joint, hjoint, hp⟩
    obtain ⟨k, hk⟩ := exists_jointId hfew hjoint
    exact ⟨k, joint, hk, hp⟩

/-- Two road points have the same joint just if they fall into the same cell. -/
theorem same_jointId?_iff (hdistinct : (features.map Feature.id).Nodup) (h : Indexable features)
    (hfew : (ofFeatures maskOf bits features).joints.length ≤ UInt32.size) (g : Network)
    {p q : RoadPoint} (hne : p ≠ q) {cell cell' : Cell}
    (hp : LiesIn maskOf bits features p cell) (hq : LiesIn maskOf bits features q cell') :
    (∃ k, (g.withJoints (ofFeatures maskOf bits features).joints).jointId? p = some k ∧
      (g.withJoints (ofFeatures maskOf bits features).joints).jointId? q = some k)
      ↔ cell = cell' := by
  have hmark := (mem_marks_iff h).mpr hp
  have hmark' := (mem_marks_iff h).mpr hq
  simp only [jointId?_eq_some_iff hdistinct h hfew]
  constructor
  · rintro ⟨k, ⟨joint, hk, hp⟩, joint', hk', hq⟩
    obtain rfl : joint = joint' := Option.some.inj (hk.symm.trans hk')
    have hjoint := List.mem_of_getElem? hk
    exact cell_unique hdistinct h ((mem_of_joint hdistinct h hjoint hmark hp q).mp hq) hmark'
  · rintro rfl
    have hshared : Shared maskOf bits features p := ⟨cell, hp, q, hne.symm, hq⟩
    obtain ⟨joint, hjoint, hp⟩ :=
      List.mem_flatten.mp ((mem_flatten_joints_iff hdistinct h).mpr hshared)
    obtain ⟨k, hk⟩ := exists_jointId hfew hjoint
    exact ⟨k, ⟨joint, hk, hp⟩, joint, hk, (mem_of_joint hdistinct h hjoint hmark hp q).mpr hmark'⟩

variable (maskOf bits) in
/-- **Joints are shared places.**  A survey of features that can be told apart has the masks of those
that somebody may use.  In a network with its joints a road point has a joint just if another one
falls into its cell, and two have the same joint just if they fall into the same cell.  Every joint
lists two or more points of these features, none twice; no road point lies in two joints; and the
road points in joints are as many as share their cell.  Joints are known by words as long as there are
not too many of them. -/
theorem joints_are_shared_places (hdistinct : (features.map Feature.id).Nodup)
    (h : Indexable features)
    (hfew : (ofFeatures maskOf bits features).joints.length ≤ UInt32.size) (g : Network) :
    let survey := ofFeatures maskOf bits features
    let network := g.withJoints survey.joints
    (∀ id mask, survey.masks[id]? = some mask
      ↔ ∃ f ∈ features, f.id = id ∧ maskOf f = mask ∧ mask.isEmpty = false) ∧
    (∀ p, (network.jointId? p).isSome ↔ Shared maskOf bits features p) ∧
    (∀ p q cell cell', p ≠ q → LiesIn maskOf bits features p cell →
      LiesIn maskOf bits features q cell' →
      ((∃ k, network.jointId? p = some k ∧ network.jointId? q = some k) ↔ cell = cell')) ∧
    (∀ joint ∈ network.joints, 2 ≤ joint.length ∧ joint.Nodup ∧
      ∀ p ∈ joint, p.feature ∈ survey.masks ∧ ∃ cell, LiesIn maskOf bits features p cell) ∧
    (∀ (i j : Nat) (joint joint' : Joint) (p : RoadPoint), network.joints[i]? = some joint →
      network.joints[j]? = some joint' → p ∈ joint → p ∈ joint' → i = j) ∧
    network.pointCount = {p | Shared maskOf bits features p}.ncard := by
  intro survey network
  refine ⟨fun id mask => getElem?_masks_eq_some_iff maskOf bits hdistinct,
    fun p => isSome_jointId?_iff hdistinct h hfew g,
    fun p q cell cell' hne hp hq => same_jointId?_iff hdistinct h hfew g hne hp hq, ?_,
    fun i j joint joint' p hi hj hp hp' => getElem?_joints_unique hdistinct h hi hj hp hp',
    length_flatten_joints hdistinct h⟩
  intro joint hjoint
  obtain ⟨cell, hmany, hcluster⟩ := mem_joints_iff.mp hjoint
  refine ⟨?_, nodup_of_mem_joints hdistinct h hjoint, ?_⟩
  · rw [← hcluster, Joint.normalized, List.length_mergeSort]
    exact hmany
  · intro p hp
    rw [← hcluster, Joint.mem_normalized, getD_cells_ofFeatures, mem_within, mem_marks_iff h] at hp
    obtain ⟨f, hf, hmask, hid, hpoint⟩ := hp
    refine ⟨?_, cell, f, hf, hmask, hid, hpoint⟩
    rw [Std.ExtTreeMap.mem_iff_isSome_getElem?, Option.isSome_iff_exists]
    exact ⟨_, (getElem?_masks_eq_some_iff maskOf bits hdistinct).mpr ⟨f, hf, hid, rfl, hmask⟩⟩

end Survey

/-! ## A ring with a lane -/

namespace Village

def church : Point Coordinate := ⟨0.0, 0.0⟩

def corner : Point Coordinate := ⟨10.0, 0.0⟩

def mill : Point Coordinate := ⟨20.0, 0.0⟩

/-- A road that ends where it begins. -/
def ring : Feature := { id := 1, points := [church, corner, ⟨10.0, 10.0⟩, church] }

def lane : Feature := { id := 2, points := [corner, mill] }

/-- The brook touches the ring and ends where the lane ends. -/
def brook : Feature := { id := 3, points := [⟨10.0, 10.0⟩, mill] }

def features : List Feature := [ring, brook, lane]

/-- Nobody may use the brook. -/
def maskOf (f : Feature) : Mask := if f.id = 3 then .none else .all

theorem indexable : Survey.Indexable features := by
  intro f hf
  simp only [features, List.mem_cons, List.not_mem_nil, or_false] at hf
  rcases hf with rfl | rfl | rfl <;> decide

theorem marks_eq : Survey.marks maskOf 8 features
    = [(⟨1, 0⟩, ⟨128, 128⟩), (⟨1, 1⟩, ⟨135, 128⟩), (⟨1, 2⟩, ⟨135, 135⟩), (⟨1, 3⟩, ⟨128, 128⟩),
      (⟨2, 0⟩, ⟨135, 128⟩), (⟨2, 1⟩, ⟨142, 128⟩)] := by
  decide +kernel

/-- The ring is joined to itself and to the lane, and nothing to the brook. -/
theorem joints_of_ring : (features.map Feature.id).Nodup ∧ Survey.Indexable features ∧
    (Survey.ofFeatures maskOf 8 features).joints.length ≤ UInt32.size ∧
    let survey := Survey.ofFeatures maskOf 8 features
    let network := ({} : Network).withJoints survey.joints
    (∃ k, network.jointId? ⟨1, 0⟩ = some k ∧ network.jointId? ⟨1, 3⟩ = some k) ∧
    (∃ k, network.jointId? ⟨1, 1⟩ = some k ∧ network.jointId? ⟨2, 0⟩ = some k) ∧
    ¬ (∃ k, network.jointId? ⟨1, 0⟩ = some k ∧ network.jointId? ⟨2, 0⟩ = some k) ∧
    (network.jointId? ⟨2, 1⟩).isSome = false ∧ survey.masks[(3 : FeatureId)]? = none := by
  have hdistinct : (features.map Feature.id).Nodup := by decide
  have hfew : (Survey.ofFeatures maskOf 8 features).joints.length ≤ UInt32.size := by
    refine Nat.le_trans (Survey.length_joints_le hdistinct indexable) ?_
    rw [marks_eq]
    decide
  obtain ⟨hmasks, hsome, hsame, -⟩ :=
    Survey.joints_are_shared_places maskOf 8 hdistinct indexable hfew {}
  have hring : Survey.LiesIn maskOf 8 features ⟨1, 0⟩ (Cell.ofPoint 8 church) :=
    ⟨ring, by simp [features], rfl, rfl, _, rfl, rfl⟩
  have hclosed : Survey.LiesIn maskOf 8 features ⟨1, 3⟩ (Cell.ofPoint 8 church) :=
    ⟨ring, by simp [features], rfl, rfl, _, rfl, rfl⟩
  have hcorner : Survey.LiesIn maskOf 8 features ⟨1, 1⟩ (Cell.ofPoint 8 corner) :=
    ⟨ring, by simp [features], rfl, rfl, _, rfl, rfl⟩
  have hlane : Survey.LiesIn maskOf 8 features ⟨2, 0⟩ (Cell.ofPoint 8 corner) :=
    ⟨lane, by simp [features], rfl, rfl, _, rfl, rfl⟩
  refine ⟨hdistinct, indexable, hfew, (hsame _ _ _ _ (by decide) hring hclosed).mpr rfl,
    (hsame _ _ _ _ (by decide) hcorner hlane).mpr rfl, ?_, ?_, ?_⟩
  · rw [hsame _ _ _ _ (by decide) hring hlane]
    decide +kernel
  · rw [Bool.eq_false_iff, Ne, hsome]
    rintro ⟨cell, hend, q, hne, hq⟩
    rw [Survey.LiesIn, ← Survey.mem_marks_iff indexable, marks_eq] at hend hq
    obtain rfl : cell = ⟨142, 128⟩ := by simpa using hend
    exact hne (by simpa using hq)
  · rw [Option.eq_none_iff_forall_ne_some]
    intro mask hmask
    obtain ⟨f, hf, hid, rfl, hempty⟩ := (hmasks _ _).mp hmask
    rw [maskOf, if_pos hid] at hempty
    cases hempty

end Village

end Crossroads

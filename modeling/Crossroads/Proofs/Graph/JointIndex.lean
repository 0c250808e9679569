import Crossroads.Graph.Network
import Mathlib.Data.Finset.Card
import Mathlib.Data.List.Induction

/-!
# What the index of joints answers

The joints of a network may overlap.  The index answers for a road point the last joint that holds
it, as long as words are enough to number the joints, and forgets no road point of any joint.

* `JointIndex.joint?_eq_some_iff` and `JointIndex.joint?_eq_none_iff` — what is answered for a road
  point.
* `JointIndex.roadCount_ofJoints` — each road that is in some joint is counted once.
* `JointIndex.index_lt_beyond` — the extent of a road covers all of its road points in joints.
-/

namespace Crossroads

namespace RoadJoints

theorem joint?_empty (i : UInt32) : ({} : RoadJoints).joint? i = none := by
  simp [joint?]

/-- Slots that are added belong to no joint, like what lies behind the last slot. -/
theorem join_getElem?_rightpad (slots : Array (Option JointId)) (n i : Nat) :
    (slots.rightpad n none)[i]?.join = slots[i]?.join := by
  rw [Array.rightpad, Array.getElem?_append]
  split
  · rfl
  · rename_i hbehind
    rw [Array.getElem?_eq_none (Nat.not_lt.mp hbehind), Array.getElem?_replicate]
    split <;> rfl

/-- However far the slots grow, just one point joins. -/
theorem joint?_add (road : RoadJoints) (i j : UInt32) (joint : JointId) :
    (road.add i joint).joint? j = if i = j then some joint else road.joint? j := by
  have hroom : i.toNat < (road.slots.rightpad (i.toNat + 1) none).size := by
    rw [Array.size_rightpad]
    exact Nat.lt_of_lt_of_le (Nat.lt_succ_self _) (Nat.le_max_left _ _)
  rw [joint?, add, Array.getElem?_setIfInBounds, if_pos hroom]
  by_cases h : i = j
  · rw [if_pos (congrArg UInt32.toNat h), if_pos h]
    rfl
  · rw [if_neg fun heq => h (UInt32.toNat_inj.mp heq), if_neg h, join_getElem?_rightpad]
    rfl

theorem index_lt_size {road : RoadJoints} {i : UInt32} {k : JointId} (h : road.joint? i = some k) :
    i.toNat < road.slots.size := by
  by_contra hbehind
  rw [joint?, Array.getElem?_eq_none (Nat.not_lt.mp hbehind)] at h
  cases h

end RoadJoints

namespace JointIndex

theorem joint?_empty (p : RoadPoint) : ({} : JointIndex).joint? p = none := by
  simp [joint?]

theorem joint?_add (index : JointIndex) (joint : JointId) (p q : RoadPoint) :
    (index.add joint p).joint? q = if p = q then some joint else index.joint? q := by
  obtain ⟨f, i⟩ := p
  obtain ⟨f', i'⟩ := q
  simp only [joint?, add, Std.TreeMap.getElem?_insert, Std.LawfulEqOrd.compare_eq_iff_eq]
  by_cases hf : f = f'
  · subst hf
    cases hroad : index.byRoad[f]? <;>
      simp [hroad, Std.TreeMap.getD_eq_getD_getElem?, RoadJoints.joint?_add,
        RoadJoints.joint?_empty]
  · simp [hf]

theorem joint?_foldl_add (index : JointIndex) (id : JointId) (joint : Joint) (q : RoadPoint) :
    (joint.foldl (fun index p => index.add id p) index).joint? q
      = if q ∈ joint then some id else index.joint? q := by
  induction joint generalizing index with
  | nil => simp
  | cons p rest ih =>
    rw [List.foldl_cons, ih, joint?_add]
    by_cases hrest : q ∈ rest
    · simp [hrest]
    · by_cases hp : p = q
      · simp [hp]
      · simp [hrest, hp, Ne.symm hp]

theorem ofJoints_concat (joints : List Joint) (joint : Joint) :
    ofJoints (joints ++ [joint])
      = joint.foldl (fun index p => index.add (UInt32.ofNat joints.length) p) (ofJoints joints) := by
  simp [ofJoints, List.zipIdx_append]

theorem joint?_concat (joints : List Joint) (joint : Joint) (p : RoadPoint) :
    (ofJoints (joints ++ [joint])).joint? p
      = if p ∈ joint then some (UInt32.ofNat joints.length) else (ofJoints joints).joint? p := by
  rw [ofJoints_concat, joint?_foldl_add]

/-- The index answers the last joint that holds a road point. -/
theorem joint?_eq_some_iff {joints : List Joint} (hfew : joints.length ≤ UInt32.size) (p : RoadPoint)
    (k : JointId) :
    (ofJoints joints).joint? p = some k ↔
      (∃ joint, joints[k.toNat]? = some joint ∧ p ∈ joint) ∧
        ∀ l joint, k.toNat < l → joints[l]? = some joint → p ∉ joint := by
  induction joints using List.reverseRecOn with
  | nil => simp [ofJoints, joint?_empty]
  | append_singleton joints last ih =>
    have hroom : joints.length < UInt32.size := Nat.lt_of_succ_le (by simpa using hfew)
    have hlast : (joints ++ [last])[joints.length]? = some last := by simp
    have hbefore : ∀ l, l < joints.length → (joints ++ [last])[l]? = joints[l]? := fun l hl =>
      List.getElem?_append_left hl
    rw [joint?_concat]
    by_cases hp : p ∈ last
    · rw [if_pos hp, Option.some.injEq]
      have hnumber : (UInt32.ofNat joints.length).toNat = joints.length :=
        UInt32.toNat_ofNat_of_lt' hroom
      constructor
      · rintro rfl
        rw [hnumber]
        refine ⟨⟨last, hlast, hp⟩, ?_⟩
        intro l joint hl hjoint
        rw [List.getElem?_eq_none (by simp; omega)] at hjoint
        cases hjoint
      · rintro ⟨⟨joint, hjoint, -⟩, hlater⟩
        have hk : k.toNat < (joints ++ [last]).length := (List.getElem?_eq_some_iff.mp hjoint).1
        by_contra hne
        have hne : joints.length ≠ k.toNat := by rwa [← UInt32.toNat_inj, hnumber] at hne
        refine hlater joints.length last ?_ hlast hp
        simp at hk
        omega
    · rw [if_neg hp, ih (Nat.le_of_lt hroom)]
      constructor
      · rintro ⟨⟨joint, hjoint, hmem⟩, hlater⟩
        have hk : k.toNat < joints.length := (List.getElem?_eq_some_iff.mp hjoint).1
        refine ⟨⟨joint, by rw [hbefore _ hk, hjoint], hmem⟩, ?_⟩
        intro l joint' hl hjoint'
        rcases Nat.lt_or_ge l joints.length with hl' | hl'
        · exact hlater l joint' hl (by rwa [hbefore l hl'] at hjoint')
        · have hlen : l < (joints ++ [last]).length := (List.getElem?_eq_some_iff.mp hjoint').1
          obtain rfl : l = joints.length := by simp at hlen; omega
          rw [hlast] at hjoint'
          rwa [← Option.some.inj hjoint']
      · rintro ⟨⟨joint, hjoint, hmem⟩, hlater⟩
        have hk : k.toNat < joints.length := by
          have hlen : k.toNat < (joints ++ [last]).length := (List.getElem?_eq_some_iff.mp hjoint).1
          by_contra hge
          have hend : k.toNat = joints.length := by simp at hlen; omega
          rw [hend, hlast] at hjoint
          exact hp (Option.some.inj hjoint ▸ hmem)
        refine ⟨⟨joint, by rwa [hbefore _ hk] at hjoint, hmem⟩, ?_⟩
        intro l joint' hl hjoint'
        have hl' : l < joints.length := (List.getElem?_eq_some_iff.mp hjoint').1
        exact hlater l joint' hl (by rw [hbefore l hl', hjoint'])

/-- The index answers nothing for the road points that are in no joint. -/
theorem joint?_eq_none_iff (joints : List Joint) (p : RoadPoint) :
    (ofJoints joints).joint? p = none ↔ ∀ joint ∈ joints, p ∉ joint := by
  induction joints using List.reverseRecOn with
  | nil => simp [ofJoints, joint?_empty]
  | append_singleton joints last ih =>
    rw [joint?_concat]
    by_cases hp : p ∈ last
    · simp [hp]
    · rw [if_neg hp, ih]
      simp [or_imp, forall_and, hp]

/-! ## Roads -/

theorem mem_byRoad_foldl_add (index : JointIndex) (id : JointId) (joint : Joint) (f : FeatureId) :
    f ∈ (joint.foldl (fun index p => index.add id p) index).byRoad
      ↔ f ∈ joint.map RoadPoint.feature ∨ f ∈ index.byRoad := by
  induction joint generalizing index with
  | nil => simp
  | cons p rest ih =>
    rw [List.foldl_cons, ih, List.map_cons, List.mem_cons, add, Std.TreeMap.mem_insert,
      Std.LawfulEqOrd.compare_eq_iff_eq, eq_comm]
    tauto

theorem mem_byRoad_ofJoints (joints : List Joint) (f : FeatureId) :
    f ∈ (ofJoints joints).byRoad ↔ f ∈ joints.flatten.map RoadPoint.feature := by
  induction joints using List.reverseRecOn with
  | nil => simp [ofJoints]
  | append_singleton joints last ih =>
    rw [ofJoints_concat, mem_byRoad_foldl_add, ih, List.flatten_concat, List.map_append,
      List.mem_append, or_comm]

/-- Each road that is in some joint is counted once. -/
theorem roadCount_ofJoints (joints : List Joint) :
    (ofJoints joints).roadCount = (joints.flatten.map RoadPoint.feature).toFinset.card := by
  have hroads : (ofJoints joints).byRoad.keys.toFinset
      = (joints.flatten.map RoadPoint.feature).toFinset := by
    ext f
    rw [List.mem_toFinset, List.mem_toFinset, Std.TreeMap.mem_keys, mem_byRoad_ofJoints]
  rw [roadCount, ← Std.TreeMap.length_keys, ← hroads,
    List.toFinset_card_of_nodup Std.TreeMap.nodup_keys]

/-! ## Extents -/

theorem index_lt_beyond_of_joint? {index : JointIndex} {p : RoadPoint} {k : JointId}
    (h : index.joint? p = some k) : p.index.toNat < index.beyond p.feature := by
  unfold joint? at h
  obtain ⟨road, hroad, hk⟩ := Option.bind_eq_some_iff.mp h
  rw [beyond, hroad]
  exact RoadJoints.index_lt_size hk

/-- The extent of a road covers all of its road points in joints. -/
theorem index_lt_beyond {joints : List Joint} {joint : Joint} {p : RoadPoint}
    (hjoint : joint ∈ joints) (hp : p ∈ joint) :
    p.index.toNat < (ofJoints joints).beyond p.feature := by
  cases h : (ofJoints joints).joint? p with
  | some k => exact index_lt_beyond_of_joint? h
  | none => exact absurd hp ((joint?_eq_none_iff joints p).mp h joint hjoint)

end JointIndex

end Crossroads

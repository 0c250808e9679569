import Crossroads.Proofs.Graph.JointIndex
import Crossroads.Region.RoutingSection
import Crossroads.Proofs.Region.Header

/-!
# Routing sections read back

The masks of a section are stored in increasing order of features, each with the difference to the
feature before it.  Only the first difference may be zero, so what is read is the table that was
written (`RoutingSection.reads_masks`), and a section reads back as it was
(`RoutingSection.decode_encode`).

* `RoutingSection.reads_back` — every section reads back, and its joints serve a network as before.
-/

namespace Crossroads

/-- All lists of a section are such that they can be counted. -/
structure RoutingSection.WellFormed (s : RoutingSection) : Prop where
  masks : s.masks.size < UInt64.size
  joints : s.joints.length < UInt64.size
  points : ∀ joint ∈ s.joints, joint.length < UInt64.size

namespace RoutingSection

open Decoder (Reads)

/-! ## Masks -/

theorem reads_mask (what : String) (mask : Mask) : Reads (decodeMask what) [mask.bits] mask := by
  refine (Decoder.reads_octet what _).bind_pure ?_
  rw [Mask.ofBits?_bits]

/-- Masks in increasing order of features, after a feature that comes before them all; the first of
all masks may be at that feature. -/
theorem reads_masks (masks : List (FeatureId × Mask)) (hsorted : masks.Pairwise fun a b => a.1 < b.1)
    (first : Bool) (last : FeatureId) (table : MaskTable) (hle : ∀ entry ∈ masks, last ≤ entry.1)
    (hlt : first = true ∨ ∀ entry ∈ masks, last < entry.1) :
    Reads (decodeMasks first last table masks.length) (encodeMasks last masks)
      (table.insertMany masks) := by
  induction masks generalizing first last table with
  | nil =>
    rw [Std.ExtTreeMap.insertMany_nil]
    exact .pure table
  | cons entry masks ih =>
    obtain ⟨id, mask⟩ := entry
    obtain ⟨hafter, hsorted⟩ := List.pairwise_cons.mp hsorted
    have hid : last ≤ id := hle _ List.mem_cons_self
    have hle' := UInt32.le_iff_toNat_le.mp hid
    have hword := id.toNat_lt
    have hdifference : (id - last).toNat = id.toNat - last.toNat :=
      UInt32.toNat_sub_of_le _ _ hid
    have hrepeat : ¬ (!first && id - last == 0) = true := by
      rcases hlt with rfl | hlt
      · simp
      · have hpos := UInt32.lt_iff_toNat_lt.mp (hlt _ List.mem_cons_self)
        rw [Bool.and_eq_true, beq_iff_eq]
        rintro ⟨-, hzero⟩
        rw [hzero, UInt32.toNat_zero] at hdifference
        change last.toNat < id.toNat at hpos
        omega
    have hbeyond : ¬ UInt32.size ≤ last.toNat + (id - last).toNat := by
      rw [hdifference]
      change id.toNat < UInt32.size at hword
      omega
    have hsum : last + (id - last) = id := by
      apply UInt32.toNat_inj.mp
      rw [UInt32.toNat_add, hdifference]
      omega
    have hrest := ih hsorted false id (table.insert id mask)
      (fun entry h => UInt32.le_of_lt (hafter entry h)) (.inr hafter)
    rw [Std.ExtTreeMap.insertMany_cons, encodeMasks, List.length_cons, decodeMasks,
      ← List.singleton_append]
    refine (Decoder.reads_number32 label _).bind ?_
    rw [if_neg hrepeat, if_neg hbeyond, hsum]
    exact (reads_mask label mask).bind hrest

/-- Inserting everything that a table lists makes the table. -/
theorem insertMany_toList (masks : MaskTable) : (∅ : MaskTable).insertMany masks.toList = masks := by
  apply Std.ExtTreeMap.ext_getElem?
  intro id
  cases hmask : masks[id]? with
  | some mask =>
    exact Std.ExtTreeMap.getElem?_insertMany_list_of_mem Std.ReflCmp.compare_self
      Std.ExtTreeMap.distinct_keys_toList
      (Std.ExtTreeMap.mem_toList_iff_getElem?_eq_some.mpr hmask)
  | none =>
    have hnone : (masks.toList.map Prod.fst).contains id = false := by
      rw [List.contains_eq_mem, decide_eq_false_iff_not, List.mem_map]
      rintro ⟨⟨id', mask⟩, hmem, rfl⟩
      rw [Std.ExtTreeMap.mem_toList_iff_getElem?_eq_some.mp hmem] at hmask
      cases hmask
    rw [Std.ExtTreeMap.getElem?_insertMany_list_of_contains_eq_false hnone]
    exact Std.ExtTreeMap.getElem?_empty

/-! ## Joints -/

theorem reads_point (p : RoadPoint) : Reads decodePoint (encodePoint p) p :=
  (Decoder.reads_number32 label p.feature).bind
    ((Decoder.reads_number32 label p.index).bind_pure rfl)

theorem length_encodePoint_pos (p : RoadPoint) : 0 < (encodePoint p).length := by
  have hpos := Decoder.length_encode_pos p.feature.toNat
  rw [encodePoint, List.length_append]
  omega

theorem length_encodeJoint_pos (joint : Joint) : 0 < (encodeJoint joint).length := by
  have hpos := Decoder.length_encode_pos joint.length
  rw [encodeJoint, List.length_append]
  omega

theorem reads_joint {joint : Joint} (h : joint.length < UInt64.size) :
    Reads decodeJoint (encodeJoint joint) joint := by
  have hread : Reads decodeJoint (encodeJoint joint) (joint.map id) :=
    Reads.counted label joint h (fun p _ => length_encodePoint_pos p) (fun p _ => reads_point p)
  rwa [List.map_id] at hread

/-! ## Sections -/

theorem length_encodeMasks_ge (last : FeatureId) (masks : List (FeatureId × Mask)) :
    masks.length ≤ (encodeMasks last masks).length := by
  induction masks generalizing last with
  | nil => exact Nat.zero_le _
  | cons entry masks ih =>
    have hrest := ih entry.1
    rw [encodeMasks, List.length_append, List.length_cons, List.length_cons]
    omega

theorem sorted_toList (masks : MaskTable) : masks.toList.Pairwise fun a b => a.1 < b.1 := by
  refine Std.ExtTreeMap.ordered_keys_toList.imp ?_
  intro a b h
  exact Std.compare_eq_lt.mp h

/-- The masks and the joints, one after the other, each behind its count. -/
theorem reads_encode {s : RoutingSection} (h : s.WellFormed) : Reads decoder s.encode s := by
  have hsize : s.masks.toList.length = s.masks.size := Std.ExtTreeMap.length_toList
  have hmasks : Reads (decodeMasks true 0 ∅ s.masks.size) (encodeMasks 0 s.masks.toList) s.masks := by
    have hread := reads_masks s.masks.toList (sorted_toList s.masks) true 0 ∅
      (fun _ _ => UInt32.zero_le) (.inl rfl)
    rwa [insertMany_toList, hsize] at hread
  have hjoints : Reads (do Decoder.times decodeJoint (← Decoder.count label))
      (Varint.encode s.joints.length ++ s.joints.flatMap encodeJoint) (s.joints.map id) :=
    Reads.counted label s.joints h.joints (fun joint _ => length_encodeJoint_pos joint)
      (fun joint hjoint => reads_joint (h.points joint hjoint))
  rw [List.map_id] at hjoints
  intro rest
  rw [encode, List.append_assoc, List.append_assoc, List.append_assoc, decoder,
    Decoder.runOn_bind_ok (Decoder.runOn_count label h.masks ?_),
    Decoder.runOn_bind_ok (hmasks _), ← List.append_assoc (Varint.encode s.joints.length)]
  · rw [← bind_assoc]
    refine hjoints.bind_pure ?_ rest
    rfl
  · have hlength := length_encodeMasks_ge 0 s.masks.toList
    rw [List.length_append]
    omega

/-- A section reads back as it was. -/
theorem decode_encode {s : RoutingSection} (h : s.WellFormed) : decode s.encode = .ok s :=
  Decoder.readAll_eq_ok (reads_encode h)

/-- A section that takes no more octets than can be counted is well-formed. -/
theorem wellFormed_of_length_lt {s : RoutingSection} (h : s.encode.length < UInt64.size) :
    s.WellFormed := by
  have hsize : s.masks.toList.length = s.masks.size := Std.ExtTreeMap.length_toList
  have hmasks := length_encodeMasks_ge 0 s.masks.toList
  have hjoints := Decoder.length_le_length_flatMap s.joints
    fun joint _ => length_encodeJoint_pos joint
  rw [encode, List.length_append, List.length_append, List.length_append] at h
  refine ⟨by omega, by omega, ?_⟩
  intro joint hjoint
  have hpoints := Decoder.length_le_length_flatMap joint fun p _ => length_encodePoint_pos p
  have hjoint : (encodeJoint joint).length ≤ (s.joints.flatMap encodeJoint).length :=
    (List.sublist_flatten_of_mem (List.mem_map_of_mem hjoint)).length_le
  rw [encodeJoint, List.length_append] at hjoint
  omega

/-! ## Every section -/

/-- There are no more masks than numbers of features. -/
theorem size_masks_le (masks : MaskTable) : masks.size ≤ UInt32.size := by
  have hdistinct : (masks.toList.map fun entry => entry.1.toNat).Nodup := by
    refine List.pairwise_map.mpr ((sorted_toList masks).imp ?_)
    intro a b hlt
    exact Nat.ne_of_lt (UInt32.lt_iff_toNat_lt.mp hlt)
  have hwords : (masks.toList.map fun entry => entry.1.toNat) ⊆ List.range UInt32.size := by
    intro n hn
    obtain ⟨entry, -, rfl⟩ := List.mem_map.mp hn
    exact List.mem_range.mpr entry.1.toNat_lt
  have hle := hdistinct.length_le_of_subset hwords
  rwa [List.length_map, Std.ExtTreeMap.length_toList, List.length_range] at hle

/-- **Routing sections read back.**  A section is read back as it was, whatever its masks and joints
are, as long as the joints and the points of each of them can be counted in a word.  So a network
answers the same about its joints whether they come from what was read or from what was written. -/
theorem reads_back (s : RoutingSection) (hjoints : s.joints.length < UInt64.size)
    (hpoints : ∀ joint ∈ s.joints, joint.length < UInt64.size) :
    decode s.encode = .ok s ∧
    ∀ loaded, decode s.encode = .ok loaded → ∀ g g' : Network,
      (∀ p, (g.withJoints loaded.joints).jointId? p = (g'.withJoints s.joints).jointId? p) ∧
      (g.withJoints loaded.joints).joints = (g'.withJoints s.joints).joints ∧
      (∀ id, (g.withJoints loaded.joints).joint? id = (g'.withJoints s.joints).joint? id) ∧
      (g.withJoints loaded.joints).roadCount = (g'.withJoints s.joints).roadCount ∧
      (g.withJoints loaded.joints).jointCount = (g'.withJoints s.joints).jointCount ∧
      (g.withJoints loaded.joints).pointCount = (g'.withJoints s.joints).pointCount := by
  have hsize : s.masks.size < UInt64.size :=
    Nat.lt_of_le_of_lt (size_masks_le s.masks) (by decide)
  have hread : decode s.encode = .ok s := decode_encode ⟨hsize, hjoints, hpoints⟩
  refine ⟨hread, ?_⟩
  intro loaded hloaded g g'
  obtain rfl : s = loaded := Except.ok.inj (hread.symm.trans hloaded)
  exact ⟨fun _ => rfl, rfl, fun _ => rfl, rfl, rfl, rfl⟩

/-- A section with the first and the last feature, an empty joint, and a joint that holds one point
twice. -/
def extremes : RoutingSection where
  masks := (∅ : MaskTable).insertMany [(0xFFFFFFFF, Mask.all), (0, .none)]
  joints := [[], [⟨7, 0xFFFFFFFF⟩, ⟨0, 2⟩, ⟨7, 0xFFFFFFFF⟩]]

/-- The section is read into a network that had another joint. -/
theorem extremes_read_back : extremes.joints.length < UInt64.size ∧
    (∀ joint ∈ extremes.joints, joint.length < UInt64.size) ∧
    ∃ loaded, decode extremes.encode = .ok loaded ∧
      let g := ({} : Network).withJoints [[⟨3, 0⟩, ⟨4, 0⟩]]
      (g.withJoints loaded.joints).jointId? ⟨7, 0xFFFFFFFF⟩ = some 1 ∧
      (g.withJoints loaded.joints).jointId? ⟨3, 0⟩ = none ∧
      (g.withJoints loaded.joints).roadCount = 2 ∧
      (g.withJoints loaded.joints).pointCount = 3 := by
  have hjoints : extremes.joints.length < UInt64.size := by decide
  have hpoints : ∀ joint ∈ extremes.joints, joint.length < UInt64.size := by decide
  obtain ⟨hread, hsame⟩ := reads_back extremes hjoints hpoints
  refine ⟨hjoints, hpoints, extremes, hread, ?_⟩
  intro g
  obtain ⟨hid, -, -, hroads, -, hcount⟩ := hsame extremes hread g {}
  have hsecond := JointIndex.joint?_concat [[]] [⟨7, 0xFFFFFFFF⟩, ⟨0, 2⟩, ⟨7, 0xFFFFFFFF⟩]
    ⟨7, 0xFFFFFFFF⟩
  rw [hid, hid, hroads, hcount]
  exact ⟨hsecond.trans (if_pos (by decide)), (JointIndex.joint?_eq_none_iff _ _).mpr (by decide),
    (JointIndex.roadCount_ofJoints _).trans (by decide), by decide⟩

end RoutingSection

end Crossroads

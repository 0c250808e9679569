import Crossroads.Proofs.Graph.Mirror
import Mathlib.Order.Bounds.Defs

/-!
# Networks answer for their latest joints

A network that is given joints forgets those it had before.  The new ones may overlap, be empty or
hold a road point twice: a road point then belongs to the last joint that holds it, and this is the
joint whose road points are stepped to from there (`Network.meeting_withJoints`).

* `Network.withJoints_latest` — what is answered about joints, for all joints and whatever the network
  held before.
-/

namespace Crossroads

namespace JointIndex

variable {joints : List Joint} {p : RoadPoint} {k : JointId}

/-- Of the joints that hold a road point the index answers the one with the greatest number. -/
theorem joint?_eq_some_iff_isGreatest (hfew : joints.length ≤ UInt32.size) :
    (ofJoints joints).joint? p = some k ↔
      IsGreatest {l | ∃ joint, joints[l]? = some joint ∧ p ∈ joint} k.toNat := by
  rw [joint?_eq_some_iff hfew]
  refine and_congr_right fun _ => ?_
  constructor
  · rintro hlater l ⟨joint, hjoint, hp⟩
    exact Nat.not_lt.mp fun hlt => hlater l joint hlt hjoint hp
  · intro hgreatest l joint hlt hjoint hp
    exact Nat.not_lt.mpr (hgreatest ⟨joint, hjoint, hp⟩) hlt

/-- A joint that is answered is one of the list. -/
theorem lt_length_of_joint? (hfew : joints.length ≤ UInt32.size)
    (h : (ofJoints joints).joint? p = some k) : k.toNat < joints.length := by
  obtain ⟨⟨joint, hjoint, -⟩, -⟩ := (joint?_eq_some_iff hfew p k).mp h
  exact (List.getElem?_eq_some_iff.mp hjoint).1

/-- The joint that is answered is the first one from the back that holds the road point. -/
theorem bind_joint?_eq_find? (hfew : joints.length ≤ UInt32.size) (p : RoadPoint) :
    ((ofJoints joints).joint? p).bind (fun k => joints[k.toNat]?)
      = joints.reverse.find? fun joint => p ∈ joint := by
  induction joints using List.reverseRecOn with
  | nil => simp [ofJoints, joint?_empty]
  | append_singleton joints last ih =>
    have hroom : joints.length < UInt32.size := Nat.lt_of_succ_le (by simpa using hfew)
    rw [joint?_concat, List.reverse_concat, List.find?_cons]
    by_cases hp : p ∈ last
    · rw [if_pos hp, Option.bind_some, UInt32.toNat_ofNat_of_lt' hroom,
        List.getElem?_concat_length, decide_eq_true hp]
    · rw [if_neg hp, decide_eq_false hp, ← ih (Nat.le_of_lt hroom)]
      cases hid : (ofJoints joints).joint? p with
      | none => rfl
      | some k =>
        rw [Option.bind_some, Option.bind_some,
          List.getElem?_append_left (lt_length_of_joint? (Nat.le_of_lt hroom) hid)]

end JointIndex

namespace Network

/-- Two networks answer the same, whatever they are asked about joints and steps. -/
structure Alike (g h : Network) : Prop where
  jointId? : ∀ p, g.jointId? p = h.jointId? p
  joint? : ∀ id, g.joint? id = h.joint? id
  roadCount : g.roadCount = h.roadCount
  jointCount : g.jointCount = h.jointCount
  pointCount : g.pointCount = h.pointCount
  steps : ∀ s outgoing, g.steps s outgoing = h.steps s outgoing

theorem meeting_withJoints (g : Network) {joints : List Joint} (hfew : joints.length ≤ UInt32.size)
    (p : RoadPoint) : (g.withJoints joints).meeting p
      = (joints.reverse.find? fun joint => p ∈ joint).getD [p] := by
  rw [← JointIndex.bind_joint?_eq_find? hfew]
  rfl

/-- The roads and the pace of a network are all that is left of it when it is given joints. -/
theorem alike_withJoints {g h : Network} (hmap : h.map = g.map) (hpace : h.pace = g.pace)
    (joints : List Joint) : (h.withJoints joints).Alike (g.withJoints joints) := by
  have hsame : h.withJoints joints = g.withJoints joints := by
    rw [withJoints, withJoints, hmap, hpace]
  rw [hsame]
  exact ⟨fun _ => rfl, fun _ => rfl, rfl, rfl, rfl, fun _ _ => rfl⟩

/-- **A network answers for its latest joints.**  Whatever joints a network is given, a road point
belongs to the last one that holds it, and to none only if none does; each road that is in some joint
is counted once.  What the network held before leaves no trace in any answer.  Joints are known by
words as long as there are not too many of them. -/
theorem withJoints_latest (g : Network) {joints : List Joint} (hsize : joints.length < UInt32.size) :
    (∀ p k, (g.withJoints joints).jointId? p = some k ↔
      IsGreatest {l | ∃ joint, joints[l]? = some joint ∧ p ∈ joint} k.toNat) ∧
    (∀ p, (g.withJoints joints).jointId? p = none ↔ ∀ joint ∈ joints, p ∉ joint) ∧
    (∀ p k, (g.withJoints joints).jointId? p = some k → k.toNat < joints.length) ∧
    (∀ p, (g.withJoints joints).meeting p
      = (joints.reverse.find? fun joint => p ∈ joint).getD [p]) ∧
    (g.withJoints joints).roadCount = (joints.flatten.map RoadPoint.feature).toFinset.card ∧
    ∀ h : Network, h.map = g.map → h.pace = g.pace →
      (h.withJoints joints).Alike (g.withJoints joints) := by
  have hfew := Nat.le_of_lt hsize
  exact ⟨fun _ _ => JointIndex.joint?_eq_some_iff_isGreatest hfew,
    JointIndex.joint?_eq_none_iff joints, fun _ _ => JointIndex.lt_length_of_joint? hfew,
    g.meeting_withJoints hfew, JointIndex.roadCount_ofJoints joints,
    fun h hmap hpace => alike_withJoints hmap hpace joints⟩

end Network

namespace Corner

/-- Joints that overlap in a point of the lane, which the last of them holds twice. -/
def overlapping : List Joint := [[⟨0, 1⟩, ⟨1, 1⟩], [], [⟨1, 1⟩, ⟨0, 0⟩, ⟨1, 1⟩]]

/-- The corner had a joint with a road that is not there.  Afterwards it answers like a corner that
had none: the lane is in the last joint, the street in the first and the last one. -/
theorem overlapping_latest :
    let g := network.withJoints [[⟨0, 2⟩, ⟨7, 5⟩]]
    overlapping.length < UInt32.size ∧
    (g.withJoints overlapping).jointId? ⟨1, 1⟩ = some 2 ∧
    (g.withJoints overlapping).jointId? ⟨7, 5⟩ = none ∧
    (g.withJoints overlapping).meeting ⟨0, 1⟩ = [⟨0, 1⟩, ⟨1, 1⟩] ∧
    (g.withJoints overlapping).roadCount = 2 ∧
    (network.withJoints overlapping).Alike (g.withJoints overlapping) := by
  intro g
  have hsize : overlapping.length < UInt32.size := by decide
  obtain ⟨hsome, hnone, -, hmeeting, hroads, halike⟩ := g.withJoints_latest hsize
  have hlane : IsGreatest {l | ∃ joint, overlapping[l]? = some joint ∧ ⟨1, 1⟩ ∈ joint} 2 := by
    refine ⟨⟨_, rfl, by decide⟩, ?_⟩
    rintro l ⟨joint, hjoint, -⟩
    exact Nat.le_of_lt_succ (List.getElem?_eq_some_iff.mp hjoint).1
  exact ⟨hsize, (hsome _ _).mpr hlane, (hnone _).mpr (by decide), (hmeeting _).trans (by decide),
    hroads.trans (by decide), halike network rfl rfl⟩

end Corner

end Crossroads

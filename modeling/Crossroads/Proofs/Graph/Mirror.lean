import Crossroads.Proofs.Graph.Reach

/-!
# Steps onward and steps back

Steps lead out of a segment to the segments that start where it ends, and into a segment from those
that end where it starts.  Both come from one definition with a flag (`Network.steps`), so one lemma
says for both what can be stepped onto at a road point: the legal segments with their near end there
(`Network.legal_of_mem_stepsAt`, `Network.mem_stepsAt_of_legal`).

* `Network.mem_meeting_iff` — in joints that share no road point, those that meet a road point are
  itself and the others of its joint.
* `Network.steps_mirrored` — what steps lead to, and that steps back are the mirror of steps onward.
-/

namespace Crossroads

/-- Road points are at one place when they are the same or lie in the same joint. -/
def Joint.Meet (joints : List Joint) (p q : RoadPoint) : Prop :=
  q = p ∨ ∃ joint ∈ joints, p ∈ joint ∧ q ∈ joint

theorem Joint.Meet.symm {joints : List Joint} {p q : RoadPoint} (h : Joint.Meet joints p q) :
    Joint.Meet joints q p := by
  rcases h with rfl | ⟨joint, hjoint, hp, hq⟩
  · exact .inl rfl
  · exact .inr ⟨joint, hjoint, hq, hp⟩

namespace Network

/-- A segment of a valid road, in either direction. -/
def OnRoad (g : Network) (s : Segment) : Prop :=
  ∃ road, g.road? s.feature = some road ∧ s.index.toNat + 1 < road.points.length

/-- A segment of a valid road, in a direction in which the road is open. -/
def Legal (g : Network) (s : Segment) : Prop :=
  ∃ road, g.road? s.feature = some road ∧ s.index.toNat + 1 < road.points.length ∧
    (road.oneWay = true → s.forward = true)

/-- Words are enough to number the joints, no road point lies in two of them, and the valid roads have
all the points that they name. -/
structure Joined (g : Network) (joints : List Joint) : Prop where
  few : joints.length ≤ UInt32.size
  apart : ∀ (i j : Nat) (joint joint' : Joint), joints[i]? = some joint → joints[j]? = some joint' →
    ∀ p ∈ joint, p ∈ joint' → i = j
  within : ∀ joint ∈ joints, ∀ p ∈ joint, ∀ road, g.road? p.feature = some road →
    p.index.toNat < road.points.length

variable {g : Network} {s t : Segment} {outgoing : Bool} {p q : RoadPoint}

/-- A single joint shares no road point with another one. -/
theorem joined_singleton {joint : Joint}
    (h : ∀ p ∈ joint, ∀ road, g.road? p.feature = some road → p.index.toNat < road.points.length) :
    g.Joined [joint] where
  few := by
    rw [List.length_singleton]
    decide
  apart := by
    intro i j _ _ hi hj _ _ _
    have hi := (List.getElem?_eq_some_iff.mp hi).1
    have hj := (List.getElem?_eq_some_iff.mp hj).1
    rw [List.length_singleton] at hi hj
    omega
  within := by
    intro joint' hjoint
    rw [List.mem_singleton.mp hjoint]
    exact h

/-! ## Road points that meet -/

theorem mem_meeting_iff {joints : List Joint} (h : g.Joined joints) :
    q ∈ (g.withJoints joints).meeting p ↔ Joint.Meet joints p q := by
  have hid : (g.withJoints joints).jointId? p = (JointIndex.ofJoints joints).joint? p := rfl
  rw [meeting, hid]
  cases hjoint : (JointIndex.ofJoints joints).joint? p with
  | none =>
    have hnone := (JointIndex.joint?_eq_none_iff joints p).mp hjoint
    rw [Option.bind_none, Option.getD_none, List.mem_singleton, Joint.Meet]
    refine (or_iff_left ?_).symm
    rintro ⟨joint, hmem, hp, -⟩
    exact hnone joint hmem hp
  | some k =>
    obtain ⟨⟨joint, hk, hp⟩, -⟩ := (JointIndex.joint?_eq_some_iff h.few p k).mp hjoint
    have hfound : (g.withJoints joints).joint? k = some joint := hk
    rw [Option.bind_some, hfound, Option.getD_some]
    constructor
    · exact fun hq => .inr ⟨joint, List.mem_of_getElem? hk, hp, hq⟩
    · rintro (rfl | ⟨joint', hmem, hp', hq⟩)
      · exact hp
      · -- `p` lies in one joint only
        obtain ⟨l, hl⟩ := List.getElem?_of_mem hmem
        obtain rfl := h.apart _ l joint joint' hk hl p hp hp'
        rw [hk] at hl
        rwa [Option.some.inj hl]

/-! ## What can be stepped onto at a road point -/

/-- A step leads to a legal segment with its near end at the road point, if the road has that. -/
theorem legal_of_mem_stepsAt {step : Step}
    (hwithin : ∀ road, g.road? p.feature = some road → p.index.toNat < road.points.length)
    (h : step ∈ g.stepsAt s outgoing p) :
    g.Legal step.target ∧ step.target.roadPoint (!outgoing) = p ∧ step.target ≠ s.reversed ∧
      step.weight = g.weight (if outgoing then step.target else s) := by
  obtain ⟨road, hroad, hturn, hweight, htarget⟩ := mem_stepsAt_iff.mp h
  have hlt := hwithin road hroad
  refine ⟨?_, ?_, hturn, hweight⟩
  · rcases htarget with ⟨htarget, hway, hnext⟩ | ⟨htarget, hway, hfirst⟩
    · rw [htarget]
      refine ⟨road, hroad, hnext, ?_⟩
      intro hone
      exact hway.resolve_right (by simp [hone])
    · rw [htarget]
      refine ⟨road, hroad, ?_, ?_⟩
      · have hpos : 0 < p.index.toNat := UInt32.lt_iff_toNat_lt.mp hfirst
        have hbefore : (p.index - 1).toNat = p.index.toNat - 1 :=
          UInt32.toNat_sub_of_le _ _ (UInt32.le_iff_toNat_le.mpr hpos)
        show (p.index - 1).toNat + 1 < road.points.length
        omega
      · intro hone
        simpa using hway.resolve_right (by simp [hone])
  · rcases htarget with ⟨htarget, -, -⟩ | ⟨htarget, -, -⟩
    · rw [htarget]
      cases outgoing <;> rfl
    · have hback : p.index - 1 + 1 = p.index := UInt32.sub_add_cancel _ _
      rw [htarget]
      show (⟨p.feature, _⟩ : RoadPoint) = p
      cases outgoing <;> simp [Segment.pointIndex, hback]

/-- A legal segment can be stepped onto at its near end, unless that turns straight back. -/
theorem mem_stepsAt_of_legal (ht : g.Legal t) (hindex : t.index.toNat + 1 < UInt32.size)
    (hturn : t ≠ s.reversed) :
    ⟨t, g.weight (if outgoing then t else s)⟩ ∈ g.stepsAt s outgoing (t.roadPoint (!outgoing)) := by
  obtain ⟨road, hroad, hlt, hway⟩ := ht
  refine mem_stepsAt_iff.mpr ⟨road, hroad, hturn, rfl, ?_⟩
  obtain ⟨id, i, forward⟩ := t
  by_cases hsame : forward = outgoing
  · subst hsame
    have hnear : (⟨id, i, forward⟩ : Segment).pointIndex (!forward) = i := by
      cases forward <;> rfl
    left
    refine ⟨?_, ?_, ?_⟩
    · rw [Segment.roadPoint, hnear]
    · cases hone : road.oneWay with
      | true => exact .inl (hway hone)
      | false => exact .inr rfl
    · rw [Segment.roadPoint, hnear]
      exact hlt
  · obtain rfl : forward = !outgoing := Bool.eq_not.mpr hsame
    have hnear : (⟨id, i, !outgoing⟩ : Segment).pointIndex (!outgoing) = i + 1 := by
      cases outgoing <;> rfl
    have hnext : (i + 1).toNat = i.toNat + 1 := by
      rw [UInt32.toNat_add]
      exact Nat.mod_eq_of_lt hindex
    right
    refine ⟨?_, ?_, ?_⟩
    · rw [Segment.roadPoint, hnear]
      show _ = (⟨id, i + 1 - 1, !outgoing⟩ : Segment)
      rw [UInt32.add_sub_cancel]
    · cases hone : road.oneWay with
      | true => exact .inl (by simpa using hway hone)
      | false => exact .inr rfl
    · rw [Segment.roadPoint, hnear, UInt32.lt_iff_toNat_lt, hnext]
      exact Nat.succ_pos _

/-! ## Steps onward and back -/

section Steps

variable {joints : List Joint}

/-- What stands at the place of a legal segment's end is a point of its own road. -/
theorem within_of_meet (h : g.Joined joints) (hs : g.Legal s)
    (hmeet : Joint.Meet joints (s.roadPoint outgoing) p) {road : Road}
    (hroad : g.road? p.feature = some road) : p.index.toNat < road.points.length := by
  rcases hmeet with rfl | ⟨joint, hjoint, -, hp⟩
  · obtain ⟨road', hroad', hlt, -⟩ := hs
    obtain rfl := Option.some.inj (hroad'.symm.trans hroad)
    exact Segment.toNat_pointIndex_lt hlt outgoing
  · exact h.within joint hjoint p hp road hroad

/-- Steps lead to legal segments that touch, and never straight back. -/
theorem legal_of_mem_steps (h : g.Joined joints) (hs : g.Legal s) {step : Step}
    (hstep : step ∈ (g.withJoints joints).steps s outgoing) :
    g.Legal step.target ∧ step.target ≠ s.reversed ∧
      step.weight = g.weight (if outgoing then step.target else s) ∧
      Joint.Meet joints (s.roadPoint outgoing) (step.target.roadPoint (!outgoing)) := by
  obtain ⟨p, hp, hat⟩ := mem_steps_iff.mp hstep
  have hmeet := (mem_meeting_iff h).mp hp
  have hat : step ∈ g.stepsAt s outgoing p := hat
  obtain ⟨hlegal, hnear, hturn, hweight⟩ :=
    legal_of_mem_stepsAt (fun road hroad => within_of_meet h hs hmeet hroad) hat
  exact ⟨hlegal, hturn, hweight, hnear ▸ hmeet⟩

/-- The steps between legal segments, onward and back. -/
theorem mem_steps_iff_of_legal (h : g.Joined joints) (hs : g.Legal s) (ht : g.Legal t)
    (hindex : t.index.toNat + 1 < UInt32.size) {w : Weight} :
    ⟨t, w⟩ ∈ (g.withJoints joints).steps s outgoing ↔
      t ≠ s.reversed ∧ w = g.weight (if outgoing then t else s) ∧
        Joint.Meet joints (s.roadPoint outgoing) (t.roadPoint (!outgoing)) := by
  constructor
  · intro hstep
    exact (legal_of_mem_steps h hs hstep).2
  · rintro ⟨hturn, rfl, hmeet⟩
    refine mem_steps_iff.mpr ⟨_, (mem_meeting_iff h).mpr hmeet, ?_⟩
    exact mem_stepsAt_of_legal ht hindex hturn

/-- **Steps back mirror steps onward.**  The steps onward from a legal segment lead to the legal
segments that start at the place where it ends, other than itself reversed, at the cost of the
segment stepped onto; and they are the steps back from there.  The points between which a segment
lies need indices, which are words. -/
theorem steps_mirrored (h : g.Joined joints) (hs : g.Legal s) :
    (∀ step ∈ (g.withJoints joints).steps s true, g.Legal step.target ∧
      step.target ≠ s.reversed ∧ step.weight = g.weight step.target ∧
      Joint.Meet joints (s.roadPoint true) (step.target.roadPoint false)) ∧
    ∀ t w, g.Legal t → t.index.toNat + 1 < UInt32.size →
      (⟨t, w⟩ ∈ (g.withJoints joints).steps s true ↔
        t ≠ s.reversed ∧ w = g.weight t ∧
          Joint.Meet joints (s.roadPoint true) (t.roadPoint false)) ∧
      (s.index.toNat + 1 < UInt32.size →
        (⟨t, w⟩ ∈ (g.withJoints joints).steps s true ↔
          ⟨s, w⟩ ∈ (g.withJoints joints).steps t false)) := by
  refine ⟨fun step hstep => legal_of_mem_steps h hs hstep, ?_⟩
  intro t w ht htindex
  have honward : ⟨t, w⟩ ∈ (g.withJoints joints).steps s true ↔ t ≠ s.reversed ∧ w = g.weight t ∧
      Joint.Meet joints (s.roadPoint true) (t.roadPoint false) :=
    mem_steps_iff_of_legal h hs ht htindex
  refine ⟨honward, ?_⟩
  intro hsindex
  have hback : ⟨s, w⟩ ∈ (g.withJoints joints).steps t false ↔ s ≠ t.reversed ∧ w = g.weight t ∧
      Joint.Meet joints (t.roadPoint false) (s.roadPoint true) :=
    mem_steps_iff_of_legal h ht hs hsindex
  have hturn : t ≠ s.reversed ↔ s ≠ t.reversed := by
    refine not_congr ⟨?_, ?_⟩
    · rintro rfl
      exact (Segment.reversed_reversed s).symm
    · rintro rfl
      exact (Segment.reversed_reversed t).symm
  rw [honward, hback, hturn]
  -- back or onward, a step costs what its later segment costs
  exact and_congr_right fun _ => and_congr_right fun _ => ⟨Joint.Meet.symm, Joint.Meet.symm⟩

end Steps

end Network

/-! ## Two roads that cross -/

namespace Corner

/-- A road open both ways, from west to east. -/
def street : Road := ⟨[⟨0.0, 1.0⟩, ⟨1.0, 1.0⟩, ⟨2.0, 1.0⟩], 36.0, false⟩

/-- A road open one way only, from south to north. -/
def lane : Road := ⟨[⟨1.0, 0.0⟩, ⟨1.0, 1.0⟩, ⟨1.0, 2.0⟩], 36.0, true⟩

def network : Network := { map := (({} : RoadMap).insert 0 street).insert 1 lane }

/-- The roads cross in their second points. -/
def joints : List Joint := [[⟨0, 1⟩, ⟨1, 1⟩]]

theorem road?_street : network.road? 0 = some street := by rfl

theorem road?_lane : network.road? 1 = some lane := by rfl

theorem joined : network.Joined joints := by
  refine Network.joined_singleton ?_
  intro p hp road hroad
  simp only [List.mem_cons, List.not_mem_nil, or_false] at hp
  rcases hp with rfl | rfl
  · obtain rfl := Option.some.inj (road?_street.symm.trans hroad)
    decide
  · obtain rfl := Option.some.inj (road?_lane.symm.trans hroad)
    decide

/-- From the street a turn leads down the lane, and back from there. -/
theorem steps_from_street_to_lane :
    ⟨⟨1, 1, true⟩, network.weight ⟨1, 1, true⟩⟩
        ∈ (network.withJoints joints).steps ⟨0, 0, true⟩ true ∧
      ⟨⟨0, 0, true⟩, network.weight ⟨1, 1, true⟩⟩
        ∈ (network.withJoints joints).steps ⟨1, 1, true⟩ false ∧
      ∀ step ∈ (network.withJoints joints).steps ⟨0, 0, true⟩ true,
        step.target ≠ ⟨0, 0, false⟩ := by
  have hstreet : network.Legal ⟨0, 0, true⟩ := ⟨street, road?_street, by decide, fun _ => rfl⟩
  have hlane : network.Legal ⟨1, 1, true⟩ := ⟨lane, road?_lane, by decide, fun _ => rfl⟩
  obtain ⟨hsteps, hmirror⟩ := Network.steps_mirrored joined hstreet
  obtain ⟨honward, hback⟩ := hmirror ⟨1, 1, true⟩ (network.weight ⟨1, 1, true⟩) hlane (by decide)
  have hstep := honward.mpr ⟨by decide, rfl, .inr ⟨_, List.mem_singleton_self _, by decide, by decide⟩⟩
  exact ⟨hstep, (hback (by decide)).mp hstep, fun step hmem => (hsteps step hmem).2.1⟩

end Corner

end Crossroads

import Crossroads.Graph.Sweep
import Crossroads.Proofs.Graph.JointIndex
import Crossroads.Proofs.Graph.Way

/-!
# Steps, and how far they can lead

Everything that a step can be is said once, in `Network.mem_stepsAt_iff`.  It follows that the
segments within reach of a source are among finitely many (`Network.mem_around_of_way`), fewer than
the limit that a sweep is given (`Network.length_around_lt`).
-/

namespace Crossroads

namespace Network

/-! ## What a step is -/

theorem mem_stepTo_iff {g : Network} {s t : Segment} {outgoing : Bool} {step : Step} :
    step ∈ g.stepTo s outgoing t ↔
      step.target = t ∧ t ≠ s.reversed ∧ step.weight = g.weight (if outgoing then t else s) := by
  obtain ⟨target, weight⟩ := step
  unfold stepTo
  by_cases h : t = s.reversed
  · simp [h]
  · simp [h, Step.mk.injEq]

/-- A step at a road point goes on along its road or goes back along it. -/
theorem mem_stepsAt_iff {g : Network} {s : Segment} {outgoing : Bool} {p : RoadPoint}
    {step : Step} :
    step ∈ g.stepsAt s outgoing p ↔
      ∃ road, g.road? p.feature = some road ∧ step.target ≠ s.reversed ∧
        step.weight = g.weight (if outgoing then step.target else s) ∧
        ((step.target = ⟨p.feature, p.index, outgoing⟩ ∧ (outgoing = true ∨ road.oneWay = false) ∧
            p.index.toNat + 1 < road.points.length) ∨
          (step.target = ⟨p.feature, p.index - 1, !outgoing⟩ ∧
            (outgoing = false ∨ road.oneWay = false) ∧ 0 < p.index)) := by
  unfold stepsAt
  cases g.road? p.feature with
  | none => simp
  | some road =>
    simp only [List.mem_append, List.mem_ite_nil_right, mem_stepTo_iff, Bool.and_eq_true,
      Bool.or_eq_true, Bool.not_eq_true', decide_eq_true_eq, Option.some.injEq, exists_eq_left']
    constructor
    · rintro (⟨⟨hway, hlast⟩, htarget, hturn, hweight⟩ | ⟨⟨hway, hfirst⟩, htarget, hturn, hweight⟩)
      · exact ⟨htarget ▸ hturn, htarget ▸ hweight, .inl ⟨htarget, hway, hlast⟩⟩
      · exact ⟨htarget ▸ hturn, htarget ▸ hweight, .inr ⟨htarget, hway, hfirst⟩⟩
    · rintro ⟨hturn, hweight, ⟨htarget, hway, hlast⟩ | ⟨htarget, hway, hfirst⟩⟩
      · exact .inl ⟨⟨hway, hlast⟩, htarget, htarget ▸ hturn, htarget ▸ hweight⟩
      · exact .inr ⟨⟨hway, hfirst⟩, htarget, htarget ▸ hturn, htarget ▸ hweight⟩

theorem mem_steps_iff {g : Network} {s : Segment} {outgoing : Bool} {step : Step} :
    step ∈ g.steps s outgoing ↔
      ∃ p ∈ g.meeting (s.roadPoint outgoing), step ∈ g.stepsAt s outgoing p := by
  rw [steps, List.mem_flatMap]

/-- Road points meet in a joint, or a road point is alone at its place. -/
theorem mem_meeting {g : Network} {p q : RoadPoint} (h : q ∈ g.meeting p) :
    q = p ∨ ∃ joint ∈ g.joints, q ∈ joint := by
  unfold meeting at h
  cases hid : g.jointId? p with
  | none =>
    rw [hid] at h
    exact .inl (List.mem_singleton.mp h)
  | some id =>
    rw [hid, Option.bind_some] at h
    cases hjoint : g.joint? id with
    | none =>
      rw [hjoint] at h
      exact .inl (List.mem_singleton.mp h)
    | some joint =>
      rw [hjoint] at h
      exact .inr ⟨joint, List.mem_of_getElem? hjoint, h⟩

/-! ## How far steps lead -/

/-- The segments of a feature up to an index, in both directions. -/
def bothWays (id : FeatureId) (count : Nat) : List Segment :=
  (List.range count).flatMap fun i => [⟨id, UInt32.ofNat i, true⟩, ⟨id, UInt32.ofNat i, false⟩]

theorem length_bothWays (id : FeatureId) (count : Nat) : (bothWays id count).length = 2 * count := by
  induction count with
  | zero => rfl
  | succ count ih =>
    rw [bothWays, List.range_succ, List.flatMap_append, List.length_append, ← bothWays, ih]
    rfl

theorem mem_bothWays {t : Segment} {count : Nat} (h : t.index.toNat < count) :
    t ∈ bothWays t.feature count := by
  obtain ⟨id, i, forward⟩ := t
  have hi : UInt32.ofNat i.toNat = i := UInt32.ofNat_toNat
  refine List.mem_flatMap.mpr ⟨i.toNat, List.mem_range.mpr h, ?_⟩
  cases forward <;> simp [hi]

/-- A segment that steps from the source can come to: one of a valid road, or one of the source's
own feature that comes no later than the source. -/
def Within (g : Network) (source t : Segment) : Prop :=
  (∃ road, g.road? t.feature = some road ∧
      t.index.toNat < g.span t.feature road) ∨
    (t.feature = source.feature ∧ t.index ≤ source.index)

/-- The segments that steps from the source can come to. -/
def around (g : Network) (source : Segment) : List Segment :=
  ((g.map.roads.toList.filter fun entry => entry.2.isValid).flatMap fun entry =>
      bothWays entry.1 (g.span entry.1 entry.2))
    ++ bothWays source.feature (source.index.toNat + 1)

theorem length_around_lt (g : Network) (source : Segment) :
    (g.around source).length < g.reach source := by
  have hroads : ∀ entries : List (FeatureId × Road),
      (entries.flatMap fun entry => bothWays entry.1 (g.span entry.1 entry.2)).length
        = (entries.map fun entry => 2 * g.span entry.1 entry.2).foldr (· + ·) 0 := by
    intro entries
    induction entries with
    | nil => rfl
    | cons entry rest ih =>
      rw [List.flatMap_cons, List.length_append, ih, length_bothWays]
      rfl
  rw [around, List.length_append, hroads, length_bothWays, reach, extent]
  omega

theorem mem_around_of_within {g : Network} {source t : Segment} (h : g.Within source t) :
    t ∈ g.around source := by
  rw [around, List.mem_append]
  rcases h with ⟨road, hroad, hindex⟩ | ⟨hfeature, hindex⟩
  · left
    obtain ⟨hget, hvalid⟩ := Option.filter_eq_some_iff.mp hroad
    refine List.mem_flatMap.mpr ⟨(t.feature, road), List.mem_filter.mpr ⟨?_, hvalid⟩, ?_⟩
    · exact Std.TreeMap.mem_toList_iff_getElem?_eq_some.mpr hget
    · exact mem_bothWays hindex
  · right
    rw [← hfeature]
    exact mem_bothWays (Nat.lt_succ_of_le (UInt32.le_iff_toNat_le.mp hindex))

theorem within_self (g : Network) (source : Segment) : g.Within source source :=
  .inr ⟨rfl, UInt32.le_refl _⟩

theorem index_lt_span_of_joint {g : Network} {joints : List Joint} {road : Road} {joint : Joint}
    {p : RoadPoint} (hjoint : joint ∈ joints) (hp : p ∈ joint) :
    p.index.toNat < (g.withJoints joints).span p.feature road :=
  Nat.lt_of_lt_of_le (JointIndex.index_lt_beyond hjoint hp) (Nat.le_max_right _ _)

/-- The point where a segment ends lies no further than its own index, but for the one ahead. -/
theorem index_pred_roadPoint_le {s : Segment} (h : 0 < (s.roadPoint true).index) :
    (s.roadPoint true).index - 1 ≤ s.index := by
  obtain ⟨f, i, d⟩ := s
  have hi := i.toNat_lt
  cases d <;>
    simp only [Segment.roadPoint, Segment.pointIndex, beq_self_eq_true, Bool.false_eq_true,
      beq_iff_eq, if_true, if_false, UInt32.lt_iff_toNat_lt, UInt32.le_iff_toNat_le,
      UInt32.toNat_sub, UInt32.toNat_add] at h ⊢ <;>
    grind

/-- A step does not leave what is within reach. -/
theorem within_of_step {g : Network} {joints : List Joint} {source s : Segment} {step : Step}
    (hs : (g.withJoints joints).Within source s)
    (hstep : step ∈ (g.withJoints joints).steps s true) :
    (g.withJoints joints).Within source step.target := by
  obtain ⟨p, hp, hat⟩ := mem_steps_iff.mp hstep
  obtain ⟨road, hroad, -, -, hcases⟩ := mem_stepsAt_iff.mp hat
  rcases hcases with ⟨htarget, -, hindex⟩ | ⟨htarget, -, hindex⟩
  · rw [htarget]
    refine .inl ⟨road, hroad, Nat.lt_of_lt_of_le ?_ (Nat.le_max_left _ _)⟩
    exact Nat.lt_of_succ_lt hindex
  · rw [htarget]
    rcases mem_meeting hp with rfl | ⟨joint, hjoint, hmem⟩
    · have hle := index_pred_roadPoint_le hindex
      rcases hs with ⟨road', hroad', hlt⟩ | ⟨hfeature, hsource⟩
      · exact .inl ⟨road', hroad', Nat.lt_of_le_of_lt (UInt32.le_iff_toNat_le.mp hle) hlt⟩
      · exact .inr ⟨hfeature, UInt32.le_trans hle hsource⟩
    · refine .inl ⟨road, hroad, Nat.lt_of_le_of_lt ?_ (index_lt_span_of_joint hjoint hmem)⟩
      show (p.index - 1).toNat ≤ p.index.toNat
      have hone : (1 : UInt32) ≤ p.index := UInt32.le_iff_toNat_le.mpr (UInt32.lt_iff_toNat_lt.mp hindex)
      rw [UInt32.toNat_sub_of_le _ _ hone]
      exact Nat.sub_le _ _

/-- Everything that a way leads to is among finitely many segments. -/
theorem mem_around_of_way {g : Network} {joints : List Joint} {source t : Segment} {n : Nat}
    (h : Way (g.withJoints joints).Leads source t n) : t ∈ (g.withJoints joints).around source := by
  refine mem_around_of_within ?_
  induction h with
  | here => exact within_self _ _
  | onward _ hlead ih =>
    obtain ⟨w, hstep, -⟩ := hlead
    exact within_of_step ih hstep

end Network

end Crossroads

import Crossroads.Proofs.Graph.Mirror

/-!
# Steps off the roads

Joints are taken as they are given, also when they name points that a road does not have.  The
segment ahead of such a point is not stepped onto, but the one behind it is, though no road has that
either.

* `Network.weight_behind` — there the travel is free.
* `Network.steps_legal_iff` — steps lead to legal segments only, exactly when what meets at the place
  are points that their roads have, or points of one-way roads that steps do not go back along.
-/

namespace Crossroads

namespace Network

/-- The segment behind a road point, in the direction in which steps go back along its road. -/
def behind (p : RoadPoint) (outgoing : Bool) : Segment := ⟨p.feature, p.index - 1, !outgoing⟩

variable {g : Network} {s : Segment} {outgoing : Bool} {p : RoadPoint} {road : Road}

theorem toNat_index_behind (h : 0 < p.index) (outgoing : Bool) :
    (behind p outgoing).index.toNat + 1 = p.index.toNat := by
  have hpos : 0 < p.index.toNat := UInt32.lt_iff_toNat_lt.mp h
  have hbefore : (p.index - 1).toNat = p.index.toNat - 1 :=
    UInt32.toNat_sub_of_le _ _ (UInt32.le_iff_toNat_le.mpr hpos)
  rw [behind, hbefore]
  omega

/-- Behind a point that the road does not have the travel is free. -/
theorem weight_behind (hroad : g.road? p.feature = some road)
    (hbeyond : road.points.length ≤ p.index.toNat) : g.weight (behind p outgoing) = 0 := by
  have hback : (behind p outgoing).index + 1 = p.index := UInt32.sub_add_cancel _ _
  have hend : road.point? ((behind p outgoing).index + 1) = none := by
    rw [hback]
    exact List.getElem?_eq_none hbeyond
  have hroad : g.road? (behind p outgoing).feature = some road := hroad
  rw [weight, hroad]
  dsimp only
  rw [Pace.weight, hend]
  split
  · rename_i hsome
    cases hsome
  · rfl

/-- A step at a road point leads to a legal segment, or to the one behind a point that the road does
not have. -/
theorem legal_or_stray_of_mem_stepsAt {step : Step} (h : step ∈ g.stepsAt s outgoing p) :
    g.Legal step.target ∨ ∃ road, g.road? p.feature = some road ∧
      (outgoing = false ∨ road.oneWay = false) ∧ road.points.length ≤ p.index.toNat ∧
      step.target = behind p outgoing ∧
      step.weight = g.weight (if outgoing then step.target else s) := by
  obtain ⟨road, hroad, -, hweight, hcases⟩ := mem_stepsAt_iff.mp h
  by_cases hlt : p.index.toNat < road.points.length
  · left
    refine (legal_of_mem_stepsAt ?_ h).1
    intro road' hroad'
    obtain rfl := Option.some.inj (hroad.symm.trans hroad')
    exact hlt
  · right
    have hbeyond := Nat.not_lt.mp hlt
    rcases hcases with ⟨-, -, hnext⟩ | ⟨htarget, hway, -⟩
    · exact absurd (Nat.lt_of_succ_lt hnext) hlt
    · exact ⟨road, hroad, hway, hbeyond, htarget, hweight⟩

/-- There is a step to the segment behind a point that the road does not have. -/
theorem stray_mem_stepsAt (hs : g.OnRoad s) (hroad : g.road? p.feature = some road)
    (hway : outgoing = false ∨ road.oneWay = false) (hbeyond : road.points.length ≤ p.index.toNat) :
    ∃ step ∈ g.stepsAt s outgoing p, step.target = behind p outgoing ∧
      ¬ g.OnRoad step.target := by
  have hfirst : 0 < p.index := by
    obtain ⟨-, hvalid⟩ := Option.filter_eq_some_iff.mp hroad
    rw [Road.isValid, Bool.and_eq_true, decide_eq_true_eq] at hvalid
    rw [UInt32.lt_iff_toNat_lt]
    exact Nat.lt_of_lt_of_le Nat.two_pos (Nat.le_trans hvalid.1 hbeyond)
  have hbehind := toNat_index_behind hfirst outgoing
  have hoff : ¬ g.OnRoad (behind p outgoing) := by
    rintro ⟨road', hroad', hindex⟩
    obtain rfl := Option.some.inj (hroad.symm.trans hroad')
    rw [hbehind] at hindex
    exact Nat.not_lt.mpr hbeyond hindex
  have hturn : behind p outgoing ≠ s.reversed := by
    intro heq
    rw [heq] at hoff
    exact hoff hs
  refine ⟨⟨behind p outgoing, g.weight (if outgoing then behind p outgoing else s)⟩, ?_, rfl, hoff⟩
  exact mem_stepsAt_iff.mpr ⟨road, hroad, hturn, rfl, .inr ⟨rfl, hway, hfirst⟩⟩

/-- **Where steps leave the roads.**  Of a segment that exists, all steps lead to segments that exist
and are open in their direction, exactly when no joint at its end names a point beyond the end of a
road, unless the steps would go back along that road and it is one-way.  A step never goes against
the direction of a one-way road; one onto a segment that does not exist is free. -/
theorem steps_legal_iff (joints : List Joint) (hs : g.OnRoad s) :
    ((∀ step ∈ (g.withJoints joints).steps s outgoing, g.Legal step.target) ↔
      ∀ p ∈ (g.withJoints joints).meeting (s.roadPoint outgoing), ∀ road,
        g.road? p.feature = some road → (outgoing = false ∨ road.oneWay = false) →
        p.index.toNat < road.points.length) ∧
    ∀ step ∈ (g.withJoints joints).steps s outgoing,
      (∃ road, g.road? step.target.feature = some road ∧
        (road.oneWay = true → step.target.forward = true)) ∧
      (¬ g.OnRoad step.target → outgoing = true → step.weight = 0) := by
  have hstepsAt : ∀ {step : Step}, step ∈ (g.withJoints joints).steps s outgoing ↔
      ∃ p ∈ (g.withJoints joints).meeting (s.roadPoint outgoing), step ∈ g.stepsAt s outgoing p :=
    mem_steps_iff
  refine ⟨⟨?_, ?_⟩, ?_⟩
  · intro hlegal p hp road hroad hway
    by_contra hlt
    obtain ⟨step, hat, -, hoff⟩ := stray_mem_stepsAt hs hroad hway (Nat.not_lt.mp hlt)
    obtain ⟨road', hroad', hindex, -⟩ := hlegal step (hstepsAt.mpr ⟨p, hp, hat⟩)
    exact hoff ⟨road', hroad', hindex⟩
  · intro hwithin step hstep
    obtain ⟨p, hp, hat⟩ := hstepsAt.mp hstep
    rcases legal_or_stray_of_mem_stepsAt hat with hlegal | ⟨road, hroad, hway, hbeyond, -⟩
    · exact hlegal
    · exact absurd (hwithin p hp road hroad hway) (Nat.not_lt.mpr hbeyond)
  · intro step hstep
    obtain ⟨p, -, hat⟩ := hstepsAt.mp hstep
    rcases legal_or_stray_of_mem_stepsAt hat with
      ⟨road, hroad, hindex, hforward⟩ | ⟨road, hroad, hway, hbeyond, htarget, hweight⟩
    · refine ⟨⟨road, hroad, hforward⟩, ?_⟩
      intro hoff
      exact absurd ⟨road, hroad, hindex⟩ hoff
    · rw [htarget] at hweight ⊢
      refine ⟨⟨road, hroad, ?_⟩, ?_⟩
      · intro hone
        simpa [hone, behind] using hway
      · rintro - rfl
        rw [hweight, if_pos rfl, weight_behind hroad hbeyond]

end Network

namespace Corner

/-- The end of the lane is joined with a point that the street has lost. -/
def oldJoints : List Joint := [[⟨1, 2⟩, ⟨0, 5⟩]]

/-- From the end of the lane a free step leads past the end of the street. -/
theorem stray_past_street :
    ∃ step ∈ (network.withJoints oldJoints).steps ⟨1, 1, true⟩ true,
      ¬ network.Legal step.target ∧ ¬ network.OnRoad step.target ∧ step.weight = 0 := by
  have hlane : network.OnRoad ⟨1, 1, true⟩ := ⟨lane, road?_lane, by decide⟩
  obtain ⟨hlegal, hsteps⟩ := Network.steps_legal_iff oldJoints hlane
  have hmeeting : (network.withJoints oldJoints).meeting ⟨1, 2⟩ = [⟨1, 2⟩, ⟨0, 5⟩] := by rfl
  have hstray : ¬ ∀ step ∈ (network.withJoints oldJoints).steps ⟨1, 1, true⟩ true,
      network.Legal step.target := by
    rw [hlegal]
    intro hwithin
    have hpoint : (⟨0, 5⟩ : RoadPoint) ∈ (network.withJoints oldJoints).meeting ⟨1, 2⟩ := by
      rw [hmeeting]
      decide
    exact absurd (hwithin ⟨0, 5⟩ hpoint street road?_street (.inr rfl)) (by decide)
  push Not at hstray
  obtain ⟨step, hstep, hillegal⟩ := hstray
  obtain ⟨⟨road, hroad, hforward⟩, hfree⟩ := hsteps step hstep
  have hoff : ¬ network.OnRoad step.target := by
    rintro ⟨road', hroad', hindex⟩
    obtain rfl := Option.some.inj (hroad.symm.trans hroad')
    exact hillegal ⟨road, hroad, hindex, hforward⟩
  exact ⟨step, hstep, hillegal, hoff, hfree hoff rfl⟩

end Corner

end Crossroads

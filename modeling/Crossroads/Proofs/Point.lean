import Crossroads.Box
import Mathlib.Algebra.Order.Field.Rat
import Mathlib.Algebra.Order.Ring.Abs
import Mathlib.Tactic.Linarith
import Mathlib.Tactic.LinearCombination
import Mathlib.Tactic.NormNum
import Mathlib.Tactic.Ring

/-!
# The plane without rounding

Over the rationals no step of planar geometry rounds, and the definitions mean what they are meant to
mean.

* `Point.distanceSquared_project_le` — no point of a segment is nearer than the projection.
* `Point.project_nearest` — no other point is as near, so that the ends of a segment may be swapped.
* `Box.distanceSquared_le` — no point of a box is nearer than the box.
-/

namespace Crossroads

/-! ## Numbers -/

namespace Scalar

theorem magnitude_eq_abs (x : ℚ) : magnitude x = |x| := by
  show (if x < 0.0 then 0.0 - x else x) = |x|
  norm_num
  split
  · rename_i hneg
    exact (abs_of_neg hneg).symm
  · rename_i hpos
    exact (abs_of_nonneg (not_lt.mp hpos)).symm

theorem clamp_eq_max_min {low high : ℚ} (h : low ≤ high) (x : ℚ) :
    clamp low high x = max low (min high x) := by
  rw [clamp]
  split
  · rename_i hbelow
    rw [min_eq_right (hbelow.le.trans h), max_eq_left hbelow.le]
  · rename_i hlow
    have hlow : low ≤ x := not_lt.mp hlow
    split
    · rename_i habove
      rw [min_eq_left habove.le, max_eq_right h]
    · rename_i hhigh
      rw [min_eq_right (not_lt.mp hhigh), max_eq_right hlow]

theorem clamp_mem {low high : ℚ} (h : low ≤ high) (x : ℚ) :
    low ≤ clamp low high x ∧ clamp low high x ≤ high := by
  rw [clamp_eq_max_min h]
  exact ⟨le_max_left _ _, max_le h (min_le_left _ _)⟩

/-- Between the bounds no number is nearer than the clamped one. -/
theorem sq_clamp_sub_le {low high t : ℚ} (hlow : low ≤ t) (hhigh : t ≤ high) (x : ℚ) :
    (clamp low high x - x) ^ 2 ≤ (t - x) ^ 2 := by
  rw [clamp_eq_max_min (hlow.trans hhigh)]
  rcases le_total high x with hbeyond | hbefore
  · rw [min_eq_left hbeyond, max_eq_right (hlow.trans hhigh), ← neg_sq (high - x), ← neg_sq (t - x)]
    exact pow_le_pow_left₀ (by linarith) (by linarith) 2
  · rw [min_eq_right hbefore]
    rcases le_total x low with hbelow | hwithin
    · rw [max_eq_left hbelow]
      exact pow_le_pow_left₀ (by linarith) (by linarith) 2
    · rw [max_eq_right hwithin, sub_self, zero_pow two_ne_zero]
      exact sq_nonneg (t - x)

end Scalar

/-! ## Segments -/

namespace Point

theorem distanceSquared_eq (a b : Point ℚ) :
    distanceSquared a b = (a.x - b.x) ^ 2 + (a.y - b.y) ^ 2 := by
  rw [sq, sq]
  rfl

/-- The point of segment `ab` after a part `t` of it. -/
def between (a b : Point ℚ) (t : ℚ) : Point ℚ := ⟨a.x + t * (b.x - a.x), a.y + t * (b.y - a.y)⟩

theorem between_zero (a b : Point ℚ) : between a b 0 = a := by
  simp [between]

theorem between_one (a b : Point ℚ) : between a b 1 = b := by
  simp [between]

/-- The square of the length of a segment. -/
def lengthSquared (a b : Point ℚ) : ℚ := (b.x - a.x) ^ 2 + (b.y - a.y) ^ 2

/-- The part of segment `ab`, or of the line through it, after which a point of the line is nearest to
`p`. -/
def foot (p a b : Point ℚ) : ℚ :=
  ((p.x - a.x) * (b.x - a.x) + (p.y - a.y) * (b.y - a.y)) / lengthSquared a b

theorem project_eq (p a b : Point ℚ) : project p a b =
    if lengthSquared a b = 0 then a else between a b (Scalar.clamp 0 1 (foot p a b)) := by
  have hlength : lengthSquared a b = (b.x - a.x) * (b.x - a.x) + (b.y - a.y) * (b.y - a.y) := by
    rw [lengthSquared, sq, sq]
  have hzero : (0.0 : ℚ) = 0 := by norm_num
  have hone : (1.0 : ℚ) = 1 := by norm_num
  rw [foot, hlength, ← if_congr (beq_iff_eq (b := (0 : ℚ))) rfl rfl, ← hzero, ← hone]
  rfl

/-- The distance from a point of the line grows with the distance from the foot. -/
theorem distanceSquared_between (p a b : Point ℚ) (h : lengthSquared a b ≠ 0) (t : ℚ) :
    distanceSquared (between a b t) p = lengthSquared a b * (t - foot p a b) ^ 2
      + (distanceSquared a p - lengthSquared a b * foot p a b ^ 2) := by
  have hfoot : foot p a b * lengthSquared a b
      = (p.x - a.x) * (b.x - a.x) + (p.y - a.y) * (b.y - a.y) := div_mul_cancel₀ _ h
  rw [distanceSquared_eq, distanceSquared_eq, between]
  simp only
  rw [lengthSquared] at hfoot ⊢
  linear_combination 2 * t * hfoot

/-- The projection is a point of the segment. -/
theorem exists_project_eq (p a b : Point ℚ) : ∃ t, 0 ≤ t ∧ t ≤ 1 ∧ project p a b = between a b t := by
  rw [project_eq]
  split
  · exact ⟨0, le_refl 0, zero_le_one, (between_zero a b).symm⟩
  · obtain ⟨hlow, hhigh⟩ := Scalar.clamp_mem zero_le_one (foot p a b)
    exact ⟨_, hlow, hhigh, rfl⟩

/-- No point of a segment is nearer than the projection. -/
theorem distanceSquared_project_le (p a b : Point ℚ) {t : ℚ} (hlow : 0 ≤ t) (hhigh : t ≤ 1) :
    distanceSquared (project p a b) p ≤ distanceSquared (between a b t) p := by
  rw [project_eq]
  split
  · rename_i hzero
    -- the ends of the segment are one point
    have hx : b.x - a.x = 0 := by
      rw [lengthSquared] at hzero
      nlinarith [sq_nonneg (b.x - a.x), sq_nonneg (b.y - a.y)]
    have hy : b.y - a.y = 0 := by
      rw [lengthSquared] at hzero
      nlinarith [sq_nonneg (b.x - a.x), sq_nonneg (b.y - a.y)]
    rw [between, hx, hy, mul_zero, add_zero, add_zero]
  · rename_i hlength
    rw [distanceSquared_between p a b hlength, distanceSquared_between p a b hlength]
    have hpos : 0 ≤ lengthSquared a b := add_nonneg (sq_nonneg _) (sq_nonneg _)
    exact add_le_add_left
      (mul_le_mul_of_nonneg_left (Scalar.sq_clamp_sub_le hlow hhigh _) hpos) _

theorem almostEqual_iff (eps : ℚ) (p q : Point ℚ) :
    p.almostEqual eps q = true ↔ |p.x - q.x| < eps ∧ |p.y - q.y| < eps := by
  rw [almostEqual, Bool.and_eq_true, decide_eq_true_iff, decide_eq_true_iff,
    Scalar.magnitude_eq_abs, Scalar.magnitude_eq_abs]

/-- Almost equal points are near each other. -/
theorem distanceSquared_lt_of_almostEqual {eps : ℚ} {p q : Point ℚ}
    (h : p.almostEqual eps q = true) : distanceSquared q p < 2 * eps ^ 2 := by
  obtain ⟨hx, hy⟩ := (almostEqual_iff eps p q).mp h
  have hsquare {d : ℚ} (hd : |d| < eps) : d ^ 2 < eps ^ 2 :=
    sq_lt_sq.mpr (hd.trans_le (le_abs_self eps))
  rw [abs_sub_comm] at hx hy
  rw [distanceSquared_eq]
  linarith [hsquare hx, hsquare hy]

/-! ## The only nearest point -/

/-- The point is one of segment `ab`. -/
def LiesOn (q a b : Point ℚ) : Prop := ∃ t, 0 ≤ t ∧ t ≤ 1 ∧ q = between a b t

theorem LiesOn.symm {q a b : Point ℚ} (h : q.LiesOn a b) : q.LiesOn b a := by
  obtain ⟨t, hlow, hhigh, rfl⟩ := h
  refine ⟨1 - t, sub_nonneg.mpr hhigh, sub_le_self 1 hlow, ?_⟩
  rw [between, between]
  congr 1 <;> ring

theorem distanceSquared_project_le_of_liesOn (p : Point ℚ) {q a b : Point ℚ} (h : q.LiesOn a b) :
    distanceSquared (project p a b) p ≤ distanceSquared q p := by
  obtain ⟨t, hlow, hhigh, rfl⟩ := h
  exact distanceSquared_project_le p a b hlow hhigh

/-- The parallelogram of `p` and two points of a segment, with the point midway between them. -/
theorem distanceSquared_add_distanceSquared (p a b : Point ℚ) (t u : ℚ) :
    distanceSquared (between a b t) p + distanceSquared (between a b u) p
      = 2 * distanceSquared (between a b ((t + u) / 2)) p
        + distanceSquared (between a b t) (between a b u) / 2 := by
  simp only [distanceSquared_eq, between]
  ring

theorem eq_of_distanceSquared_le_zero {q r : Point ℚ} (h : distanceSquared q r ≤ 0) : q = r := by
  rw [distanceSquared_eq] at h
  have hx := sq_nonneg (q.x - r.x)
  have hy := sq_nonneg (q.y - r.y)
  have hx : q.x - r.x = 0 := pow_eq_zero_iff two_ne_zero |>.mp (by linarith)
  have hy : q.y - r.y = 0 := pow_eq_zero_iff two_ne_zero |>.mp (by linarith)
  obtain ⟨x, y⟩ := q
  obtain ⟨x', y'⟩ := r
  exact congrArg₂ mk (sub_eq_zero.mp hx) (sub_eq_zero.mp hy)

/-- No other point of a segment is as near as the projection: midway to it would be nearer still. -/
theorem eq_project_of_le {p q a b : Point ℚ} (hq : q.LiesOn a b)
    (h : distanceSquared q p ≤ distanceSquared (project p a b) p) : q = project p a b := by
  obtain ⟨t, htlow, hthigh, rfl⟩ := hq
  obtain ⟨u, hulow, huhigh, hproject⟩ := exists_project_eq p a b
  have hmidway := distanceSquared_project_le p a b (t := (t + u) / 2) (by linarith) (by linarith)
  have hsides := distanceSquared_add_distanceSquared p a b t u
  rw [hproject] at h hmidway ⊢
  exact eq_of_distanceSquared_le_zero (by linarith)

/-- The ends of a segment may be swapped. -/
theorem project_swap (p a b : Point ℚ) : project p b a = project p a b := by
  have hback : (project p b a).LiesOn a b := LiesOn.symm (exists_project_eq p b a)
  have honward : (project p a b).LiesOn b a := LiesOn.symm (exists_project_eq p a b)
  exact eq_project_of_le hback (distanceSquared_project_le_of_liesOn p honward)

/-- A point of a segment is its own projection. -/
theorem project_of_liesOn {p a b : Point ℚ} (h : p.LiesOn a b) : project p a b = p := by
  refine (eq_project_of_le h ?_).symm
  rw [distanceSquared_eq p p, sub_self, sub_self, zero_pow two_ne_zero, add_zero, distanceSquared_eq]
  exact add_nonneg (sq_nonneg _) (sq_nonneg _)

theorem almostEqual_self {eps : ℚ} (heps : 0 < eps) (p : Point ℚ) : p.almostEqual eps p = true := by
  rw [almostEqual_iff, sub_self, sub_self, abs_zero]
  exact ⟨heps, heps⟩

/-- **The projection is the nearest point of a segment**, and the only one, so that it is the same
from either end.  A point lies on a segment up to the tolerance from either end, and does so if it
lies on it. -/
theorem project_nearest (p a b : Point ℚ) :
    (project p a b).LiesOn a b ∧
    (∀ q : Point ℚ, q.LiesOn a b → distanceSquared (project p a b) p ≤ distanceSquared q p) ∧
    (∀ q : Point ℚ, q.LiesOn a b → distanceSquared q p ≤ distanceSquared (project p a b) p →
      q = project p a b) ∧
    project p b a = project p a b ∧
    onSegment p a b = onSegment p b a ∧
    (p.LiesOn a b → onSegment p a b = true) := by
  refine ⟨exists_project_eq p a b, fun q hq => distanceSquared_project_le_of_liesOn p hq,
    fun q hq hle => eq_project_of_le hq hle, project_swap p a b, ?_, ?_⟩
  · rw [onSegment, onSegment, project_swap]
  · intro h
    have htolerance : (0 : ℚ) < tolerance := by
      rw [tolerance]
      norm_num
    rw [onSegment, project_of_liesOn h]
    exact almostEqual_self htolerance p

/-- From beyond an end of a slope that end is nearest, whichever end comes first. -/
theorem project_onto_slope :
    (⟨3, 3⟩ : Point ℚ).LiesOn ⟨0, 0⟩ ⟨3, 3⟩ ∧ (⟨1, 1⟩ : Point ℚ).LiesOn ⟨0, 0⟩ ⟨3, 3⟩ ∧
    project ⟨5, 4⟩ ⟨0, 0⟩ ⟨3, 3⟩ = (⟨3, 3⟩ : Point ℚ) ∧
    project ⟨5, 4⟩ ⟨3, 3⟩ ⟨0, 0⟩ = (⟨3, 3⟩ : Point ℚ) ∧
    distanceSquared (⟨3, 3⟩ : Point ℚ) ⟨5, 4⟩ ≤ distanceSquared ⟨1, 1⟩ ⟨5, 4⟩ ∧
    onSegment (⟨1, 1⟩ : Point ℚ) ⟨3, 3⟩ ⟨0, 0⟩ = true := by
  have hend : (⟨3, 3⟩ : Point ℚ).LiesOn ⟨0, 0⟩ ⟨3, 3⟩ :=
    ⟨1, zero_le_one, le_refl 1, by norm_num [between]⟩
  have hinner : (⟨1, 1⟩ : Point ℚ).LiesOn ⟨0, 0⟩ ⟨3, 3⟩ :=
    ⟨1 / 3, by norm_num, by norm_num, by norm_num [between]⟩
  obtain ⟨-, hnearest, honly, hswap, -, -⟩ := project_nearest ⟨5, 4⟩ ⟨0, 0⟩ ⟨3, 3⟩
  obtain ⟨-, -, -, -, hback, hon⟩ := project_nearest ⟨1, 1⟩ ⟨0, 0⟩ ⟨3, 3⟩
  have hproject := honly ⟨3, 3⟩ hend (by decide +kernel)
  refine ⟨hend, hinner, hproject.symm, hswap.trans hproject.symm, ?_, hback ▸ hon hinner⟩
  rw [hproject]
  exact hnearest ⟨1, 1⟩ hinner

end Point

/-! ## Boxes -/

namespace Box

/-- The point lies in the box or on its rim. -/
theorem contains_iff (box : Box ℚ) (p : Point ℚ) : box.contains p = true ↔
    (box.lower.x ≤ p.x ∧ p.x ≤ box.upper.x) ∧ box.lower.y ≤ p.y ∧ p.y ≤ box.upper.y := by
  simp only [contains, Bool.and_eq_true, decide_eq_true_eq]
  tauto

theorem lesser_eq_min (a b : ℚ) : lesser a b = min a b := by
  rw [lesser]
  split
  · rename_i hlt
    exact (min_eq_left hlt.le).symm
  · rename_i hge
    exact (min_eq_right (not_lt.mp hge)).symm

theorem greater_eq_max (a b : ℚ) : greater a b = max a b := by
  rw [greater]
  split
  · rename_i hlt
    exact (max_eq_left hlt.le).symm
  · rename_i hge
    exact (max_eq_right (not_lt.mp hge)).symm

theorem lesser_greater_eq_clamp {low high : ℚ} (h : low ≤ high) (x : ℚ) :
    lesser high (greater low x) = Scalar.clamp low high x := by
  rw [lesser_eq_min, greater_eq_max, Scalar.clamp_eq_max_min h, max_min_distrib_left, max_eq_right h]

/-- No point of a box is nearer than the box. -/
theorem distanceSquared_le {box : Box ℚ} {q : Point ℚ} (hq : box.contains q = true) (p : Point ℚ) :
    box.distanceSquared p ≤ Point.distanceSquared q p := by
  obtain ⟨⟨hleft, hright⟩, hbottom, htop⟩ := (box.contains_iff q).mp hq
  rw [distanceSquared, Point.distanceSquared_eq q p]
  split
  · norm_num
    exact add_nonneg (sq_nonneg _) (sq_nonneg _)
  · rw [Point.distanceSquared_eq, nearest]
    simp only [lesser_greater_eq_clamp (hleft.trans hright), lesser_greater_eq_clamp (hbottom.trans htop)]
    exact add_le_add (Scalar.sq_clamp_sub_le hleft hright p.x) (Scalar.sq_clamp_sub_le hbottom htop p.y)

theorem between_bounds (x y : ℚ) {t : ℚ} (hlow : 0 ≤ t) (hhigh : t ≤ 1) :
    min x y ≤ x + t * (y - x) ∧ x + t * (y - x) ≤ max x y := by
  rcases le_total x y with h | h
  · rw [min_eq_left h, max_eq_right h]
    constructor
    · nlinarith [mul_nonneg hlow (sub_nonneg.mpr h)]
    · nlinarith [mul_nonneg (sub_nonneg.mpr hhigh) (sub_nonneg.mpr h)]
  · rw [min_eq_right h, max_eq_left h]
    constructor
    · nlinarith [mul_nonneg (sub_nonneg.mpr hhigh) (sub_nonneg.mpr h)]
    · nlinarith [mul_nonneg hlow (sub_nonneg.mpr h)]

/-- The points of a segment lie in its box. -/
theorem contains_between (a b : Point ℚ) {t : ℚ} (hlow : 0 ≤ t) (hhigh : t ≤ 1) :
    (ofCorners a b).contains (Point.between a b t) = true := by
  rw [contains_iff, ofCorners]
  simp only [lesser_eq_min, greater_eq_max]
  exact ⟨between_bounds a.x b.x hlow hhigh, between_bounds a.y b.y hlow hhigh⟩

end Box

end Crossroads

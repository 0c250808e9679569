import Crossroads.Overlay.Bundle
import Crossroads.Proofs.Coordinate

/-!
# Bundles as indexes

A bundle keeps what an index has to keep (`StretchIndex.Lawful`).  What goes in comes to its list, and
what is taken out leaves it; searches look at the list as long as all coordinates are numbers.  The
closest stretches come first because distances are put in order, with what is no number at the end
(`Scalar.notAfter_total`, `Scalar.notAfter_trans`).
-/

namespace Crossroads

/-! ## Distances in order -/

/-- Numbers are in order.  What is no number is neither less than a number nor greater. -/
class Scalar.Ordered (K : Type) [Scalar K] : Prop where
  lt_asymm {a b : K} : a < b → ¬ b < a
  lt_or_lt {a c : K} (b : K) : (b == b) = true → a < c → a < b ∨ b < c
  beq_self_of_lt {a b : K} : a < b → (a == a) = true ∧ (b == b) = true

instance : Scalar.Ordered ℚ where
  lt_asymm := lt_asymm
  lt_or_lt b _ h := h.gt_or_lt b
  beq_self_of_lt _ := ⟨beq_self_eq_true _, beq_self_eq_true _⟩

instance : Scalar.Ordered Coordinate where
  lt_asymm {a b} hab hba := by
    obtain ⟨ha, hb⟩ := Coordinate.beq_self_of_le (Coordinate.le_of_lt hab)
    exact lt_asymm ((Coordinate.lt_iff_place ha hb).mp hab) ((Coordinate.lt_iff_place hb ha).mp hba)
  lt_or_lt {a c} b hb hac := by
    obtain ⟨ha, hc⟩ := Coordinate.beq_self_of_le (Coordinate.le_of_lt hac)
    rw [Coordinate.lt_iff_place ha hb, Coordinate.lt_iff_place hb hc]
    exact ((Coordinate.lt_iff_place ha hc).mp hac).gt_or_lt b.place
  beq_self_of_lt h := Coordinate.beq_self_of_le (Coordinate.le_of_lt h)

namespace Scalar

variable {K : Type} [Scalar K] {a b c : K}

theorem notAfter_iff : notAfter a b = true
    ↔ (b == b) = false ∨ (a == a) = true ∧ ¬ b < a := by
  rw [notAfter, Bool.or_eq_true, Bool.and_eq_true, bne, Bool.not_eq_true', Bool.not_eq_true',
    decide_eq_false_iff_not]

variable [Ordered K]

theorem notAfter_total (a b : K) : notAfter a b = true ∨ notAfter b a = true := by
  rw [notAfter_iff, notAfter_iff]
  cases ha : a == a with
  | false => exact .inr (.inl rfl)
  | true =>
    cases hb : b == b with
    | false => exact .inl (.inl rfl)
    | true =>
      by_cases h : b < a
      · exact .inr (.inr ⟨rfl, Ordered.lt_asymm h⟩)
      · exact .inl (.inr ⟨rfl, h⟩)

theorem notAfter_trans (hab : notAfter a b = true) (hbc : notAfter b c = true) :
    notAfter a c = true := by
  rw [notAfter_iff] at hab hbc ⊢
  rcases hbc with hc | ⟨hb, hcb⟩
  · exact .inl hc
  · rw [hb] at hab
    obtain ⟨ha, hba⟩ := hab.resolve_left nofun
    exact .inr ⟨ha, fun h => (Ordered.lt_or_lt b hb h).elim hcb hba⟩

theorem notAfter_of_lt (h : a < b) : notAfter b a = false := by
  rw [Bool.eq_false_iff, Ne, notAfter_iff, (Ordered.beq_self_of_lt h).1]
  exact fun hnot => hnot.elim nofun fun hboth => hboth.2 h

end Scalar

/-! ## Bundles -/

namespace Bundle

variable {K : Type} [Scalar K] {bundle : Bundle K}

theorem isMeasured_iff : bundle.isMeasured = true ↔ Stretch.AllMeasured bundle.stretches :=
  List.all_eq_true

theorem takesOut_erase (s : Stretch K) (l : List (Stretch K)) : Stretch.TakesOut s l (l.erase s) := by
  rw [List.erase_eq_eraseP']
  by_cases h : ∃ t ∈ l, (t == s) = true
  · obtain ⟨t, ht, hsame⟩ := h
    obtain ⟨u, before, after, -, hsame, hl, herase⟩ := List.exists_of_eraseP (p := (· == s)) ht hsame
    rw [herase, hl]
    exact .found hsame List.perm_middle
  · have hnone : ∀ t ∈ l, ¬ (t == s) = true := fun t ht hsame => h ⟨t, ht, hsame⟩
    rw [List.eraseP_of_forall_not hnone]
    exact .missing (fun t ht => Bool.eq_false_iff.mpr (hnone t ht)) (.refl l)

/-- From a bundle of numbers a stretch is taken out, whether the tree finds it or not. -/
theorem stretches_remove (h : bundle.isMeasured = true) (s : Stretch K) :
    (bundle.remove s).stretches = bundle.stretches.erase s := by
  unfold remove
  split
  · rfl
  · rw [if_pos h]

theorem within_eq (h : bundle.isMeasured = true) (reach : K) (p : Point K) :
    bundle.within reach p = bundle.stretches.filter (Stretch.isWithin reach p) := if_pos h

theorem nearest_eq (h : bundle.isMeasured = true) (p : Point K) :
    bundle.nearest p = bundle.stretches.mergeSort fun s t =>
      Scalar.notAfter (s.distanceSquared p) (t.distanceSquared p) := if_pos h

end Bundle

instance {K : Type} [Scalar K] [Scalar.Ordered K] : (StretchIndex.bundles K).Lawful where
  contents_empty := rfl
  contents_ofList stretches := .refl stretches
  contents_insert bundle s := List.perm_append_singleton s bundle.stretches
  contents_remove {bundle} s h := by
    show Stretch.TakesOut s bundle.stretches (bundle.remove s).stretches
    rw [Bundle.stretches_remove (Bundle.isMeasured_iff.mpr h)]
    exact Bundle.takesOut_erase s bundle.stretches
  within_perm {bundle} reach p h := by
    show (bundle.within reach p).Perm (bundle.stretches.filter _)
    rw [Bundle.within_eq (Bundle.isMeasured_iff.mpr h)]
  nearest_perm {bundle} p h := by
    show (bundle.nearest p).Perm bundle.stretches
    rw [Bundle.nearest_eq (Bundle.isMeasured_iff.mpr h)]
    exact List.mergeSort_perm _ _
  nearest_sorted {bundle} p h := by
    show (bundle.nearest p).Pairwise _
    rw [Bundle.nearest_eq (Bundle.isMeasured_iff.mpr h)]
    refine List.pairwise_mergeSort ?_ ?_ bundle.stretches
    · intro s t u
      exact Scalar.notAfter_trans
    · intro s t
      rw [Bool.or_eq_true]
      exact Scalar.notAfter_total _ _
  noFarther_total := Scalar.notAfter_total
  noFarther_trans := Scalar.notAfter_trans
  noFarther_of_lt := Scalar.notAfter_of_lt

end Crossroads

import Std.Data.HashMap
import Std.Data.TreeSet
import Crossroads.Graph.Frontier

/-!
# A frontier in pairs

A queue that keeps its pairs of a segment and a priority twice, by segment and in order of priority.
Of several segments with the least priority it takes out the first one.
-/

namespace Crossroads

/-- The order of waiting pairs. -/
abbrev Waiting.inOrder : Weight × Segment → Weight × Segment → Ordering :=
  compareLex (compareOn Prod.fst) (compareOn Prod.snd)

/-- Segments waiting with priorities. -/
structure Waiting where
  priority : Std.HashMap Segment Weight
  /-- The same pairs in order, least priority first. -/
  order : Std.TreeSet (Weight × Segment) Waiting.inOrder
  /-- A pair is in order when it is the segment's priority. -/
  agrees : ∀ w s, (w, s) ∈ order ↔ priority[s]? = some w

namespace Waiting

instance : Std.LawfulEqCmp inOrder where
  eq_of_compare {a b} h := by
    rw [inOrder, compareLex_eq_eq] at h
    obtain ⟨hw, hs⟩ := h
    exact Prod.ext (Std.LawfulEqOrd.eq_of_compare hw) (Std.LawfulEqOrd.eq_of_compare hs)

theorem inOrder_eq_iff {a b : Weight × Segment} : inOrder a b = .eq ↔ a = b :=
  Std.LawfulEqCmp.compare_eq_iff_eq

/-- The pair that comes first has the least priority. -/
theorem weight_le_of_isLE {a b : Weight × Segment} (h : (inOrder a b).isLE) : a.1 ≤ b.1 := by
  have hfst : (compare a.1 b.1).isLE := by
    rw [inOrder, compareLex, Ordering.isLE_then_iff_and] at h
    exact h.1
  exact Std.LawfulOrderOrd.isLE_compare a.1 b.1 |>.mp hfst

/-- Nothing is waiting. -/
def empty : Waiting := ⟨{}, {}, by simp⟩

variable (q : Waiting)

/-- The pairs of all other segments. -/
def others (s : Segment) : Std.TreeSet (Weight × Segment) inOrder :=
  match q.priority[s]? with
  | some old => q.order.erase (old, s)
  | none => q.order

theorem mem_others (s t : Segment) (v : Weight) :
    (v, t) ∈ q.others s ↔ s ≠ t ∧ q.priority[t]? = some v := by
  unfold others
  cases hs : q.priority[s]? with
  | none =>
    have hne : q.priority[t]? = some v → s ≠ t := by
      rintro ht rfl
      rw [hs] at ht
      cases ht
    simp only
    rw [q.agrees]
    exact ⟨fun ht => ⟨hne ht, ht⟩, fun ht => ht.2⟩
  | some old =>
    simp only
    rw [Std.TreeSet.mem_erase, q.agrees, ne_eq, inOrder_eq_iff]
    constructor
    · rintro ⟨hne, ht⟩
      refine ⟨?_, ht⟩
      rintro rfl
      rw [hs] at ht
      exact hne (by rw [Option.some.inj ht])
    · rintro ⟨hne, ht⟩
      refine ⟨fun heq => hne (Prod.mk.inj heq).2, ht⟩

/-- Adds a segment, or changes its priority. -/
def push (s : Segment) (w : Weight) : Waiting where
  priority := q.priority.insert s w
  order := (q.others s).insert (w, s)
  agrees v t := by
    rw [Std.TreeSet.mem_insert, inOrder_eq_iff, mem_others, Std.HashMap.getElem?_insert]
    by_cases hst : s = t
    · subst hst
      simp
    · simp [hst]

/-- Takes out the first waiting pair. -/
def pop? : Option (Segment × Weight × Waiting) :=
  match q.order.min? with
  | some (w, s) => some (s, w, {
      priority := q.priority.erase s
      order := q.others s
      agrees v t := by
        rw [mem_others, Std.HashMap.getElem?_erase]
        by_cases hst : s = t
        · simp [hst]
        · simp [hst] })
  | none => none

theorem priority_push (s : Segment) (w : Weight) (t : Segment) :
    (q.push s w).priority[t]? = if s = t then some w else q.priority[t]? := by
  rw [push, Std.HashMap.getElem?_insert]
  simp only [beq_iff_eq]

variable {q}

/-- What a pop takes out and what it leaves. -/
theorem of_pop? {rest : Waiting} {s : Segment} {w : Weight} (hpop : q.pop? = some (s, w, rest)) :
    q.priority[s]? = some w ∧ (∀ (t : Segment) v, q.priority[t]? = some v → w ≤ v) ∧
      ∀ t : Segment, rest.priority[t]? = if s = t then none else q.priority[t]? := by
  unfold pop? at hpop
  split at hpop
  · rename_i v t hmin
    cases hpop
    obtain ⟨hmem, hleast⟩ := Std.TreeSet.min?_eq_some_iff_mem_and_forall.mp hmin
    refine ⟨(q.agrees w s).mp hmem, ?_, ?_⟩
    · intro t v ht
      exact weight_le_of_isLE (hleast (v, t) ((q.agrees v t).mpr ht))
    · intro t
      rw [Std.HashMap.getElem?_erase]
      simp only [beq_iff_eq]
  · cases hpop

/-- A pop fails only when nothing is waiting. -/
theorem priority_of_pop?_eq_none (h : q.pop? = none) (t : Segment) : q.priority[t]? = none := by
  unfold pop? at h
  split at h
  · cases h
  · rename_i hmin
    rw [Std.TreeSet.min?_eq_none_iff] at hmin
    cases ht : q.priority[t]? with
    | none => rfl
    | some v => exact absurd ((q.agrees v t).mpr ht) (Std.TreeSet.not_mem_of_isEmpty hmin)

end Waiting

/-- The queue that keeps its pairs in order. -/
def Frontier.pairs : Frontier where
  State := Waiting
  empty := .empty
  push := Waiting.push
  pop? := Waiting.pop?
  priority? q s := q.priority[s]?
  priority?_empty := by simp [Waiting.empty]
  priority?_push := Waiting.priority_push
  of_pop? := Waiting.of_pop?
  priority?_of_pop?_eq_none := Waiting.priority_of_pop?_eq_none

end Crossroads

import Crossroads.Crossing.Leap
import Crossroads.Proofs.Graph.Sweep

/-!
# Leaps are least costs

Workers may finish their jobs in any order: what they collect is the list of the results
(`Workers.collect_eq_map`).  So the table of leaps is the one that `Connector.fill` makes from the
sweeps, with an entry for each enter and exit.  Filling it fails only if the workers cannot be set up.

* `Connector.weight_fill` — the entry in a row and a column is that of the enter and the exit there.
* `Connector.fillLeaps_eq` — which table is filled in.
* `Connector.fillLeaps_leastCost` — every entry of it is the least cost of a way.
-/

namespace Crossroads

/-! ## Workers -/

namespace Workers

variable {α β : Type} (job : α → β) (items : List α)

/-- A slot holds the result of its job once that is delivered, and stays as it was until then. -/
theorem getElem?_foldl_deliver (places : List Nat) (slots : List (Option β)) (k : Nat) :
    (places.foldl (deliver job items) slots)[k]?
      = if k ∈ places ∧ k < slots.length then some (items[k]?.map job) else slots[k]? := by
  induction places generalizing slots with
  | nil => simp
  | cons place places ih =>
    rw [List.foldl_cons, ih, deliver, List.length_set, List.getElem?_set]
    simp only [List.mem_cons]
    by_cases hk : k < slots.length
    · by_cases hplace : place = k
      · subst hplace
        simp [hk]
      · have hne : k ≠ place := Ne.symm hplace
        simp [hk, hplace, hne]
    · by_cases hplace : place = k
      · subst hplace
        simp [hk]
      · simp [hk, hplace]

/-- What is collected does not depend on the order in which the jobs are finished. -/
theorem collect_eq_map (w : Workers) (threads : Option Nat) :
    w.collect threads job items = items.map job := by
  have hperm := w.order_perm threads items.length
  have hslots : (w.order threads items.length).foldl (deliver job items)
      (List.replicate items.length none) = (items.map job).map some := by
    apply List.ext_getElem?
    intro k
    rw [getElem?_foldl_deliver]
    simp only [hperm.mem_iff, List.mem_range, List.length_replicate, and_self]
    by_cases hk : k < items.length
    · simp [hk]
    · simp [hk]
  rw [collect, hslots, List.filterMap_map]
  exact List.filterMap_some

end Workers

/-! ## The table -/

namespace Connector

variable (c : Connector) (weigh : Segment → Segment → Weight)

theorem length_tabulate : (c.tabulate weigh).length = c.enters.length * c.exits.length := by
  rw [tabulate, List.length_flatMap]
  simp

/-- A table whose rows all have the same width holds row after row. -/
theorem getElem?_flatMap_map {α β γ : Type} (f : α → β → γ) (rows : List α) (cols : List β)
    {i j : Nat} {r : α} {k : β} (hi : rows[i]? = some r) (hj : cols[j]? = some k) :
    (rows.flatMap fun row => cols.map (f row))[i * cols.length + j]? = some (f r k) := by
  have hwidth : j < cols.length := (List.getElem?_eq_some_iff.mp hj).1
  induction rows generalizing i with
  | nil => cases hi
  | cons row rows ih =>
    rw [List.flatMap_cons]
    cases i with
    | zero =>
      rw [List.getElem?_cons_zero] at hi
      obtain rfl := Option.some.inj hi
      rw [Nat.zero_mul, Nat.zero_add, List.getElem?_append_left (by simpa using hwidth)]
      rw [List.getElem?_map, hj, Option.map_some]
    | succ i =>
      rw [List.getElem?_cons_succ] at hi
      have hskip : (i + 1) * cols.length + j = cols.length + (i * cols.length + j) := by
        rw [Nat.succ_mul, Nat.add_right_comm, Nat.add_comm]
      rw [hskip, List.getElem?_append_right (by simp), List.length_map, Nat.add_sub_cancel_left]
      exact ih hi

/-- The weight in a row and a column of a table that has been filled. -/
theorem weight_fill (i : Fin c.enters.length) (j : Fin c.exits.length) :
    (c.fill weigh).weight i j = weigh c.enters[i] c.exits[j] := by
  have hentry : (c.tabulate weigh)[i.val * c.exits.length + j.val]?
      = some (weigh c.enters[i] c.exits[j]) :=
    getElem?_flatMap_map weigh c.enters c.exits (List.getElem?_eq_getElem i.isLt)
      (List.getElem?_eq_getElem j.isLt)
  show (if _ then (c.tabulate weigh).getD (i.val * c.exits.length + j.val) Weight.none else _) = _
  rw [if_pos (by simp [fill]), List.getD_eq_getElem?_getD, hentry, Option.getD_some]

theorem install?_tabulate : c.install? (c.tabulate weigh) = some (c.fill weigh) := by
  rw [install?, if_pos (c.length_tabulate weigh)]
  rfl

/-! ## Looking up leaps -/

theorem exists_idxOf? {list : List Segment} {s : Segment} (h : s ∈ list) :
    ∃ i : Fin list.length, list.idxOf? s = some i.val ∧ list[i] = s := by
  obtain ⟨i, hi⟩ := Option.isSome_iff_exists.mp (List.isSome_idxOf?.mpr h)
  obtain ⟨hlt, heq, -⟩ := List.idxOf?_eq_some_iff.mp hi
  exact ⟨⟨i, hlt⟩, hi, heq⟩

/-- The leap between an enter and an exit in a table that has been filled. -/
theorem leap?_fill {enter exit : Segment} (henter : enter ∈ c.enters) (hexit : exit ∈ c.exits) :
    (c.fill weigh).leap? enter exit
      = if weigh enter exit = Weight.none then none else some (weigh enter exit) := by
  obtain ⟨i, hi, henter⟩ := exists_idxOf? henter
  obtain ⟨j, hj, hexit⟩ := exists_idxOf? hexit
  have hrow : (c.fill weigh).enterIndex? enter = some i.val := (enterIndex?_eq _ _).trans hi
  have hcolumn : (c.fill weigh).exitIndex? exit = some j.val := (exitIndex?_eq _ _).trans hj
  have hweight := c.weight_fill weigh i j
  rw [henter, hexit] at hweight
  rw [leap?, hrow, hcolumn]
  show (if (c.fill weigh).weight i j = Weight.none then none
    else some ((c.fill weigh).weight i j)) = _
  rw [hweight]

/-- A leap in a table that sweeps have filled is what the sweep answers. -/
theorem leap?_fill_sweep (g : Network) (joints : List Joint) (queue : Frontier)
    {enter exit : Segment} (henter : enter ∈ c.enters) (hexit : exit ∈ c.exits) :
    (c.fill fun enter exit =>
        ((g.withJoints joints).sweep queue enter).getD exit Weight.none).leap? enter exit
      = ((g.withJoints joints).sweep queue enter)[exit]? := by
  rw [c.leap?_fill _ henter hexit, Std.HashMap.getD_eq_getD_getElem?]
  cases hcost : ((g.withJoints joints).sweep queue enter)[exit]? with
  | none => simp
  | some cost =>
    have hlt := ((Network.getElem?_sweep_eq_some_iff g joints queue enter exit cost).mp hcost).2
    simp [Weight.ne_none_of_lt hlt]

/-- Leaps depend on the lists and the table of a connector only. -/
theorem leap?_congr {c c' : Connector} (henters : c.enters = c'.enters) (hexits : c.exits = c'.exits)
    (hweights : c.weights = c'.weights) (enter exit : Segment) :
    c.leap? enter exit = c'.leap? enter exit := by
  rw [leap?, leap?, enterIndex?_eq, enterIndex?_eq, exitIndex?_eq, exitIndex?_eq, henters, hexits]
  unfold weight
  rw [henters, hexits, hweights]

/-! ## Leaps -/

theorem leapRows_eq_tabulate (g : Network) (workers : Workers) (threads : Option Nat) :
    c.leapRows g workers threads
      = c.tabulate fun enter exit => (g.sweep workers.queue enter).getD exit Weight.none := by
  rw [leapRows, Workers.collect_eq_map]
  rfl

/-- Filling the table fails only where the workers cannot be set up. -/
theorem fillLeaps_eq (g : Network) (workers : Workers) (threads : Option Nat) :
    c.fillLeaps g workers threads = match workers.setUp threads with
      | .error complaint => .error (.invalid complaint)
      | .ok _ =>
        .ok (c.fill fun enter exit => (g.sweep workers.queue enter).getD exit Weight.none) := by
  rw [fillLeaps, leapRows_eq_tabulate, install?_tabulate]
  cases workers.setUp threads with
  | error complaint => rfl
  | ok _ => rfl

theorem fillLeaps_eq_ok_iff {g : Network} {workers : Workers} {threads : Option Nat}
    {filled : Connector} :
    c.fillLeaps g workers threads = .ok filled ↔ workers.setUp threads = .ok () ∧
      (c.fill fun enter exit => (g.sweep workers.queue enter).getD exit Weight.none) = filled := by
  rw [fillLeaps_eq]
  cases workers.setUp threads with
  | error complaint => simp
  | ok _ => simp

/-- **Leaps are least costs.**  The table is filled if the workers can be set up, and its entry for an
enter and an exit is the least cost of a way between them that is less than `Weight.none`; it is
`Weight.none` where no way costs less than that.  In other words, a sweep answers the least costs
and nothing else, whichever of the nearest segments its queue takes out. -/
theorem fillLeaps_leastCost (g : Network) (joints : List Joint) (c : Connector) (workers : Workers)
    (threads : Option Nat) :
    ((∃ filled, c.fillLeaps (g.withJoints joints) workers threads = .ok filled) ↔
      workers.setUp threads = .ok ()) ∧
    (∀ filled, c.fillLeaps (g.withJoints joints) workers threads = .ok filled →
      filled.enters = c.enters ∧ filled.exits = c.exits ∧
      ∀ (i : Fin c.enters.length) (j : Fin c.exits.length),
        (∀ n < Weight.none.toNat, (filled.weight i j).toNat = n ↔
          LeastCost (g.withJoints joints).Leads c.enters[i] c.exits[j] n) ∧
        (filled.weight i j = Weight.none ↔
          ∀ n, Way (g.withJoints joints).Leads c.enters[i] c.exits[j] n →
            Weight.none.toNat ≤ n)) ∧
    ∀ (queue : Frontier) (s t : Segment) (d : Weight),
      ((g.withJoints joints).sweep queue s)[t]? = some d ↔
        LeastCost (g.withJoints joints).Leads s t d.toNat ∧ d.toNat < Weight.none.toNat := by
  refine ⟨?_, ?_, ?_⟩
  · simp [fillLeaps_eq_ok_iff]
  · intro filled hfilled
    obtain ⟨-, rfl⟩ := c.fillLeaps_eq_ok_iff.mp hfilled
    refine ⟨rfl, rfl, fun i j => ?_⟩
    rw [weight_fill]
    exact ⟨fun n hn => Network.toNat_getD_sweep_eq_iff g joints workers.queue _ _ hn,
      Network.getD_sweep_eq_none_iff g joints workers.queue _ _⟩
  · intro queue s t d
    exact Network.getElem?_sweep_eq_some_iff g joints queue s t d

end Connector

end Crossroads

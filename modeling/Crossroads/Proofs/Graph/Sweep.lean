import Crossroads.Proofs.Graph.Reach
import Mathlib.Data.List.Nodup
import Mathlib.Data.List.Perm.Subperm

/-!
# Sweeps find least costs

A sweep settles segments in the order of their costs.  `Sweep.Inv` says what holds between two
settlements, for the list of the segments settled so far and the cost of the last of them:

* every known cost is the cost of some way, and the waiting segments are those that are known and
  not settled;
* no settled segment costs more than the last one, and no waiting one costs less.

Steps out of settled segments have been offered to their targets (`Sweep.Closed`), so that once
nothing is waiting no way is cheaper than the known cost.  The least costs below `Weight.none` are
exactly what a sweep answers, whatever its queue: `Network.getElem?_sweep_eq_some_iff`.  With
`Weight.none` for no answer, they are the entries of a row: `Network.toNat_getD_sweep_eq_iff`,
`Network.getD_sweep_eq_none_iff`.
-/

namespace Crossroads

namespace Weight

theorem lt_none_of_ne {w : Weight} (h : w ≠ none) : w.toNat < none.toNat := by
  have hw := w.toNat_lt
  have hne : w.toNat ≠ none.toNat := fun heq => h (UInt32.toNat_inj.mp heq)
  have hnone : none.toNat = 4294967295 := rfl
  omega

theorem ne_none_of_lt {w : Weight} (h : w.toNat < none.toNat) : w ≠ none := by
  rintro rfl
  exact Nat.lt_irrefl _ h

/-- The sum of two weights is exact unless it is too great. -/
theorem toNat_plus {a b : Weight} (h : a.plus b ≠ none) :
    (a.plus b).toNat = a.toNat + b.toNat ∧ a.toNat + b.toNat < none.toNat := by
  unfold plus at h ⊢
  split at h
  · rename_i hlt
    have hnone : none.toNat = 4294967295 := rfl
    rw [if_pos hlt, UInt32.toNat_add]
    omega
  · exact absurd rfl h

theorem plus_ne_none {a b : Weight} (h : a.toNat + b.toNat < none.toNat) : a.plus b ≠ none := by
  have hnone : none.toNat = 4294967295 := rfl
  intro heq
  have hnat : (a.plus b).toNat = none.toNat := by rw [heq]
  rw [plus, if_pos h, UInt32.toNat_add] at hnat
  omega

end Weight

namespace Sweep

variable {queue : Frontier}

/-! ## One offer -/

/-- The way over a segment of cost `d` is cheaper than what is known of a step's target. -/
def Improves (d : Weight) (sweep : Sweep queue) (step : Step) : Prop :=
  d.plus step.weight ≠ Weight.none ∧
    ∀ best, sweep.cost[step.target]? = some best → d.plus step.weight < best

theorem relax_of_improves {d : Weight} {sweep : Sweep queue} {step : Step}
    (h : Improves d sweep step) : relax d sweep step = ⟨sweep.cost.insert step.target (d.plus step.weight),
      queue.push sweep.frontier step.target (d.plus step.weight)⟩ := by
  obtain ⟨hsome, hbest⟩ := h
  unfold relax
  cases hcost : sweep.cost[step.target]? with
  | none => simp [hsome]
  | some best => simp [hsome, hbest best hcost]

theorem relax_of_not_improves {d : Weight} {sweep : Sweep queue} {step : Step}
    (h : ¬ Improves d sweep step) : relax d sweep step = sweep := by
  unfold relax
  unfold Improves at h
  cases hcost : sweep.cost[step.target]? with
  | none => simp_all
  | some best => simp_all

/-- After an offer, the target's cost is the offer if that is cheaper. -/
theorem cost_relax_of_improves {d : Weight} {sweep : Sweep queue} {step : Step}
    (h : Improves d sweep step) (t : Segment) :
    (relax d sweep step).cost[t]?
      = if step.target = t then some (d.plus step.weight) else sweep.cost[t]? := by
  rw [relax_of_improves h, Std.HashMap.getElem?_insert]
  simp only [beq_iff_eq]

/-! ## What later costs leave of earlier ones -/

/-- The costs of the settled segments stay, and no cost rises or is forgotten. -/
structure Lowers (settled : List Segment) (sweep later : Sweep queue) : Prop where
  keeps : ∀ s ∈ settled, later.cost[s]? = sweep.cost[s]?
  lowers : ∀ (t : Segment) e, sweep.cost[t]? = some e → ∃ f, later.cost[t]? = some f ∧ f ≤ e

theorem Lowers.refl (settled : List Segment) (sweep : Sweep queue) : Lowers settled sweep sweep :=
  ⟨fun _ _ => rfl, fun _ e h => ⟨e, h, UInt32.le_refl e⟩⟩

theorem Lowers.trans {settled : List Segment} {sweep mid later : Sweep queue}
    (h : Lowers settled sweep mid) (h' : Lowers settled mid later) : Lowers settled sweep later := by
  refine ⟨fun s hs => (h'.keeps s hs).trans (h.keeps s hs), fun t e ht => ?_⟩
  obtain ⟨f, hf, hle⟩ := h.lowers t e ht
  obtain ⟨f', hf', hle'⟩ := h'.lowers t f hf
  exact ⟨f', hf', UInt32.le_trans hle' hle⟩

/-- The way over a segment has been offered to the target of a step. -/
def Offered (sweep : Sweep queue) (s : Segment) (step : Step) : Prop :=
  ∀ e : Weight, sweep.cost[s]? = some e → e.toNat + step.weight.toNat < Weight.none.toNat →
    ∃ f, sweep.cost[step.target]? = some f ∧ f.toNat ≤ e.toNat + step.weight.toNat

/-- What has been offered stays so. -/
theorem Offered.later {settled : List Segment} {sweep later : Sweep queue} {s : Segment} {step : Step}
    (h : Offered sweep s step) (hs : s ∈ settled) (hlowers : Lowers settled sweep later) :
    Offered later s step := by
  intro e he hlt
  rw [hlowers.keeps s hs] at he
  obtain ⟨f, hf, hle⟩ := h e he hlt
  obtain ⟨f', hf', hle'⟩ := hlowers.lowers step.target f hf
  exact ⟨f', hf', Nat.le_trans (UInt32.le_iff_toNat_le.mp hle') hle⟩

/-! ## The invariant -/

/-- What holds of a sweep from `source` after the `settled` segments, the last of them at the cost
`d`. -/
structure Inv (g : Network) (source : Segment) (settled : List Segment) (d : Weight)
    (sweep : Sweep queue) : Prop where
  atSource : sweep.cost[source]? = some 0
  way : ∀ (t : Segment) (e : Weight), sweep.cost[t]? = some e →
    Way g.Leads source t e.toNat ∧ e ≠ Weight.none
  waiting : ∀ (t : Segment) (e : Weight),
    queue.priority? sweep.frontier t = some e ↔ sweep.cost[t]? = some e ∧ t ∉ settled
  settledLow : ∀ s ∈ settled, ∃ e, sweep.cost[s]? = some e ∧ e ≤ d
  waitingHigh : ∀ (t : Segment) (e : Weight), queue.priority? sweep.frontier t = some e → d ≤ e
  nodup : settled.Nodup

theorem inv_start (g : Network) (source : Segment) :
    Inv g source [] 0 (start source : Sweep queue) := by
  have hcost : ∀ t : Segment,
      (start source : Sweep queue).cost[t]? = if source = t then some 0 else none := by
    intro t
    rw [start, Std.HashMap.getElem?_insert]
    simp
  have hpriority : ∀ t : Segment, queue.priority? (start source : Sweep queue).frontier t
      = if source = t then some 0 else none := by
    intro t
    rw [start, queue.priority?_push, queue.priority?_empty]
  refine ⟨?_, ?_, ?_, ?_, ?_, List.nodup_nil⟩
  · rw [hcost, if_pos rfl]
  · intro t e ht
    rw [hcost] at ht
    split at ht
    · rename_i heq
      cases ht
      subst heq
      exact ⟨.here, by decide⟩
    · cases ht
  · intro t e
    rw [hcost, hpriority]
    simp
  · intro s hs
    cases hs
  · intro t e _
    exact UInt32.zero_le

/-- Taking the first waiting segment off the frontier settles it. -/
theorem Inv.settleNext {g : Network} {source : Segment} {settled : List Segment} {d : Weight}
    {sweep : Sweep queue} (h : Inv g source settled d sweep) {s : Segment} {e : Weight}
    {rest : queue.State} (hpop : queue.pop? sweep.frontier = some (s, e, rest)) :
    d ≤ e ∧ s ∉ settled ∧ sweep.cost[s]? = some e ∧
      Inv g source (s :: settled) e { sweep with frontier := rest } := by
  obtain ⟨hs, hleast, hrest⟩ := queue.of_pop? hpop
  obtain ⟨hcost, hnot⟩ := (h.waiting s e).mp hs
  have hde : d ≤ e := h.waitingHigh s e hs
  refine ⟨hde, hnot, hcost, h.atSource, h.way, ?_, ?_, ?_, h.nodup.cons hnot⟩
  · intro t f
    show queue.priority? rest t = some f ↔ sweep.cost[t]? = some f ∧ t ∉ s :: settled
    rw [hrest, List.mem_cons, not_or]
    by_cases hst : s = t
    · subst hst
      simp
    · rw [if_neg hst, h.waiting]
      simp [Ne.symm hst]
  · intro t ht
    rcases List.mem_cons.mp ht with rfl | ht
    · exact ⟨e, hcost, UInt32.le_refl e⟩
    · obtain ⟨f, hf, hle⟩ := h.settledLow t ht
      exact ⟨f, hf, UInt32.le_trans hle hde⟩
  · intro t f ht
    have ht : queue.priority? rest t = some f := ht
    rw [hrest] at ht
    split at ht
    · cases ht
    · exact hleast t f ht

/-! ## Settling a segment -/

/-- A settled segment is never offered a cheaper way. -/
theorem Inv.target_not_settled {g : Network} {source : Segment} {settled : List Segment}
    {d : Weight} {sweep : Sweep queue} (h : Inv g source settled d sweep) {step : Step}
    (hbetter : Improves d sweep step) : step.target ∉ settled := by
  intro hmem
  obtain ⟨e, he, hle⟩ := h.settledLow step.target hmem
  have hlt := UInt32.lt_iff_toNat_lt.mp (hbetter.2 e he)
  have hle := UInt32.le_iff_toNat_le.mp hle
  obtain ⟨hsum, -⟩ := Weight.toNat_plus hbetter.1
  omega

theorem lowers_relax {settled : List Segment} {d : Weight} {sweep : Sweep queue} {step : Step}
    (htarget : Improves d sweep step → step.target ∉ settled) :
    Lowers settled sweep (relax d sweep step) := by
  by_cases hbetter : Improves d sweep step
  · constructor
    · intro s hs
      have hne : step.target ≠ s := fun heq => htarget hbetter (heq ▸ hs)
      rw [cost_relax_of_improves hbetter, if_neg hne]
    · intro t e ht
      rw [cost_relax_of_improves hbetter]
      by_cases heq : step.target = t
      · subst heq
        exact ⟨_, if_pos rfl, UInt32.le_of_lt (hbetter.2 e ht)⟩
      · exact ⟨e, by rw [if_neg heq, ht], UInt32.le_refl e⟩
  · rw [relax_of_not_improves hbetter]
    exact .refl settled sweep

/-- Offering a step out of the segment settled last keeps the invariant. -/
theorem Inv.relax {g : Network} {source s : Segment} {settled : List Segment} {d : Weight}
    {sweep : Sweep queue} (h : Inv g source settled d sweep) (hs : sweep.cost[s]? = some d)
    {step : Step} (hstep : step ∈ g.steps s true) : Inv g source settled d (relax d sweep step) := by
  by_cases hbetter : Improves d sweep step
  · have htarget := h.target_not_settled hbetter
    obtain ⟨hsum, hsmall⟩ := Weight.toNat_plus hbetter.1
    have hcost := cost_relax_of_improves hbetter
    have hpriority : ∀ t, queue.priority? (Sweep.relax d sweep step).frontier t
        = if step.target = t then some (d.plus step.weight)
          else queue.priority? sweep.frontier t := by
      intro t
      rw [relax_of_improves hbetter]
      exact queue.priority?_push _ _ _ _
    refine ⟨?_, ?_, ?_, ?_, ?_, h.nodup⟩
    · have hne : step.target ≠ source := by
        intro heq
        have hlt := hbetter.2 0 (heq ▸ h.atSource)
        exact absurd hlt UInt32.not_lt_zero
      rw [hcost, if_neg hne, h.atSource]
    · intro t e ht
      rw [hcost] at ht
      split at ht
      · rename_i heq
        cases ht
        subst heq
        refine ⟨?_, hbetter.1⟩
        rw [hsum]
        exact .onward (h.way s d hs).1 ⟨step.weight, hstep, rfl⟩
      · exact h.way t e ht
    · intro t e
      rw [hcost, hpriority]
      by_cases heq : step.target = t
      · subst heq
        simp [htarget]
      · rw [if_neg heq, if_neg heq, h.waiting]
    · intro t ht
      have hne : step.target ≠ t := fun heq => htarget (heq ▸ ht)
      rw [hcost, if_neg hne]
      exact h.settledLow t ht
    · intro t e ht
      rw [hpriority] at ht
      split at ht
      · cases ht
        exact UInt32.le_iff_toNat_le.mpr (by omega)
      · exact h.waitingHigh t e ht
  · rw [relax_of_not_improves hbetter]
    exact h

/-- What has just been offered has been offered. -/
theorem offered_relax {s : Segment} {d : Weight} {sweep : Sweep queue} {step : Step}
    (hs : (relax d sweep step).cost[s]? = some d) : Offered (relax d sweep step) s step := by
  intro e he hlt
  rw [hs] at he
  obtain rfl := Option.some.inj he
  have hsome := Weight.plus_ne_none hlt
  obtain ⟨hsum, -⟩ := Weight.toNat_plus hsome
  by_cases hbetter : Improves d sweep step
  · exact ⟨_, by rw [cost_relax_of_improves hbetter, if_pos rfl], Nat.le_of_eq hsum⟩
  · rw [relax_of_not_improves hbetter]
    unfold Improves at hbetter
    push Not at hbetter
    obtain ⟨best, hbest, hge⟩ := hbetter hsome
    exact ⟨best, hbest, hsum ▸ UInt32.le_iff_toNat_le.mp (UInt32.not_lt.mp hge)⟩

/-- Offering steps one after another keeps the invariant, and all of them have been offered then. -/
theorem Inv.relaxAll {g : Network} {source s : Segment} {settled : List Segment} {d : Weight}
    (hmem : s ∈ settled) (steps : List Step) (hsteps : ∀ step ∈ steps, step ∈ g.steps s true) :
    ∀ {sweep : Sweep queue}, Inv g source settled d sweep → sweep.cost[s]? = some d →
      Inv g source settled d (steps.foldl (Sweep.relax d) sweep) ∧
        Lowers settled sweep (steps.foldl (Sweep.relax d) sweep) ∧
        ∀ step ∈ steps, Offered (steps.foldl (Sweep.relax d) sweep) s step := by
  induction steps with
  | nil =>
    intro sweep h _
    exact ⟨h, .refl settled sweep, fun step hstep => by cases hstep⟩
  | cons first rest ih =>
    intro sweep h hs
    rw [List.foldl_cons]
    have hinv := h.relax hs (hsteps first List.mem_cons_self)
    have hlowers : Lowers settled sweep (Sweep.relax d sweep first) :=
      lowers_relax h.target_not_settled
    have hs' : (Sweep.relax d sweep first).cost[s]? = some d := (hlowers.keeps s hmem).trans hs
    obtain ⟨hinv', hlowers', hoffered⟩ :=
      ih (fun step hstep => hsteps step (List.mem_cons_of_mem _ hstep)) hinv hs'
    refine ⟨hinv', hlowers.trans hlowers', ?_⟩
    intro step hstep
    rcases List.mem_cons.mp hstep with rfl | hstep
    · exact (offered_relax hs').later hmem hlowers'
    · exact hoffered step hstep

/-- All steps out of settled segments have been offered to their targets. -/
def Closed (g : Network) (settled : List Segment) (sweep : Sweep queue) : Prop :=
  ∀ s ∈ settled, ∀ step ∈ g.steps s true, Offered sweep s step

/-- A segment that is taken off the frontier at its own cost is settled by offering its steps. -/
theorem settle_of_fresh {g : Network} (sweep : Sweep queue) {s : Segment} {d : Weight}
    (h : sweep.cost[s]? = some d) :
    Sweep.settle g sweep s d = (g.steps s true).foldl (Sweep.relax d) sweep := by
  rw [Sweep.settle, if_neg]
  rw [h, Option.any_some, decide_eq_true_eq]
  exact UInt32.lt_irrefl d

/-- A segment that is taken off the frontier is not stale, and settling it keeps the invariant. -/
theorem Inv.settle {g : Network} {source : Segment} {settled : List Segment} {d : Weight}
    {sweep : Sweep queue} (h : Inv g source settled d sweep) (hclosed : Closed g settled sweep)
    {s : Segment} {e : Weight} {rest : queue.State}
    (hpop : queue.pop? sweep.frontier = some (s, e, rest)) :
    Inv g source (s :: settled) e (Sweep.settle g { sweep with frontier := rest } s e) ∧
      Closed g (s :: settled) (Sweep.settle g { sweep with frontier := rest } s e) := by
  obtain ⟨-, -, hs, hinv⟩ := h.settleNext hpop
  rw [settle_of_fresh { sweep with frontier := rest } hs]
  obtain ⟨hinv', hlowers, hoffered⟩ :=
    Inv.relaxAll List.mem_cons_self (g.steps s true) (fun _ hstep => hstep) hinv hs
  refine ⟨hinv', ?_⟩
  intro t ht step hstep
  rcases List.mem_cons.mp ht with rfl | ht
  · exact hoffered step hstep
  · have hold : Offered { sweep with frontier := rest } t step := hclosed t ht step hstep
    exact hold.later (List.mem_cons_of_mem _ ht) hlowers

/-! ## A whole run -/

theorem Inv.settled_subset {g : Network} {joints : List Joint} {source : Segment}
    {settled : List Segment} {d : Weight} {sweep : Sweep queue}
    (h : Inv (g.withJoints joints) source settled d sweep) :
    settled ⊆ (g.withJoints joints).around source := by
  intro s hs
  obtain ⟨e, he, -⟩ := h.settledLow s hs
  exact Network.mem_around_of_way (h.way s e he).1

/-- A run with enough settlements left ends with nothing waiting. -/
theorem run_done (g : Network) (joints : List Joint) (source : Segment) (limit : Nat) :
    ∀ {settled : List Segment} {d : Weight} {sweep : Sweep queue},
      Inv (g.withJoints joints) source settled d sweep →
      Closed (g.withJoints joints) settled sweep →
      ((g.withJoints joints).around source).length < limit + settled.length →
      ∃ settled' d', Inv (g.withJoints joints) source settled' d'
          (run (g.withJoints joints) limit sweep) ∧
        Closed (g.withJoints joints) settled' (run (g.withJoints joints) limit sweep) ∧
        queue.pop? (run (g.withJoints joints) limit sweep).frontier = none := by
  induction limit with
  | zero =>
    intro settled d sweep h _ hlimit
    have hle := (List.subperm_of_subset h.nodup h.settled_subset).length_le
    omega
  | succ limit ih =>
    intro settled d sweep h hclosed hlimit
    cases hpop : queue.pop? sweep.frontier with
    | none =>
      have hrun : run (g.withJoints joints) (limit + 1) sweep = sweep := by
        rw [run, hpop]
      rw [hrun]
      exact ⟨settled, d, h, hclosed, hpop⟩
    | some next =>
      obtain ⟨s, e, rest⟩ := next
      have hrun : run (g.withJoints joints) (limit + 1) sweep
          = run (g.withJoints joints) limit
            (Sweep.settle (g.withJoints joints) { sweep with frontier := rest } s e) := by
        rw [run, hpop]
      rw [hrun]
      obtain ⟨hinv, hclosed'⟩ := h.settle hclosed hpop
      exact ih hinv hclosed' (by rw [List.length_cons]; omega)

/-- Once nothing is waiting, no way is cheaper than what is known. -/
theorem Inv.exists_cost_le {g : Network} {source : Segment} {settled : List Segment} {d : Weight}
    {sweep : Sweep queue} (h : Inv g source settled d sweep) (hclosed : Closed g settled sweep)
    (hdone : queue.pop? sweep.frontier = none) {t : Segment} {n : Nat} (hway : Way g.Leads source t n)
    (hn : n < Weight.none.toNat) : ∃ e, sweep.cost[t]? = some e ∧ e.toNat ≤ n := by
  have hsettled : ∀ (t : Segment) (e : Weight), sweep.cost[t]? = some e → t ∈ settled := by
    intro t e ht
    by_contra hnot
    have hwaiting := (h.waiting t e).mpr ⟨ht, hnot⟩
    rw [queue.priority?_of_pop?_eq_none hdone t] at hwaiting
    cases hwaiting
  induction hway with
  | here => exact ⟨0, h.atSource, Nat.le_refl 0⟩
  | @onward b c n w _ hlead ih =>
    obtain ⟨e, he, hle⟩ := ih (by omega)
    obtain ⟨weight, hstep, rfl⟩ := hlead
    obtain ⟨f, hf, hle'⟩ := hclosed b (hsettled b e he) _ hstep e he (by
      show e.toNat + weight.toNat < Weight.none.toNat
      omega)
    have hle' : f.toNat ≤ e.toNat + weight.toNat := hle'
    exact ⟨f, hf, by omega⟩

end Sweep

/-- **A sweep answers the least costs.**  It answers `e` for a segment when `e` is the least cost of
a way to it, and less than what stands for no way. -/
theorem Network.getElem?_sweep_eq_some_iff (g : Network) (joints : List Joint) (queue : Frontier)
    (s t : Segment) (e : Weight) :
    ((g.withJoints joints).sweep queue s)[t]? = some e ↔
      LeastCost (g.withJoints joints).Leads s t e.toNat ∧ e.toNat < Weight.none.toNat := by
  obtain ⟨settled, d, hinv, hclosed, hdone⟩ :=
    Sweep.run_done g joints s ((g.withJoints joints).reach s)
      (@Sweep.inv_start queue _ s) (fun _ hs => by cases hs)
      (Nat.lt_add_right _ (Network.length_around_lt _ s))
  have hleast : ∀ f : Weight, ((g.withJoints joints).sweep queue s)[t]? = some f →
      LeastCost (g.withJoints joints).Leads s t f.toNat ∧ f.toNat < Weight.none.toNat := by
    intro f hf
    obtain ⟨hway, hne⟩ := hinv.way t f hf
    have hlt := Weight.lt_none_of_ne hne
    refine ⟨⟨hway, ?_⟩, hlt⟩
    intro n hn
    by_contra hless
    obtain ⟨f', hf', hle⟩ := hinv.exists_cost_le hclosed hdone hn (by omega)
    have hsame : some f' = some f := hf'.symm.trans hf
    rw [Option.some.inj hsame] at hle
    exact hless hle
  refine ⟨hleast e, ?_⟩
  rintro ⟨⟨hway, hlow⟩, hlt⟩
  obtain ⟨f, hf, hle⟩ := hinv.exists_cost_le hclosed hdone hway hlt
  have hcost : ((g.withJoints joints).sweep queue s)[t]? = some f := hf
  obtain ⟨hleast', -⟩ := hleast f hcost
  have heq : f = e := UInt32.toNat_inj.mp (Nat.le_antisymm hle (hlow hleast'.1))
  rw [← heq, hcost]

namespace Network

/-- Sweeps with different queues answer the same. -/
theorem getElem?_sweep_congr (g : Network) (joints : List Joint) (queue queue' : Frontier)
    (s t : Segment) :
    ((g.withJoints joints).sweep queue s)[t]? = ((g.withJoints joints).sweep queue' s)[t]? := by
  apply Option.ext
  intro e
  rw [getElem?_sweep_eq_some_iff, getElem?_sweep_eq_some_iff]

variable (g : Network) (joints : List Joint) (queue : Frontier) (s t : Segment)

/-- A sweep answers every least cost below what stands for no way. -/
theorem exists_getElem?_sweep {n : Nat}
    (h : LeastCost (g.withJoints joints).Leads s t n) (hn : n < Weight.none.toNat) :
    ∃ e, ((g.withJoints joints).sweep queue s)[t]? = some e ∧ e.toNat = n := by
  have hnat : (UInt32.ofNat n).toNat = n :=
    UInt32.toNat_ofNat_of_lt' (Nat.lt_trans hn Weight.none.toNat_lt)
  refine ⟨UInt32.ofNat n, ?_, hnat⟩
  exact (getElem?_sweep_eq_some_iff g joints queue s t _).mpr ⟨by rwa [hnat], by rwa [hnat]⟩

/-- What a sweep answers for a segment, with `Weight.none` for no answer. -/
theorem toNat_getD_sweep_eq_iff {n : Nat} (hn : n < Weight.none.toNat) :
    (((g.withJoints joints).sweep queue s).getD t Weight.none).toNat = n ↔
      LeastCost (g.withJoints joints).Leads s t n := by
  rw [Std.HashMap.getD_eq_getD_getElem?]
  constructor
  · intro heq
    cases hcost : ((g.withJoints joints).sweep queue s)[t]? with
    | none =>
      rw [hcost, Option.getD_none] at heq
      omega
    | some e =>
      rw [hcost, Option.getD_some] at heq
      rw [← heq]
      exact ((getElem?_sweep_eq_some_iff g joints queue s t e).mp hcost).1
  · intro hleast
    obtain ⟨e, hcost, rfl⟩ := exists_getElem?_sweep g joints queue s t hleast hn
    rw [hcost, Option.getD_some]

/-- A sweep does not answer what no way costs less than `Weight.none`. -/
theorem getElem?_sweep_eq_none_iff :
    ((g.withJoints joints).sweep queue s)[t]? = none ↔
      ∀ n, Way (g.withJoints joints).Leads s t n → Weight.none.toNat ≤ n := by
  constructor
  · intro hcost n hway
    by_contra hless
    obtain ⟨m, hm, hleast⟩ := LeastCost.exists_le hway
    obtain ⟨e, hanswer, -⟩ := exists_getElem?_sweep g joints queue s t hleast (by omega)
    rw [hcost] at hanswer
    cases hanswer
  · intro hdear
    cases hcost : ((g.withJoints joints).sweep queue s)[t]? with
    | none => rfl
    | some e =>
      obtain ⟨hleast, hlt⟩ := (getElem?_sweep_eq_some_iff g joints queue s t e).mp hcost
      have hle := hdear _ hleast.1
      omega

theorem getD_sweep_eq_none_iff :
    ((g.withJoints joints).sweep queue s).getD t Weight.none = Weight.none ↔
      ∀ n, Way (g.withJoints joints).Leads s t n → Weight.none.toNat ≤ n := by
  rw [← getElem?_sweep_eq_none_iff, Std.HashMap.getD_eq_getD_getElem?]
  cases hcost : ((g.withJoints joints).sweep queue s)[t]? with
  | none => simp
  | some e =>
    have hlt := ((getElem?_sweep_eq_some_iff g joints queue s t e).mp hcost).2
    simp [Weight.ne_none_of_lt hlt]

end Network

end Crossroads

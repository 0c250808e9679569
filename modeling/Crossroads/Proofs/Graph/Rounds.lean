import Crossroads.Graph.Frontier.Pairs
import Crossroads.Proofs.Graph.Return
import Mathlib.Data.Set.Card

/-!
# The rounds of a sweep

A sweep goes on in rounds, each of which takes a nearest segment off the frontier and settles it.
`Sweep.Takes` lists the segments that have been taken, with the costs they were taken at.  Settling
offers one step after another; the sweep after some of them is `Sweep.midway`.

* `Network.rounds_orderly` — a sweep ends, and what holds in each of its rounds.
-/

namespace Crossroads

namespace Sweep

variable {queue : Frontier}

/-! ## Rounds -/

/-- The rounds from one sweep on: what they have taken, and the sweep that they have come to. -/
inductive Takes (g : Network) (first : Sweep queue) :
    List (Segment × Weight) → Sweep queue → Prop
  | none : Takes g first [] first
  | more {taken : List (Segment × Weight)} {sweep : Sweep queue} {s : Segment} {d : Weight}
      {rest : queue.State} : Takes g first taken sweep →
      queue.pop? sweep.frontier = some (s, d, rest) →
      Takes g first (taken ++ [(s, d)]) (settle g { sweep with frontier := rest } s d)

/-- A round that has taken a segment at some cost, after the first `n` of the segment's steps. -/
def midway (g : Network) (sweep : Sweep queue) (rest : queue.State) (s : Segment) (d : Weight)
    (n : ℕ) : Sweep queue :=
  ((g.steps s true).take n).foldl (relax d) { sweep with frontier := rest }

/-- What holds of a sweep from `source` after some rounds. -/
structure Orderly (g : Network) (source : Segment) (taken : List (Segment × Weight))
    (sweep : Sweep queue) : Prop where
  /-- The costs at which segments are taken never decrease. -/
  rising : (taken.map Prod.snd).Pairwise (· ≤ ·)
  once : (taken.map Prod.fst).Nodup
  within : taken.length ≤ {t | ∃ n, Way g.Leads source t n}.ncard
  known : ∀ t e, (t, e) ∈ taken → sweep.cost[t]? = some e
  /-- No cheaper way is known to the segment that is taken next. -/
  fresh : ∀ s d rest, queue.pop? sweep.frontier = some (s, d, rest) →
    sweep.cost[s]?.any (· < d) = false
  /-- While it is settled, its cost stays, and so do those of all segments taken before. -/
  final : ∀ s d rest, queue.pop? sweep.frontier = some (s, d, rest) →
    ∀ n t e, (t, e) ∈ taken ++ [(s, d)] → (midway g sweep rest s d n).cost[t]? = some e

section

variable {g : Network} {source s : Segment} {settled : List Segment} {d e : Weight}
  {sweep : Sweep queue} {rest : queue.State}

/-- After all steps a segment is settled. -/
theorem midway_length (h : sweep.cost[s]? = some d) :
    midway g sweep rest s d (g.steps s true).length
      = settle g { sweep with frontier := rest } s d := by
  rw [settle_of_fresh { sweep with frontier := rest } h, midway, List.take_length]

/-- While a segment is settled, its cost and those of all settled segments stay. -/
theorem Inv.cost_midway (h : Inv g source settled d sweep)
    (hpop : queue.pop? sweep.frontier = some (s, e, rest)) (n : ℕ) {t : Segment}
    (ht : t ∈ s :: settled) :
    (midway g sweep rest s e n).cost[t]? = sweep.cost[t]? := by
  obtain ⟨-, -, hs, hinv⟩ := h.settleNext hpop
  obtain ⟨-, hlowers, -⟩ := Inv.relaxAll List.mem_cons_self ((g.steps s true).take n)
    (fun _ hstep => List.mem_of_mem_take hstep) hinv hs
  exact hlowers.keeps t ht

end

/-! ## All rounds of a sweep -/

variable {g : Network} {source : Segment} {taken : List (Segment × Weight)}
  {first sweep : Sweep queue}

/-- A run is a number of rounds. -/
theorem Takes.exists_run (limit : ℕ) (h : Takes g first taken sweep) :
    ∃ taken', Takes g first taken' (run g limit sweep) := by
  induction limit generalizing taken sweep with
  | zero => exact ⟨taken, h⟩
  | succ limit ih =>
    rw [run]
    cases hpop : queue.pop? sweep.frontier with
    | none => exact ⟨taken, h⟩
    | some next => exact ih (h.more hpop)

/-- What is kept from round to round: the segments taken are the settled ones, and the last of them
has the greatest cost. -/
structure Kept (g : Network) (source : Segment) (taken : List (Segment × Weight)) (d : Weight)
    (sweep : Sweep queue) : Prop where
  inv : Inv g source (taken.map Prod.fst).reverse d sweep
  closed : Closed g (taken.map Prod.fst).reverse sweep
  rising : (taken.map Prod.snd).Pairwise (· ≤ ·)
  bound : ∀ e ∈ taken.map Prod.snd, e ≤ d
  known : ∀ t e, (t, e) ∈ taken → sweep.cost[t]? = some e

theorem Kept.cost_midway {d e : Weight} (h : Kept g source taken d sweep) {s : Segment}
    {rest : queue.State} (hpop : queue.pop? sweep.frontier = some (s, e, rest)) (n : ℕ) {t : Segment}
    {f : Weight} (ht : (t, f) ∈ taken ++ [(s, e)]) :
    (midway g sweep rest s e n).cost[t]? = some f := by
  rcases List.mem_append.mp ht with hold | hnew
  · have hsettled : t ∈ (taken.map Prod.fst).reverse :=
      List.mem_reverse.mpr (List.mem_map_of_mem hold)
    rw [h.inv.cost_midway hpop n (List.mem_cons_of_mem _ hsettled), h.known t f hold]
  · obtain ⟨rfl, rfl⟩ := Prod.mk.inj (List.mem_singleton.mp hnew)
    rw [h.inv.cost_midway hpop n List.mem_cons_self, (h.inv.settleNext hpop).2.2.1]

theorem Takes.exists_kept (h : Takes g (start source) taken sweep) :
    ∃ d, Kept g source taken d sweep := by
  induction h with
  | none =>
    exact ⟨0, inv_start g source, fun _ hs => absurd hs List.not_mem_nil, .nil,
      fun _ he => absurd he List.not_mem_nil, fun _ _ ht => absurd ht List.not_mem_nil⟩
  | @more taken sweep s e rest _ hpop ih =>
    obtain ⟨d, hkept⟩ := ih
    obtain ⟨hle, -, hs, -⟩ := hkept.inv.settleNext hpop
    obtain ⟨hinv, hclosed⟩ := hkept.inv.settle hkept.closed hpop
    have hsettled : ((taken ++ [(s, e)]).map Prod.fst).reverse
        = s :: (taken.map Prod.fst).reverse := by
      rw [List.map_append, List.reverse_append]
      rfl
    have hbound : ∀ f ∈ taken.map Prod.snd, f ≤ e := fun f hf =>
      UInt32.le_trans (hkept.bound f hf) hle
    refine ⟨e, hsettled ▸ hinv, hsettled ▸ hclosed, ?_, ?_, fun t f ht => ?_⟩
    · rw [List.map_append, List.pairwise_append]
      refine ⟨hkept.rising, List.pairwise_singleton _ _, fun f hf f' hf' => ?_⟩
      rw [List.mem_singleton.mp hf']
      exact hbound f hf
    · intro f hf
      rw [List.map_append] at hf
      rcases List.mem_append.mp hf with hf | hf
      · exact hbound f hf
      · rw [List.mem_singleton.mp hf]
        exact UInt32.le_refl e
    · rw [← midway_length hs]
      exact hkept.cost_midway hpop _ ht

/-- Once nothing is waiting, the segments taken are those that a cost is known of. -/
theorem Kept.mem_iff_of_done {d : Weight} (h : Kept g source taken d sweep)
    (hdone : queue.pop? sweep.frontier = none) (t : Segment) (e : Weight) :
    (t, e) ∈ taken ↔ sweep.cost[t]? = some e := by
  refine ⟨h.known t e, fun ht => ?_⟩
  have hsettled : t ∈ (taken.map Prod.fst).reverse := by
    by_contra hnot
    have hwaiting := (h.inv.waiting t e).mpr ⟨ht, hnot⟩
    rw [queue.priority?_of_pop?_eq_none hdone t] at hwaiting
    cases hwaiting
  obtain ⟨⟨t', e'⟩, hmem, rfl⟩ := List.mem_map.mp (List.mem_reverse.mp hsettled)
  rw [h.known t' e' hmem] at ht
  rwa [← Option.some.inj ht]

/-- There are finitely many segments within reach. -/
theorem finite_reached (g : Network) (joints : List Joint) (source : Segment) :
    {t | ∃ n, Way (g.withJoints joints).Leads source t n}.Finite := by
  refine (((g.withJoints joints).around source).finite_toSet).subset ?_
  rintro t ⟨n, hway⟩
  exact Network.mem_around_of_way hway

theorem Takes.orderly {joints : List Joint}
    (h : Takes (g.withJoints joints) (start source) taken sweep) :
    Orderly (g.withJoints joints) source taken sweep := by
  obtain ⟨d, hkept⟩ := h.exists_kept
  have honce : (taken.map Prod.fst).Nodup := List.nodup_reverse.mp hkept.inv.nodup
  refine ⟨hkept.rising, honce, ?_, hkept.known, fun s e rest hpop => ?_,
    fun s e rest hpop n t f => hkept.cost_midway hpop n⟩
  · rw [← List.length_map Prod.fst, ← List.toFinset_card_of_nodup honce, ← Set.ncard_coe_finset]
    refine Set.ncard_le_ncard (fun t ht => ?_) (finite_reached g joints source)
    obtain ⟨⟨t', e⟩, hmem, rfl⟩ := List.mem_map.mp (List.mem_toFinset.mp ht)
    exact ⟨_, (hkept.inv.way t' e (hkept.known t' e hmem)).1⟩
  · rw [(hkept.inv.settleNext hpop).2.2.1, Option.any_some, decide_eq_false_iff_not]
    exact UInt32.lt_irrefl e

end Sweep

namespace Network

/-- Only finitely many segments are within reach of a segment, and a sweep takes no more of them: after
some rounds nothing is waiting, and the segments taken, each at its cost, are the sweep's answers.
After any rounds the segments were taken in the order of their costs, none of them twice, and the
costs that they were taken at are still known.  The queue may take out any one of the nearest. -/
theorem rounds_orderly (g : Network) (joints : List Joint) (queue : Frontier) (source : Segment) :
    let net := g.withJoints joints
    {t | ∃ n, Way net.Leads source t n}.Finite
      ∧ (∃ taken, ∃ last : Sweep queue, Sweep.Takes net (.start source) taken last
        ∧ queue.pop? last.frontier = none
        ∧ net.sweep queue source = last.cost
        ∧ ∀ t e, (t, e) ∈ taken ↔ (net.sweep queue source)[t]? = some e)
      ∧ ∀ taken, ∀ sweep : Sweep queue, Sweep.Takes net (.start source) taken sweep →
        Sweep.Orderly net source taken sweep := by
  intro net
  refine ⟨Sweep.finite_reached g joints source, ?_, fun taken sweep htakes => htakes.orderly⟩
  have hnone : Sweep.Takes net (.start source : Sweep queue) [] (.start source) := .none
  obtain ⟨taken, htakes⟩ := hnone.exists_run (net.reach source)
  obtain ⟨-, -, -, -, hdone⟩ := Sweep.run_done g joints source (net.reach source)
    (@Sweep.inv_start queue _ source) (fun _ hs => by cases hs)
    (Nat.lt_add_right _ (length_around_lt _ source))
  obtain ⟨d, hkept⟩ := htakes.exists_kept
  exact ⟨taken, _, htakes, hdone, rfl, hkept.mem_iff_of_done hdone⟩

end Network

namespace Corner

/-- From the street, some round takes the avenue at its own weight, which is known ever after. -/
theorem avenue_taken :
    ∃ taken, ∃ last : Sweep .pairs,
      Sweep.Takes (town.withJoints joints) (.start ⟨0, 0, true⟩) taken last ∧
      Frontier.pairs.pop? last.frontier = none ∧
      (⟨1, 1, true⟩, town.weight ⟨1, 1, true⟩) ∈ taken ∧
      last.cost[(⟨1, 1, true⟩ : Segment)]? = some (town.weight ⟨1, 1, true⟩) := by
  obtain ⟨-, ⟨taken, last, htakes, hdone, -, hanswers⟩, horderly⟩ :=
    Network.rounds_orderly town joints .pairs ⟨0, 0, true⟩
  have hmem := (hanswers _ _).mpr (sweep_to_avenue .pairs)
  exact ⟨taken, last, htakes, hdone, hmem, (horderly taken last htakes).known _ _ hmem⟩

end Corner

end Crossroads

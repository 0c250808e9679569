import Crossroads.Graph.Network
import Mathlib.Data.Nat.Find
import Mathlib.Order.Bounds.Basic

/-!
# Ways and their least costs

A way goes from place to place along steps that each have a cost.  Costs are natural numbers and are
added up exactly, so that the cost of a way has no bound.  The same notion serves for the network of
a region and for the roads that a network is made from.

* `LeastCost.exists_le` — where there is a way, there is a least cost.
* `Way.congr` — ways depend on nothing but the steps that they can come to.
-/

namespace Crossroads

/-- `Way step a b n` : some steps lead from `a` to `b` at the cost `n`; no step at all leads from
`a` to `a` at no cost. -/
inductive Way {α : Type} (step : α → α → Nat → Prop) (a : α) : α → Nat → Prop
  | here : Way step a a 0
  | onward {b c : α} {n w : Nat} : Way step a b n → step b c w → Way step a c (n + w)

/-- The cost of the cheapest way. -/
def LeastCost {α : Type} (step : α → α → Nat → Prop) (a b : α) (n : Nat) : Prop :=
  IsLeast {m | Way step a b m} n

namespace Way

variable {α : Type} {step other : α → α → Nat → Prop} {a b : α} {n : Nat}

/-- A way may start with a step. -/
theorem prepend {c : α} {w : Nat} (hstep : step a b w) (h : Way step b c n) :
    Way step a c (w + n) := by
  induction h with
  | here => exact Nat.add_comm 0 w ▸ .onward .here hstep
  | onward _ hlead ih => exact Nat.add_assoc _ _ _ ▸ .onward ih hlead

/-- Where no step leads on, a way ends where it starts. -/
theorem eq_of_stuck (hstuck : ∀ c w, ¬ step a c w) (h : Way step a b n) : b = a := by
  induction h with
  | here => rfl
  | onward _ hlead ih =>
    subst ih
    exact absurd hlead (hstuck _ _)

/-- A way over steps that keep a property is a way over whatever such steps are. -/
theorem follow {p : α → Prop} (hstep : ∀ a b w, p a → step a b w → p b ∧ other a b w) (ha : p a)
    (h : Way step a b n) : p b ∧ Way other a b n := by
  induction h with
  | here => exact ⟨ha, .here⟩
  | onward _ hlead ih =>
    obtain ⟨hb, hway⟩ := ih
    obtain ⟨hc, hother⟩ := hstep _ _ _ hb hlead
    exact ⟨hc, .onward hway hother⟩

/-- Ways from a place depend on the steps that can be reached from it. -/
theorem congr {p : α → Prop} (hp : ∀ a b w, p a → step a b w → p b)
    (heq : ∀ a b w, p a → (step a b w ↔ other a b w)) (ha : p a) :
    Way step a b n ↔ Way other a b n := by
  constructor
  · intro h
    refine (follow ?_ ha h).2
    intro a b w ha hstep
    exact ⟨hp a b w ha hstep, (heq a b w ha).mp hstep⟩
  · intro h
    refine (follow ?_ ha h).2
    intro a b w ha hother
    have hstep := (heq a b w ha).mpr hother
    exact ⟨hp a b w ha hstep, hstep⟩

end Way

namespace LeastCost

variable {α : Type} {step : α → α → Nat → Prop} {a b : α} {n : Nat}

/-- Where there is a way, there is a cheapest one. -/
theorem exists_le (h : Way step a b n) : ∃ m ≤ n, LeastCost step a b m := by
  classical
  have hne : ∃ m, Way step a b m := ⟨n, h⟩
  exact ⟨Nat.find hne, Nat.find_min' hne h, Nat.find_spec hne, fun m hm => Nat.find_min' hne hm⟩

end LeastCost

/-- A step of a network, out of one segment and onto another at the other's cost. -/
def Network.Leads (g : Network) (s t : Segment) (n : Nat) : Prop :=
  ∃ w : Weight, ⟨t, w⟩ ∈ g.steps s true ∧ w.toNat = n

end Crossroads

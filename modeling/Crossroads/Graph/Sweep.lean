import Std.Data.HashMap
import Crossroads.Graph.Frontier
import Crossroads.Graph.Network

/-!
# Sweeps

A sweep finds the least costs from one segment to all segments within reach.  It settles the nearest
waiting segment and offers every step out of it a cheaper way (`relax`), until none is waiting.
Since costs only add up, a segment is settled once, so that the number of segments within reach
bounds the sweep.
-/

namespace Crossroads

/-- A sweep in progress, with a queue for the segments that wait. -/
structure Sweep (queue : Frontier) where
  /-- The least costs found so far. -/
  cost : Std.HashMap Segment Weight
  frontier : queue.State

namespace Sweep

variable {queue : Frontier}

/-- The sweep that has only found its source. -/
def start (source : Segment) : Sweep queue where
  cost := ({} : Std.HashMap Segment Weight).insert source 0
  frontier := queue.push queue.empty source 0

/-- Offers a step's target the way over a segment of cost `d`. -/
def relax (d : Weight) (sweep : Sweep queue) (step : Step) : Sweep queue :=
  let offer := d.plus step.weight
  let improves := offer ≠ Weight.none && match sweep.cost[step.target]? with
    | some best => decide (offer < best)
    | none => true
  if improves then
    ⟨sweep.cost.insert step.target offer, queue.push sweep.frontier step.target offer⟩
  else sweep

/-- Settles a segment taken off the frontier at cost `d`, unless a cheaper way to it is known. -/
def settle (g : Network) (sweep : Sweep queue) (s : Segment) (d : Weight) : Sweep queue :=
  if sweep.cost[s]?.any (· < d) then sweep else (g.steps s true).foldl (relax d) sweep

/-- Settles at most `limit` segments, one after another. -/
def run (g : Network) : Nat → Sweep queue → Sweep queue
  | 0, sweep => sweep
  | limit + 1, sweep =>
    match queue.pop? sweep.frontier with
    | none => sweep
    | some (s, d, frontier) => run g limit (settle g { sweep with frontier := frontier } s d)

end Sweep

namespace Network

/-- No fewer than the segments within reach of a segment, itself among them. -/
def reach (g : Network) (source : Segment) : Nat := g.extent + 2 * (source.index.toNat + 1) + 1

/-- The least costs from a segment to all segments within reach, itself at no cost. -/
def sweep (g : Network) (queue : Frontier) (source : Segment) : Std.HashMap Segment Weight :=
  (Sweep.run g (g.reach source) (.start source : Sweep queue)).cost

/-- The least costs from a segment to each of some others. -/
def row (g : Network) (queue : Frontier) (source : Segment) (targets : List Segment) :
    List Weight :=
  let cost := g.sweep queue source
  targets.map fun t => cost.getD t Weight.none

end Network

end Crossroads

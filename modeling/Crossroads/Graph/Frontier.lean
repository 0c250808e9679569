import Crossroads.Graph.Segment

/-!
# The frontier of a search

A priority queue that holds each segment at most once.  Of what a queue does a search may know only
the laws: pushing a segment that is already held replaces its priority, and `pop?` takes out a segment
of the least priority.  Which one it takes out of several is up to the queue.
-/

namespace Crossroads

/-- A priority queue for segments. -/
structure Frontier where
  /-- What can be the state of the queue. -/
  State : Type
  /-- Nothing is waiting. -/
  empty : State
  /-- Adds a segment, or changes its priority. -/
  push : State → Segment → Weight → State
  /-- Takes out a segment of the least priority. -/
  pop? : State → Option (Segment × Weight × State)
  /-- The priority of a waiting segment. -/
  priority? : State → Segment → Option Weight
  priority?_empty : ∀ s, priority? empty s = none
  priority?_push : ∀ q s w t, priority? (push q s w) t = if s = t then some w else priority? q t
  /-- What a pop takes out and what it leaves. -/
  of_pop? : ∀ {q s w rest}, pop? q = some (s, w, rest) → priority? q s = some w ∧
    (∀ t v, priority? q t = some v → w ≤ v) ∧
    ∀ t, priority? rest t = if s = t then none else priority? q t
  /-- A pop fails only when nothing is waiting. -/
  priority?_of_pop?_eq_none : ∀ {q}, pop? q = none → ∀ t, priority? q t = none

end Crossroads

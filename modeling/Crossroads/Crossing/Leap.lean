import Crossroads.Crossing.Connector
import Crossroads.Fault
import Crossroads.Graph.Frontier.Pairs
import Crossroads.Graph.Sweep

/-!
# Leaps

The weight of a leap is the least cost from an enter to an exit in the network of the region, found
by one sweep for each enter.  `Workers` make the sweeps, many at once; each row goes into the place
of its enter, whichever is finished first.  Workers that are to be as many as a number says may not be
had, and then there are no leaps.
-/

namespace Crossroads

/-- Workers that do many jobs at once, with a number of threads or with what the machine has.  The
order in which they finish is theirs, and so is the queue that each of them keeps. -/
structure Workers where
  /-- The queue of a sweep. -/
  queue : Frontier
  /-- Why so many threads cannot be set up, if they cannot. -/
  refusal? : (threads : Nat) → Option String
  /-- The places of so many jobs in the order in which they are finished. -/
  order : (threads : Option Nat) → (count : Nat) → List Nat
  /-- Every job is finished once. -/
  order_perm : ∀ threads count, (order threads count).Perm (List.range count)

namespace Workers

/-- One worker, who does the jobs in turn, however many threads are asked for. -/
def single : Workers := ⟨.pairs, fun _ => none, fun _ count => List.range count, fun _ _ => .refl _⟩

/-- Sets up a number of threads, if one is given. -/
def setUp (w : Workers) (threads : Option Nat) : Except Complaint Unit :=
  match threads.bind w.refusal? with
  | none => .ok ()
  | some reason => .error (.noWorkers reason)

/-- Puts the result of the job at a place into its slot. -/
def deliver {α β : Type} (job : α → β) (items : List α) (slots : List (Option β)) (i : Nat) :
    List (Option β) :=
  slots.set i (items[i]?.map job)

/-- The results of a job on each of some items, in the order of the items. -/
def collect {α β : Type} (w : Workers) (threads : Option Nat) (job : α → β) (items : List α) :
    List β :=
  ((w.order threads items.length).foldl (deliver job items)
    (List.replicate items.length none)).filterMap id

end Workers

namespace Connector

/-- The rows of the table of leaps, one after another. -/
def leapRows (c : Connector) (g : Network) (workers : Workers) (threads : Option Nat) :
    List Weight :=
  (workers.collect threads (fun enter => g.row workers.queue enter c.exits) c.enters).flatten

/-- Fills the table with the leaps of a network. -/
def fillLeaps (c : Connector) (g : Network) (workers : Workers) (threads : Option Nat) :
    Except Fault Connector := do
  (workers.setUp threads).mapError Fault.invalid
  match c.install? (c.leapRows g workers threads) with
  | some c => .ok c
  | none => .error (.corrupt .leapTableMismatch)

end Connector

end Crossroads

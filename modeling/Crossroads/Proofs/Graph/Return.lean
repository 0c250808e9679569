import Crossroads.Graph.Frontier.Pairs
import Crossroads.Proofs.Graph.Mirror
import Crossroads.Proofs.Graph.Pace
import Crossroads.Proofs.Graph.Sweep

/-!
# There and back

Where all roads are open both ways, every step can be taken back: the reversed segments follow one
another in the opposite order (`Network.leads_reversed`).  A way is paid for by the segments stepped
onto, so that the way back leaves out the segment where it starts and counts the one where the way
there started (`Network.way_reversed`).  The same holds of the cheapest ways, and of what sweeps
answer: `Network.sweep_reversed`.
-/

namespace Crossroads

namespace Network

/-- All valid roads are open both ways. -/
def TwoWay (g : Network) : Prop := ∀ id road, g.road? id = some road → road.oneWay = false

/-- The points of valid roads have indices, which are words. -/
def Indexed (g : Network) : Prop :=
  ∀ id road, g.road? id = some road → road.points.length ≤ UInt32.size

variable {g : Network} {joints : List Joint} {s t : Segment} {n : Nat}

theorem TwoWay.legal_iff (h : g.TwoWay) : g.Legal s ↔ g.OnRoad s := by
  constructor
  · rintro ⟨road, hroad, hindex, -⟩
    exact ⟨road, hroad, hindex⟩
  · rintro ⟨road, hroad, hindex⟩
    refine ⟨road, hroad, hindex, ?_⟩
    intro hone
    rw [h _ road hroad] at hone
    cases hone

theorem Indexed.index_lt (h : g.Indexed) (hs : g.OnRoad s) : s.index.toNat + 1 < UInt32.size := by
  obtain ⟨road, hroad, hindex⟩ := hs
  exact Nat.lt_of_lt_of_le hindex (h _ road hroad)

/-- A stretch costs the same both ways. -/
theorem weight_reversed (g : Network) (s : Segment) : g.weight s.reversed = g.weight s := rfl

/-! ## Ways back -/

section Back

variable (hjoined : g.Joined joints) (htwoWay : g.TwoWay) (hindexed : g.Indexed)

include hjoined htwoWay hindexed

/-- A step can be taken back, at the cost of the segment that it left. -/
theorem leads_reversed (hs : g.OnRoad s) (h : (g.withJoints joints).Leads s t n) :
    g.OnRoad t ∧ n = (g.weight t).toNat ∧
      (g.withJoints joints).Leads t.reversed s.reversed (g.weight s).toNat := by
  obtain ⟨w, hstep, rfl⟩ := h
  obtain ⟨hlegal, hturn, hweight, hmeet⟩ :=
    legal_of_mem_steps hjoined (htwoWay.legal_iff.mpr hs) hstep
  have ht : g.OnRoad t := htwoWay.legal_iff.mp hlegal
  have ht' : g.OnRoad t.reversed := ht
  have hs' : g.OnRoad s.reversed := hs
  refine ⟨ht, congrArg UInt32.toNat hweight, _, ?_, rfl⟩
  refine (mem_steps_iff_of_legal hjoined (htwoWay.legal_iff.mpr ht') (htwoWay.legal_iff.mpr hs')
    (hindexed.index_lt hs')).mpr ⟨?_, rfl, ?_⟩
  · rw [Segment.reversed_reversed]
    exact Ne.symm hturn
  · rw [Segment.roadPoint_reversed, Segment.roadPoint_reversed]
    exact hmeet.symm

/-- The way back passes the same segments, and pays for the first of them in place of the last. -/
theorem way_reversed (hs : g.OnRoad s) (h : Way (g.withJoints joints).Leads s t n) :
    g.OnRoad t ∧ ∃ m, Way (g.withJoints joints).Leads t.reversed s.reversed m ∧
      m + (g.weight t).toNat = n + (g.weight s).toNat := by
  induction h with
  | here => exact ⟨hs, 0, .here, rfl⟩
  | onward _ hlead ih =>
    obtain ⟨hb, m, hback, hcost⟩ := ih
    obtain ⟨hc, rfl, hlead'⟩ := leads_reversed hjoined htwoWay hindexed hb hlead
    exact ⟨hc, _, hback.prepend hlead', by omega⟩

/-- The cheapest way back is the cheapest way there. -/
theorem leastCost_reversed (hs : g.OnRoad s)
    (h : LeastCost (g.withJoints joints).Leads s t n) :
    ∃ m, LeastCost (g.withJoints joints).Leads t.reversed s.reversed m ∧
      m + (g.weight t).toNat = n + (g.weight s).toNat := by
  obtain ⟨hway, hleast⟩ := h
  obtain ⟨ht, m, hback, hcost⟩ := way_reversed hjoined htwoWay hindexed hs hway
  refine ⟨m, ⟨hback, ?_⟩, hcost⟩
  intro m' hback'
  have ht' : g.OnRoad t.reversed := ht
  obtain ⟨-, n', hway', hcost'⟩ := way_reversed hjoined htwoWay hindexed ht' hback'
  rw [Segment.reversed_reversed, Segment.reversed_reversed] at hway'
  rw [weight_reversed, weight_reversed] at hcost'
  have hle : n ≤ n' := hleast hway'
  omega

/-- **The return trip.**  In a network of two-way roads, whose joints share no road point, a sweep
from the reversed target answers the cost to the target, with the source's weight added and the
target's taken off, for the reversed source; unless that is too great for an answer.  No road has
more points than there are indices. -/
theorem sweep_reversed (queue : Frontier) (hs : g.OnRoad s) {d : Weight}
    (hd : ((g.withJoints joints).sweep queue s)[t]? = some d)
    (hlt : d.toNat + (g.weight s).toNat < Weight.none.toNat + (g.weight t).toNat) :
    ∃ e, ((g.withJoints joints).sweep queue t.reversed)[s.reversed]? = some e ∧
      e.toNat + (g.weight t).toNat = d.toNat + (g.weight s).toNat := by
  obtain ⟨hleast, -⟩ := (getElem?_sweep_eq_some_iff g joints queue s t d).mp hd
  obtain ⟨m, hback, hcost⟩ := leastCost_reversed hjoined htwoWay hindexed hs hleast
  obtain ⟨e, hanswer, rfl⟩ := exists_getElem?_sweep g joints queue _ _ hback (by omega)
  exact ⟨e, hanswer, hcost⟩

end Back

/-- The cheapest way to a neighbour is the step onto it. -/
theorem leastCost_of_leads {g : Network} (h : g.Leads s t n) (hne : t ≠ s) :
    LeastCost g.Leads s t n := by
  have hcost : ∀ {b c m}, g.Leads b c m → m = (g.weight c).toNat := by
    rintro b c m ⟨w, hstep, rfl⟩
    obtain ⟨p, -, hat⟩ := mem_steps_iff.mp hstep
    obtain ⟨road, -, -, hweight, -⟩ := mem_stepsAt_iff.mp hat
    exact congrArg UInt32.toNat hweight
  refine ⟨Nat.zero_add n ▸ .onward .here h, ?_⟩
  intro m hway
  cases hway with
  | here => exact absurd rfl hne
  | onward _ hlead =>
    rw [hcost h, hcost hlead]
    exact Nat.le_add_left _ _

end Network

namespace Corner

/-- The lane, open both ways. -/
def avenue : Road := { lane with oneWay := false }

/-- The street and the avenue. -/
def town : Network := { map := (({} : RoadMap).insert 0 street).insert 1 avenue }

theorem road?_town {id : FeatureId} {road : Road} (h : town.road? id = some road) :
    (id = 0 ∧ road = street) ∨ (id = 1 ∧ road = avenue) := by
  obtain ⟨hroad, -⟩ := Option.filter_eq_some_iff.mp h
  simp only [town, RoadMap.insert, Std.TreeMap.getElem?_insert,
    Std.LawfulEqOrd.compare_eq_iff_eq, Std.TreeMap.getElem?_emptyc] at hroad
  split at hroad
  · rename_i hid
    exact .inr ⟨hid.symm, (Option.some.inj hroad).symm⟩
  · split at hroad
    · rename_i hid
      exact .inl ⟨hid.symm, (Option.some.inj hroad).symm⟩
    · cases hroad

theorem twoWay_town : town.TwoWay := by
  intro id road h
  rcases road?_town h with ⟨-, rfl⟩ | ⟨-, rfl⟩ <;> rfl

theorem indexed_town : town.Indexed := by
  intro id road h
  rcases road?_town h with ⟨-, rfl⟩ | ⟨-, rfl⟩ <;> decide

theorem joined_town : town.Joined joints := by
  refine Network.joined_singleton ?_
  intro p hp road hroad
  simp only [List.mem_cons, List.not_mem_nil, or_false] at hp
  rcases hp with rfl | rfl <;> rcases road?_town hroad with ⟨-, rfl⟩ | ⟨-, rfl⟩ <;> decide

/-- The cheapest way from the street into the avenue is the turn. -/
theorem sweep_to_avenue (queue : Frontier) :
    ((town.withJoints joints).sweep queue ⟨0, 0, true⟩)[(⟨1, 1, true⟩ : Segment)]?
      = some (town.weight ⟨1, 1, true⟩) := by
  have hstreet : town.OnRoad ⟨0, 0, true⟩ := ⟨street, by rfl, by decide⟩
  have havenue : town.OnRoad ⟨1, 1, true⟩ := ⟨avenue, by rfl, by decide⟩
  have hstep : ⟨⟨1, 1, true⟩, town.weight ⟨1, 1, true⟩⟩
      ∈ (town.withJoints joints).steps ⟨0, 0, true⟩ true :=
    (Network.mem_steps_iff_of_legal joined_town (twoWay_town.legal_iff.mpr hstreet)
      (twoWay_town.legal_iff.mpr havenue) (by decide)).mpr
      ⟨by decide, rfl, .inr ⟨_, List.mem_singleton_self _, by decide, by decide⟩⟩
  exact (Network.getElem?_sweep_eq_some_iff _ _ queue _ _ _).mpr
    ⟨Network.leastCost_of_leads ⟨_, hstep, rfl⟩ (by decide), town.weight_lt_none _⟩

/-- From the street into the avenue one pays for the avenue, and back for the street. -/
theorem back_from_avenue :
    ((town.withJoints joints).sweep .pairs ⟨0, 0, true⟩)[(⟨1, 1, true⟩ : Segment)]?
        = some (town.weight ⟨1, 1, true⟩) ∧
      ((town.withJoints joints).sweep .pairs ⟨1, 1, false⟩)[(⟨0, 0, false⟩ : Segment)]?
        = some (town.weight ⟨0, 0, true⟩) := by
  have hstreet : town.OnRoad ⟨0, 0, true⟩ := ⟨street, by rfl, by decide⟩
  have hless := town.weight_lt_none ⟨0, 0, true⟩
  obtain ⟨e, hback, hcost⟩ := Network.sweep_reversed joined_town twoWay_town indexed_town .pairs
    hstreet (sweep_to_avenue .pairs) (by omega)
  have he : e = town.weight ⟨0, 0, true⟩ := UInt32.toNat_inj.mp (by omega)
  exact ⟨sweep_to_avenue .pairs, he ▸ hback⟩

end Corner

end Crossroads

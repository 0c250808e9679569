import Crossroads.Proofs.Crossing.Transition
import Crossroads.Proofs.Graph.Survey

/-!
# What is detected at a border

A vehicle crosses the border along a directed segment of a feature when one end of the segment lies
inside and the other does not.  `Rules.Goes` says which segments a vehicle may use at all, without
any transition.

* `Transition.mem_ends_ofFeatures` — a connector lists the segments by which its vehicle crosses.
* `Transition.apart_ofFeatures` — features that can be told apart give at most one transition for
  each segment.
* `Detection.crossings_detected` — the lists, the gates and their points agree on what crosses.
-/

namespace Crossroads

/-- A vehicle may go along a segment of a feature, from one of its points to a neighbouring one. -/
structure Rules.Goes (rules : Rules) (v : Vehicle) (f : Feature) (s : Segment)
    (start stop : Point Coordinate) : Prop where
  feature : f.id = s.feature
  usable : (rules.roadMask f).contains v = true
  direction : s.forward = true ∨ (rules.oneWayMask f).contains v = false
  back : f.points[s.index.toNat]? = some (if s.forward then start else stop)
  front : f.points[s.index.toNat + 1]? = some (if s.forward then stop else start)

namespace Transition

variable {inside : Point Coordinate → Bool} {rules : Rules} {features : List Feature} {v : Vehicle}
  {s : Segment}

/-! ## Features that can be told apart -/

/-- A segment starts and ends at one point each. -/
theorem goes_unique (hdistinct : (features.map Feature.id).Nodup) {f f' : Feature}
    (hf : f ∈ features) (hf' : f' ∈ features) {a b a' b' : Point Coordinate}
    (h : rules.Goes v f s a b) (h' : rules.Goes v f' s a' b') : f = f' ∧ a = a' ∧ b = b' := by
  obtain rfl : f = f' :=
    List.inj_on_of_nodup_map hdistinct hf hf' (h.feature.trans h'.feature.symm)
  have hback := Option.some.inj (h.back.symm.trans h'.back)
  have hfront := Option.some.inj (h.front.symm.trans h'.front)
  cases hforward : s.forward with
  | true =>
    rw [hforward, if_pos rfl, if_pos rfl] at hback hfront
    exact ⟨rfl, hback, hfront⟩
  | false =>
    rw [hforward, if_neg Bool.false_ne_true, if_neg Bool.false_ne_true] at hback hfront
    exact ⟨rfl, hfront, hback⟩

theorem toNat_ofNat_of_getElem? (hindexable : Survey.Indexable features) {f : Feature}
    (hf : f ∈ features) {i : Nat} {p : Point Coordinate} (h : f.points[i]? = some p) :
    (UInt32.ofNat i).toNat = i :=
  UInt32.toNat_ofNat_of_lt'
    (Nat.lt_of_lt_of_le (List.getElem?_eq_some_iff.mp h).1 (hindexable f hf))

/-- There is at most one transition for each segment. -/
theorem apart_ofFeatures (hdistinct : (features.map Feature.id).Nodup)
    (hindexable : Survey.Indexable features) : Apart (ofFeatures inside rules features) := by
  intro t ht t' ht' hfeature hindex
  obtain ⟨f, hf, -, i, back, front, hback, hfront, -, rfl⟩ := mem_ofFeatures_iff.mp ht
  obtain ⟨f', hf', -, i', back', front', hback', hfront', -, rfl⟩ := mem_ofFeatures_iff.mp ht'
  obtain rfl : f = f' := List.inj_on_of_nodup_map hdistinct hf hf' hfeature
  obtain rfl : i = i' := by
    have hnat := congrArg UInt32.toNat hindex
    simp only [ofPair] at hnat
    rwa [toNat_ofNat_of_getElem? hindexable hf hback,
      toNat_ofNat_of_getElem? hindexable hf hback'] at hnat
  rw [Option.some.inj (hback.symm.trans hback'), Option.some.inj (hfront.symm.trans hfront')]

/-! ## Segments that cross -/

/-- A segment that a transition opens leads between the points of the transition. -/
theorem goes_of_opens (hindexable : Survey.Indexable features) {f : Feature} (hf : f ∈ features)
    {i : Nat} {back front : Point Coordinate} (hback : f.points[i]? = some back)
    (hfront : f.points[i + 1]? = some front) (h : (ofPair inside rules f i back front).Opens v s) :
    rules.Goes v f s (if s.forward then back else front) (if s.forward then front else back) := by
  obtain ⟨husable, hfeature, hindex, hdirection⟩ := h
  have hnat : s.index.toNat = i := by
    rw [hindex]
    exact toNat_ofNat_of_getElem? hindexable hf hback
  refine ⟨hfeature.symm, husable, hdirection, ?_, ?_⟩
  · rw [hnat, hback]
    cases s.forward <;> rfl
  · rw [hnat, hfront]
    cases s.forward <;> rfl

/-- A segment that a vehicle may use is opened by the transition between its points, if there is one. -/
theorem opens_of_goes {f : Feature} {a b : Point Coordinate} (h : rules.Goes v f s a b)
    (back front : Point Coordinate) : (ofPair inside rules f s.index.toNat back front).Opens v s :=
  ⟨h.usable, h.feature.symm, UInt32.ofNat_toNat.symm, h.direction⟩

/-- **A connector lists what crosses.**  Its enters are the segments that its vehicle may use and
that lead from outside to inside, and its exits those that lead from inside to outside. -/
theorem mem_ends_ofFeatures (hindexable : Survey.Indexable features) (way : Bool) :
    s ∈ (connector (ofFeatures inside rules features) v).ends way ↔ ∃ f ∈ features, ∃ a b,
      rules.Goes v f s a b ∧ inside a = !way ∧ inside b = way := by
  rw [mem_ends_connector]
  constructor
  · rintro ⟨t, ht, hopens, hway⟩
    obtain ⟨f, hf, -, i, back, front, hback, hfront, hsides, rfl⟩ := mem_ofFeatures_iff.mp ht
    have hgoes := goes_of_opens hindexable hf hback hfront hopens
    have hopposite : inside back = !inside front := Bool.eq_not.mpr hsides
    refine ⟨f, hf, _, _, hgoes, ?_⟩
    rw [hway]
    cases s.forward <;> simp [ofPair, hopposite]
  · rintro ⟨f, hf, a, b, hgoes, ha, hb⟩
    have hmask := Mask.isEmpty_of_contains hgoes.usable
    refine ⟨ofPair inside rules f s.index.toNat _ _, mem_ofFeatures_iff.mpr ⟨f, hf, hmask, _, _, _,
      hgoes.back, hgoes.front, ?_, rfl⟩, opens_of_goes hgoes _ _, ?_⟩
    · cases s.forward <;> simp [ha, hb]
    · cases s.forward <;> simp [ofPair, ha, hb]

/-- No way in is a way out: a segment ends at one point only, which lies inside or outside. -/
theorem not_mem_ends_of_mem_ends (hdistinct : (features.map Feature.id).Nodup)
    (hindexable : Survey.Indexable features) (way : Bool)
    (h : s ∈ (connector (ofFeatures inside rules features) v).ends way) :
    s ∉ (connector (ofFeatures inside rules features) v).ends (!way) := by
  intro h'
  obtain ⟨f, hf, a, b, hgoes, -, hb⟩ := (mem_ends_ofFeatures hindexable _).mp h
  obtain ⟨f', hf', a', b', hgoes', -, hb'⟩ := (mem_ends_ofFeatures hindexable _).mp h'
  obtain ⟨-, -, rfl⟩ := goes_unique hdistinct hf hf' hgoes hgoes'
  exact Bool.not_ne_self way (hb'.symm.trans hb)

/-- The gate of a segment that is listed lies between the points where the segment starts and ends. -/
theorem gatePoint?_of_goes (hdistinct : (features.map Feature.id).Nodup)
    (hindexable : Survey.Indexable features) {f : Feature} (hf : f ∈ features)
    {a b : Point Coordinate} (hgoes : rules.Goes v f s a b)
    (hlisted : (connector (ofFeatures inside rules features) v).Lists s) (front : Bool) :
    (connector (ofFeatures inside rules features) v).gatePoint? s front
      = some (if front then b else a) := by
  obtain ⟨t, ht, hopens⟩ := exists_of_lists hlisted
  rw [gatePoint?_connector (apart_ofFeatures hdistinct hindexable) ht hopens]
  obtain ⟨f', hf', -, i, back, front', hback, hfront, -, rfl⟩ := mem_ofFeatures_iff.mp ht
  have hgoes' := goes_of_opens hindexable hf' hback hfront hopens
  obtain ⟨rfl, rfl, rfl⟩ := goes_unique hdistinct hf hf' hgoes hgoes'
  cases s.forward <;> cases front <;> rfl

end Transition

/-! ## All connectors -/

namespace Detection

/-- **What is detected is what crosses.**  In features that can be told apart, one transition is found
for each two neighbouring points of a road on different sides of the border, feature by feature.
A vehicle's connector lists the segments that the vehicle may use and that start on one side and end
on the other: once each, and none of them both as a way in and as a way out.  The same segments are
the ones that are said to cross, and a listed segment's points are those where it starts and ends. -/
theorem crossings_detected (inside : Point Coordinate → Bool) (rules : Rules)
    (features : List Feature) (hdistinct : (features.map Feature.id).Nodup)
    (hindexable : Survey.Indexable features) :
    let found := ofFeatures inside rules features
    found.transitions = features.flatMap (Transition.crossings inside rules) ∧
    ∀ v, let c := found.connectors.get v
      (∀ s, s ∈ c.enters ↔ ∃ f ∈ features, ∃ a b,
        rules.Goes v f s a b ∧ inside a = false ∧ inside b = true) ∧
      (∀ s, s ∈ c.exits ↔ ∃ f ∈ features, ∃ a b,
        rules.Goes v f s a b ∧ inside a = true ∧ inside b = false) ∧
      c.enters.Nodup ∧ c.exits.Nodup ∧ (∀ s ∈ c.enters, s ∉ c.exits) ∧
      (∀ s, c.crosses s false = true ↔ s ∈ c.enters) ∧
      (∀ s, c.crosses s true = true ↔ s ∈ c.exits) ∧
      ∀ s, s ∈ c.enters ∨ s ∈ c.exits → ∀ f ∈ features, ∀ a b, rules.Goes v f s a b →
        c.gatePoint? s true = some b ∧ c.gatePoint? s false = some a := by
  intro found
  have htransitions : found.transitions = features.flatMap (Transition.crossings inside rules) := by
    rw [ofFeatures_transitions, Transition.ofFeatures]
    exact congrArg features.flatMap (funext (Transition.ofFeature_eq_crossings inside rules))
  refine ⟨htransitions, ?_⟩
  intro v c
  have hc : c = Transition.connector (Transition.ofFeatures inside rules features) v :=
    ofFeatures_connectors inside rules features v
  clear_value c
  subst hc
  have hapart : Transition.Apart (Transition.ofFeatures inside rules features) :=
    Transition.apart_ofFeatures hdistinct hindexable
  refine ⟨?_, ?_, Transition.nodup_ends_connector _ v true, Transition.nodup_ends_connector _ v false,
    ?_, ?_, ?_, ?_⟩
  · exact fun s => Transition.mem_ends_ofFeatures hindexable true
  · exact fun s => Transition.mem_ends_ofFeatures hindexable false
  · exact fun s => Transition.not_mem_ends_of_mem_ends hdistinct hindexable true
  · exact fun s => Transition.crosses_connector_iff hapart
  · exact fun s => Transition.crosses_connector_iff hapart
  · intro s hlisted f hf a b hgoes
    have hpoint := Transition.gatePoint?_of_goes hdistinct hindexable hf hgoes hlisted
    exact ⟨hpoint true, hpoint false⟩

end Detection

/-! ## Two streets -/

namespace Streets

/-- A street that leads into the region and out of it again. -/
def street : Feature := { id := 1, points := [⟨0.0, 0.0⟩, ⟨2.0, 0.0⟩, ⟨0.0, 1.0⟩] }

/-- A lane that leads into the region and is one-way for cars. -/
def lane : Feature := { id := 2, points := [⟨0.0, 2.0⟩, ⟨0.5, 2.0⟩, ⟨2.0, 2.0⟩] }

def inside (p : Point Coordinate) : Bool := decide (p.x > 1.0)

def rules : Rules where
  roadMask _ := .all
  oneWayMask f := if f.id = 2 then .single .car else .none

/-- Cars enter by the lane, and do not leave by it. -/
theorem car_enters_by_lane :
    ([street, lane].map Feature.id).Nodup ∧ Survey.Indexable [street, lane] ∧
    let c := (Detection.ofFeatures inside rules [street, lane]).connectors.car
    ⟨2, 1, true⟩ ∈ c.enters ∧ ⟨2, 1, true⟩ ∉ c.exits ∧ c.crosses ⟨2, 1, true⟩ false = true ∧
      c.gatePoint? ⟨2, 1, true⟩ true = some ⟨2.0, 2.0⟩ := by
  have hdistinct : ([street, lane].map Feature.id).Nodup := by decide
  have hindexable : Survey.Indexable [street, lane] := by
    intro f hf
    simp only [List.mem_cons, List.not_mem_nil, or_false] at hf
    rcases hf with rfl | rfl <;> decide
  obtain ⟨-, hfound⟩ := Detection.crossings_detected inside rules _ hdistinct hindexable
  obtain ⟨henters, -, -, -, hone, hin, -, hpoints⟩ := hfound .car
  have hlane : lane ∈ [street, lane] := List.mem_cons_of_mem _ (List.mem_singleton_self lane)
  have hgoes : rules.Goes .car lane ⟨2, 1, true⟩ ⟨0.5, 2.0⟩ ⟨2.0, 2.0⟩ :=
    ⟨rfl, rfl, .inl rfl, rfl, rfl⟩
  have henter := (henters ⟨2, 1, true⟩).mpr ⟨lane, hlane, _, _, hgoes, by decide, by decide⟩
  exact ⟨hdistinct, hindexable, henter, hone _ henter, (hin _).mpr henter,
    (hpoints _ (.inl henter) lane hlane _ _ hgoes).1⟩

end Streets

end Crossroads

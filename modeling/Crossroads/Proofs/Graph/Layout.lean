import Crossroads.Proofs.Graph.Mirror
import Crossroads.Proofs.Graph.Road
import Crossroads.Proofs.Graph.Survey

/-!
# The layout of a region

A `Layout` says what the roads of a region are without any joint: a vehicle travels the directed
segments of its roads, and goes on from one to the next where the end of the one and the start of
the other fall into one cell.  A network with the joints of a survey leads from such a segment to
the same segments at the same costs (`Layout.leads_iff`).

A road needs a speed to be travelled, but not to be left: a way may start on any segment that the
model accepts, since the first segment is not paid for.
-/

namespace Crossroads

/-- A model accepts a segment of a feature: the feature is a road, the segment lies between two of its
points, and it goes forward unless the road is open both ways. -/
structure Model.Accepts (model : Model) (f : Feature) (s : Segment) : Prop where
  feature : f.id = s.feature
  isRoad : model.isRoad f = true
  index : s.index.toNat + 1 < f.points.length
  direction : s.forward = true ∨ model.isOneWay f = false

/-- The vehicle may travel a segment that its model accepts if it has a speed there. -/
structure Model.Travels (model : Model) (f : Feature) (s : Segment) : Prop
    extends model.Accepts f s where
  speed : model.speed f > 0.0

/-- What a vehicle makes of features whose points count as one place when they share a cell. -/
structure Layout where
  model : Model
  features : List Feature
  bits : Nat

namespace Layout

/-- A directed segment that the model accepts. -/
def Accepts (l : Layout) (s : Segment) : Prop := ∃ f ∈ l.features, l.model.Accepts f s

/-- A directed segment that the vehicle may travel. -/
def IsNode (l : Layout) (s : Segment) : Prop := ∃ f ∈ l.features, l.model.Travels f s

/-- The point at the end (`front`) or the start of a segment that the model accepts. -/
def EndsAt (l : Layout) (s : Segment) (front : Bool) (p : Point Coordinate) : Prop :=
  ∃ f ∈ l.features, l.model.Accepts f s ∧ f.points[(s.pointIndex front).toNat]? = some p

/-- The cost of a segment that the vehicle may travel. -/
def Costs (l : Layout) (s : Segment) (n : Nat) : Prop :=
  ∃ f ∈ l.features, l.model.Travels f s
    ∧ ((⟨l.model.maxSpeed⟩ : Pace).weight (Road.ofFeature l.model f) s).toNat = n

/-- A step from a segment to one that starts in the cell where the first one ends, at the cost of
the second one, which the vehicle may travel; no step turns straight back. -/
def Leads (l : Layout) (s t : Segment) (n : Nat) : Prop :=
  (∃ p q, l.EndsAt s true p ∧ l.EndsAt t false q ∧ Cell.ofPoint l.bits p = Cell.ofPoint l.bits q)
    ∧ t ≠ s.reversed ∧ l.Costs t n

/-- The network that the vehicle's roads and some joints make. -/
def network (l : Layout) (joints : List Joint) : Network :=
  ({ map := RoadMap.ofFeatures l.model l.features, pace := ⟨l.model.maxSpeed⟩ } : Network).withJoints
    joints

/-- Features and their points can be told apart by their numbers. -/
structure Numbered (l : Layout) : Prop where
  distinct : (l.features.map Feature.id).Nodup
  indexable : Survey.Indexable l.features

/-! ## Ends of segments -/

section Ends

variable {l : Layout} {s t : Segment} {f : Feature}

theorem IsNode.accepts (h : l.IsNode s) : l.Accepts s := by
  obtain ⟨f, hf, htravels⟩ := h
  exact ⟨f, hf, htravels.toAccepts⟩

theorem IsNode.of_costs {n : Nat} (h : l.Costs s n) : l.IsNode s := by
  obtain ⟨f, hf, htravels, -⟩ := h
  exact ⟨f, hf, htravels⟩

theorem exists_endsAt (h : l.Accepts s) (front : Bool) :
    ∃ p, l.EndsAt s front p := by
  obtain ⟨f, hf, haccepts⟩ := h
  have hlt := Segment.toNat_pointIndex_lt haccepts.index front
  exact ⟨_, f, hf, haccepts, List.getElem?_eq_getElem hlt⟩

theorem eq_of_id_eq (hl : l.Numbered) {f' : Feature} (hf : f ∈ l.features) (hf' : f' ∈ l.features)
    (hid : f.id = f'.id) : f = f' :=
  List.inj_on_of_nodup_map hl.distinct hf hf' hid

/-- The roads of a network are those of the features. -/
theorem road?_network (hl : l.Numbered) (joints : List Joint) {id : FeatureId} {road : Road} :
    (l.network joints).road? id = some road ↔
      ∃ f ∈ l.features, f.id = id ∧ Road.ofFeature? l.model f = some road :=
  RoadMap.road?_ofFeatures_eq_some_iff hl.distinct

theorem road?_network_of_travels (hl : l.Numbered) (joints : List Joint) (hf : f ∈ l.features)
    (h : l.model.Travels f s) :
    (l.network joints).road? s.feature = some (Road.ofFeature l.model f) := by
  have htwo : 2 ≤ f.points.length := by
    have hindex := h.index
    omega
  rw [road?_network hl]
  refine ⟨f, hf, h.feature, Road.ofFeature?_eq_some_iff.mpr ⟨h.isRoad, ?_, rfl⟩⟩
  rw [Road.isValid, Bool.and_eq_true, decide_eq_true_eq, decide_eq_true_eq]
  exact ⟨htwo, h.speed⟩

theorem costs_iff (hl : l.Numbered) (joints : List Joint) (h : l.IsNode s) {n : Nat} :
    l.Costs s n ↔ ((l.network joints).weight s).toNat = n := by
  obtain ⟨f, hf, htravels⟩ := h
  have hweight : (l.network joints).weight s
      = (⟨l.model.maxSpeed⟩ : Pace).weight (Road.ofFeature l.model f) s := by
    rw [Network.weight, road?_network_of_travels hl joints hf htravels]
    rfl
  rw [hweight]
  constructor
  · rintro ⟨f', hf', htravels', hcost⟩
    rwa [eq_of_id_eq hl hf hf' (htravels.feature.trans htravels'.feature.symm)]
  · intro hcost
    exact ⟨f, hf, htravels, hcost⟩

end Ends

/-! ## Steps -/

section Steps

variable {l : Layout} {s t : Segment} {maskOf : Feature → Mask}

/-- The road point at an end of a segment is marked with the cell that the end falls into. -/
theorem mem_marks_of_endsAt (hl : l.Numbered)
    (hmask : ∀ f, l.model.isRoad f = true → (maskOf f).isEmpty = false) {front : Bool}
    {p : Point Coordinate} (h : l.EndsAt s front p) :
    (s.roadPoint front, Cell.ofPoint l.bits p) ∈ Survey.marks maskOf l.bits l.features := by
  obtain ⟨f, hf, haccepts, hget⟩ := h
  rw [Survey.mem_marks_iff hl.indexable]
  exact ⟨f, hf, hmask f haccepts.isRoad, haccepts.feature, p, hget, rfl⟩

/-- The segments that can be travelled are the legal ones of the network. -/
theorem legal_network_iff (hl : l.Numbered) (joints : List Joint) :
    (l.network joints).Legal s ↔ l.IsNode s := by
  constructor
  · rintro ⟨road, hroad, hindex, hway⟩
    obtain ⟨f, hf, hid, hroad⟩ := (road?_network hl joints).mp hroad
    obtain ⟨hisRoad, hvalid, rfl⟩ := Road.ofFeature?_eq_some_iff.mp hroad
    rw [Road.isValid, Bool.and_eq_true] at hvalid
    refine ⟨f, hf, ⟨hid, hisRoad, hindex, ?_⟩, of_decide_eq_true hvalid.2⟩
    cases hone : l.model.isOneWay f with
    | true => exact .inl (hway hone)
    | false => exact .inr rfl
  · rintro ⟨f, hf, htravels⟩
    refine ⟨_, road?_network_of_travels hl joints hf htravels, htravels.index, ?_⟩
    intro hone
    have hone : l.model.isOneWay f = true := hone
    exact htravels.direction.resolve_right (by simp [hone])

/-- A segment that a step comes to starts at the road point of the step, on a road of the network. -/
theorem travels_of_mem_stepsAt (hl : l.Numbered) {joints : List Joint} {p : RoadPoint}
    {f : Feature} (hf : f ∈ l.features) (hid : f.id = p.feature)
    (hindex : p.index.toNat < f.points.length) {w : Weight}
    (h : ⟨t, w⟩ ∈ (l.network joints).stepsAt s true p) :
    l.model.Travels f t ∧ t.roadPoint false = p := by
  have hwithin : ∀ road, (l.network joints).road? p.feature = some road →
      p.index.toNat < road.points.length := by
    intro road hroad
    obtain ⟨f', hf', hid', hroad'⟩ := (road?_network hl joints).mp hroad
    obtain rfl : f = f' := eq_of_id_eq hl hf hf' (hid.trans hid'.symm)
    obtain ⟨-, -, rfl⟩ := Road.ofFeature?_eq_some_iff.mp hroad'
    exact hindex
  obtain ⟨hlegal, hstart, -⟩ := Network.legal_of_mem_stepsAt hwithin h
  obtain ⟨f', hf', htravels⟩ := (legal_network_iff hl joints).mp hlegal
  have hid' : f'.id = p.feature := htravels.feature.trans (congrArg RoadPoint.feature hstart)
  obtain rfl : f = f' := eq_of_id_eq hl hf hf' (hid.trans hid'.symm)
  exact ⟨htravels, hstart⟩

/-- A segment of a road of the network can be stepped onto at the road point where it starts. -/
theorem mem_stepsAt_of_travels (hl : l.Numbered) {joints : List Joint} {f : Feature}
    (hf : f ∈ l.features) (h : l.model.Travels f t) (hturn : t ≠ s.reversed) :
    ⟨t, (l.network joints).weight t⟩ ∈ (l.network joints).stepsAt s true (t.roadPoint false) := by
  have hlegal := (legal_network_iff hl joints).mpr ⟨f, hf, h⟩
  exact Network.mem_stepsAt_of_legal hlegal (Nat.lt_of_lt_of_le h.index (hl.indexable f hf)) hturn

/-! ## Ways -/

variable (hl : l.Numbered) (hmask : ∀ f, l.model.isRoad f = true → (maskOf f).isEmpty = false)
  (hfew : (Survey.ofFeatures maskOf l.bits l.features).joints.length ≤ UInt32.size)

include hl hmask hfew

/-- **A network leads where the layout leads.**  The joints of a survey that marks all roads of the
vehicle make a network in which each segment that the model accepts leads to the same segments at
the same costs as in the layout. -/
theorem leads_iff (hs : l.Accepts s) {n : Nat} :
    (l.network (Survey.ofFeatures maskOf l.bits l.features).joints).Leads s t n
      ↔ l.Leads s t n := by
  generalize hg : l.network (Survey.ofFeatures maskOf l.bits l.features).joints = g
  obtain ⟨p, hp⟩ := exists_endsAt hs true
  have hmark := mem_marks_of_endsAt hl hmask hp
  have hmeeting (q : RoadPoint) : q ∈ g.meeting (s.roadPoint true)
      ↔ (q, Cell.ofPoint l.bits p) ∈ Survey.marks maskOf l.bits l.features := by
    rw [← hg]
    exact Survey.mem_meeting_iff hl.distinct hl.indexable hfew _ hmark q
  constructor
  · rintro ⟨w, hstep, rfl⟩
    obtain ⟨q, hq, hat⟩ := Network.mem_steps_iff.mp hstep
    obtain ⟨f, hf, -, hid, point, hget, hcell⟩ :=
      (Survey.mem_marks_iff hl.indexable).mp ((hmeeting q).mp hq)
    obtain ⟨road, -, hturn, hweight, -⟩ := Network.mem_stepsAt_iff.mp hat
    rw [← hg] at hat
    obtain ⟨htravels, rfl⟩ :=
      travels_of_mem_stepsAt hl hf hid (List.getElem?_eq_some_iff.mp hget).1 hat
    refine ⟨⟨p, point, hp, ⟨f, hf, htravels.toAccepts, hget⟩, hcell.symm⟩, hturn, ?_⟩
    rw [costs_iff hl _ ⟨f, hf, htravels⟩, hg]
    exact congrArg UInt32.toNat hweight.symm
  · rintro ⟨⟨p', q, hp', hq, hcell⟩, hturn, hcost⟩
    have hmark' := mem_marks_of_endsAt hl hmask hp'
    have hsame := Survey.cell_unique hl.distinct hl.indexable hmark hmark'
    have hstart : t.roadPoint false ∈ g.meeting (s.roadPoint true) := by
      rw [hmeeting, hsame, hcell]
      exact mem_marks_of_endsAt hl hmask hq
    obtain ⟨f, hf, htravels⟩ := IsNode.of_costs hcost
    refine ⟨g.weight t, Network.mem_steps_iff.mpr ⟨_, hstart, ?_⟩, ?_⟩
    · rw [← hg]
      exact mem_stepsAt_of_travels hl hf htravels hturn
    · rw [← hg]
      exact (costs_iff hl _ ⟨f, hf, htravels⟩).mp hcost

/-- Ways from a segment that the model accepts are the same in the network and in the layout. -/
theorem way_iff (hs : l.Accepts s) {n : Nat} :
    Way (l.network (Survey.ofFeatures maskOf l.bits l.features).joints).Leads s t n
      ↔ Way l.Leads s t n :=
  Way.congr
    (fun _ _ _ ha hlead =>
      (IsNode.of_costs ((leads_iff hl hmask hfew ha).mp hlead).2.2).accepts)
    (fun _ _ _ ha => leads_iff hl hmask hfew ha) hs

theorem leastCost_iff (hs : l.Accepts s) {n : Nat} :
    LeastCost (l.network (Survey.ofFeatures maskOf l.bits l.features).joints).Leads s t n
      ↔ LeastCost l.Leads s t n := by
  rw [LeastCost, LeastCost]
  simp only [way_iff hl hmask hfew hs]

end Steps

end Layout

end Crossroads

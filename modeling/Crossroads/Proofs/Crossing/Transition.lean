import Crossroads.Crossing.Transition
import Crossroads.Proofs.Grid
import Mathlib.Data.List.Induction

/-!
# Transitions and their connectors

The lists of a connector depend on which segments are registered with it in which order, and on
nothing else.  So they do not change when the points of the transitions are snapped to the grid
(`Transition.sameEnds_connector`), and it makes no difference what is registered with other vehicles
in between: to register transitions as they are detected comes to the same as to register all of
them with one vehicle after another (`Detection.ofFeatures_connectors`).

What a connector lists and where its gates are follows from the transitions that a vehicle may use
(`Transition.mem_ends_connector`, `Transition.gate?_connector`); if no two of them are of the same
segment, the segments that cross are the ones that are listed
(`Transition.crosses_connector_iff`).  The transitions of a feature are those of its pairs of
neighbouring points on different sides of the border (`Transition.ofFeature_eq_crossings`).
-/

namespace Crossroads

/-! ## Lists of a connector -/

/-- The connectors have the same enters and the same exits. -/
def Connector.SameEnds (c c' : Connector) : Prop := c.enters = c'.enters ∧ c.exits = c'.exits

namespace Connector

theorem SameEnds.addEnd {c c' : Connector} (h : SameEnds c c') (inward : Bool) (s : Segment) :
    SameEnds (c.addEnd inward s) (c'.addEnd inward s) := by
  obtain ⟨henters, hexits⟩ := h
  cases inward with
  | false => exact ⟨henters, congrArg (register · s) hexits⟩
  | true => exact ⟨congrArg (register · s) henters, hexits⟩

/-- Registering adds to the lists what a gate's directions say, wherever the gate is. -/
theorem SameEnds.addGate {c c' : Connector} (h : SameEnds c c') (feature : FeatureId)
    (index : UInt32) {gate gate' : Gate} (hway : gate.oneWay = gate'.oneWay)
    (hinward : gate.inward = gate'.inward) :
    SameEnds (c.addGate feature index gate) (c'.addGate feature index gate') := by
  unfold Connector.addGate
  rw [← hway, ← hinward]
  cases gate.oneWay with
  | false => exact (h.addEnd _ _).addEnd _ _
  | true => exact h.addEnd _ _

theorem weights_addEnd (c : Connector) (inward : Bool) (s : Segment) :
    (c.addEnd inward s).weights = c.weights := by
  cases inward <;> rfl

theorem weights_addGate (c : Connector) (feature : FeatureId) (index : UInt32) (gate : Gate) :
    (c.addGate feature index gate).weights = c.weights := by
  unfold Connector.addGate
  cases gate.oneWay with
  | false =>
    show ((c.addEnd _ _).addEnd _ _).weights = c.weights
    rw [weights_addEnd, weights_addEnd]
  | true =>
    show (c.addEnd _ _).weights = c.weights
    rw [weights_addEnd]

end Connector

namespace Transition

/-- The transition between the points as they are stored. -/
def snapped (bits : Nat) (t : Transition) : Transition :=
  { t with back := t.back.snapped bits, front := t.front.snapped bits }

theorem sameEnds_register {c c' : Connector} (h : c.SameEnds c') (bits : Nat) (v : Vehicle)
    (t : Transition) : (register v c t).SameEnds (register v c' (t.snapped bits)) := by
  show (register v c t).SameEnds (if t.roadMask.contains v then
    c'.addGate t.feature t.index ((t.snapped bits).gate v) else c')
  unfold register
  split
  · exact h.addGate _ _ rfl rfl
  · exact h

/-- What a connector lists does not depend on the points of the transitions. -/
theorem sameEnds_connector (bits : Nat) (transitions : List Transition) (v : Vehicle) :
    (connector transitions v).SameEnds (connector (transitions.map (snapped bits)) v) := by
  have hfold : ∀ c c' : Connector, c.SameEnds c' → (transitions.foldl (register v) c).SameEnds
      ((transitions.map (snapped bits)).foldl (register v) c') := by
    induction transitions with
    | nil => exact fun _ _ h => h
    | cons t transitions ih => exact fun c c' h => ih _ _ (sameEnds_register h bits v t)
  exact hfold {} {} ⟨rfl, rfl⟩

/-- Registering leaves the table empty. -/
theorem weights_connector (transitions : List Transition) (v : Vehicle) :
    (connector transitions v).weights = [] := by
  have hfold : ∀ c : Connector, (transitions.foldl (register v) c).weights = c.weights := by
    induction transitions with
    | nil => exact fun _ => rfl
    | cons t transitions ih =>
      intro c
      rw [List.foldl_cons, ih, register]
      split
      · exact c.weights_addGate _ _ _
      · rfl
  exact hfold {}

end Transition

/-! ## What connectors list -/

/-- The segment is an enter or an exit. -/
def Connector.Lists (c : Connector) (s : Segment) : Prop := s ∈ c.enters ∨ s ∈ c.exits

/-- The list of the ways in, or of the ways out. -/
def Connector.ends (c : Connector) (inward : Bool) : List Segment :=
  if inward then c.enters else c.exits

namespace Connector

theorem mem_register {list : List Segment} {s t : Segment} :
    t ∈ register list s ↔ t ∈ list ∨ t = s := by
  rw [register]
  by_cases hlisted : s ∈ list
  · rw [if_pos hlisted]
    constructor
    · exact .inl
    · rintro (hold | rfl)
      · exact hold
      · exact hlisted
  · rw [if_neg hlisted, List.mem_append, List.mem_singleton]

theorem nodup_register {list : List Segment} (h : list.Nodup) (s : Segment) :
    (register list s).Nodup := by
  rw [register]
  by_cases hlisted : s ∈ list
  · rwa [if_pos hlisted]
  · rw [if_neg hlisted]
    simpa using h.concat hlisted

theorem ends_addEnd (c : Connector) (inward way : Bool) (s : Segment) :
    (c.addEnd inward s).ends way
      = if way = inward then register (c.ends way) s else c.ends way := by
  cases inward <;> cases way <;> rfl

theorem ends_addGate (c : Connector) (feature : FeatureId) (index : UInt32) (gate : Gate)
    (way : Bool) : (c.addGate feature index gate).ends way
      = if way = gate.inward then register (c.ends way) ⟨feature, index, true⟩
        else if gate.oneWay then c.ends way
        else register (c.ends way) ⟨feature, index, false⟩ := by
  obtain ⟨oneWay, inward, back, front⟩ := gate
  cases oneWay <;> cases inward <;> cases way <;> rfl

/-- A crossing lists its segment forward the way that the gate says, and backward the other way
round, unless the road is one-way. -/
theorem mem_ends_addGate {c : Connector} {feature : FeatureId} {index : UInt32} {gate : Gate}
    {way : Bool} {s : Segment} : s ∈ (c.addGate feature index gate).ends way ↔ s ∈ c.ends way ∨
      s.feature = feature ∧ s.index = index ∧ (s.forward = true ∨ gate.oneWay = false) ∧
        way = (s.forward == gate.inward) := by
  obtain ⟨f, i, forward⟩ := s
  rw [ends_addGate]
  by_cases hway : way = gate.inward
  · cases forward <;> simp [hway, mem_register]
  · cases gate.oneWay <;> cases forward <;> simp_all [mem_register, Bool.eq_not]

theorem gate?_addGate (c : Connector) (feature : FeatureId) (index : UInt32) (gate : Gate)
    (s : Segment) : (c.addGate feature index gate).gate? s
      = if s.feature = feature ∧ s.index = index then some gate else c.gate? s := by
  have hgates : (c.addGate feature index gate).gates = c.gates.insert (feature, index) gate := by
    obtain ⟨oneWay, inward, back, front⟩ := gate
    cases oneWay <;> cases inward <;> rfl
  rw [gate?, hgates, Std.HashMap.getElem?_insert]
  by_cases hwhere : s.feature = feature ∧ s.index = index
  · simp [hwhere]
  · have hkey : ¬ ((feature, index) == (s.feature, s.index)) = true := by
      rw [beq_iff_eq, Prod.mk.injEq]
      rintro ⟨hfeature, hindex⟩
      exact hwhere ⟨hfeature.symm, hindex.symm⟩
    rw [if_neg hkey, if_neg hwhere]
    rfl

end Connector

namespace Transition

/-- A vehicle may go along a segment that crosses the border, forward, or backward if the road is
open both ways. -/
structure Opens (t : Transition) (v : Vehicle) (s : Segment) : Prop where
  usable : t.roadMask.contains v = true
  feature : s.feature = t.feature
  index : s.index = t.index
  direction : s.forward = true ∨ t.oneWayMask.contains v = false

theorem connector_concat (transitions : List Transition) (t : Transition) (v : Vehicle) :
    connector (transitions ++ [t]) v = register v (connector transitions v) t := by
  rw [connector, List.foldl_append]
  rfl

/-- What a connector lists are the segments of transitions on roads that the vehicle may use. -/
theorem mem_ends_connector {transitions : List Transition} {v : Vehicle} {way : Bool} {s : Segment} :
    s ∈ (connector transitions v).ends way
      ↔ ∃ t ∈ transitions, t.Opens v s ∧ way = (s.forward == t.inward) := by
  induction transitions using List.reverseRecOn with
  | nil =>
    simp only [List.not_mem_nil, false_and, exists_false, iff_false]
    cases way <;> exact List.not_mem_nil
  | append_singleton transitions t ih =>
    simp only [List.mem_append, List.mem_singleton, or_and_right, exists_or, exists_eq_left, ← ih]
    rw [connector_concat, register]
    by_cases huse : t.roadMask.contains v = true
    · rw [if_pos huse, Connector.mem_ends_addGate]
      refine or_congr_right ⟨?_, ?_⟩
      · rintro ⟨hfeature, hindex, hdirection, hway⟩
        exact ⟨⟨huse, hfeature, hindex, hdirection⟩, hway⟩
      · rintro ⟨hopens, hway⟩
        exact ⟨hopens.feature, hopens.index, hopens.direction, hway⟩
    · rw [if_neg huse]
      refine (or_iff_left ?_).symm
      rintro ⟨hopens, -⟩
      exact huse hopens.usable

/-- No segment is listed twice. -/
theorem nodup_ends_connector (transitions : List Transition) (v : Vehicle) (way : Bool) :
    ((connector transitions v).ends way).Nodup := by
  induction transitions using List.reverseRecOn with
  | nil => cases way <;> exact List.nodup_nil
  | append_singleton transitions t ih =>
    rw [connector_concat, register]
    by_cases huse : t.roadMask.contains v = true
    · rw [if_pos huse, Connector.ends_addGate]
      split
      · exact Connector.nodup_register ih _
      · split
        · exact ih
        · exact Connector.nodup_register ih _
    · rwa [if_neg huse]

/-- No two transitions are of the same segment. -/
def Apart (transitions : List Transition) : Prop :=
  ∀ t ∈ transitions, ∀ t' ∈ transitions, t.feature = t'.feature → t.index = t'.index → t = t'

section Gates

variable {transitions : List Transition} {v : Vehicle} {s : Segment}

/-- The gate of a segment is the transition there. -/
theorem gate?_connector (h : Apart transitions) {gate : Gate} :
    (connector transitions v).gate? s = some gate ↔ ∃ t ∈ transitions,
      t.roadMask.contains v = true ∧ s.feature = t.feature ∧ s.index = t.index ∧ t.gate v = gate := by
  induction transitions using List.reverseRecOn with
  | nil =>
    simp [connector, Connector.gate?]
  | append_singleton transitions t ih =>
    have hbefore : Apart transitions := fun t₁ h₁ t₂ h₂ =>
      h t₁ (List.mem_append_left _ h₁) t₂ (List.mem_append_left _ h₂)
    have hlast : t ∈ transitions ++ [t] := List.mem_append_right _ (List.mem_singleton_self t)
    rw [connector_concat, register]
    by_cases hat : t.roadMask.contains v = true ∧ s.feature = t.feature ∧ s.index = t.index
    · obtain ⟨huse, hfeature, hindex⟩ := hat
      rw [if_pos huse, Connector.gate?_addGate, if_pos ⟨hfeature, hindex⟩, Option.some.injEq]
      constructor
      · exact fun hgate => ⟨t, hlast, huse, hfeature, hindex, hgate⟩
      · rintro ⟨t', ht', -, hfeature', hindex', hgate⟩
        rwa [h t hlast t' ht' (hfeature.symm.trans hfeature') (hindex.symm.trans hindex')]
    · have hgate : (if t.roadMask.contains v = true then
          (connector transitions v).addGate t.feature t.index (t.gate v)
          else connector transitions v).gate? s = (connector transitions v).gate? s := by
        by_cases huse : t.roadMask.contains v = true
        · rw [if_pos huse, Connector.gate?_addGate, if_neg fun hwhere => hat ⟨huse, hwhere⟩]
        · rw [if_neg huse]
      rw [hgate, ih hbefore]
      constructor
      · rintro ⟨t', ht', hrest⟩
        exact ⟨t', List.mem_append_left _ ht', hrest⟩
      · rintro ⟨t', ht', huse, hfeature, hindex, hgate⟩
        rcases List.mem_append.mp ht' with hold | hnew
        · exact ⟨t', hold, huse, hfeature, hindex, hgate⟩
        · rw [List.mem_singleton.mp hnew] at huse hfeature hindex
          exact absurd ⟨huse, hfeature, hindex⟩ hat

/-- The segments that cross the border inward or outward are those that are listed so. -/
theorem crosses_connector_iff (h : Apart transitions) {outgoing : Bool} :
    (connector transitions v).crosses s outgoing = true
      ↔ s ∈ (connector transitions v).ends (!outgoing) := by
  rw [mem_ends_connector, Connector.crosses]
  cases hgate : (connector transitions v).gate? s with
  | none =>
    simp only [Bool.false_eq_true, false_iff]
    rintro ⟨t, ht, hopens, -⟩
    have hfound := (gate?_connector h).mpr ⟨t, ht, hopens.usable, hopens.feature, hopens.index, rfl⟩
    rw [hgate] at hfound
    cases hfound
  | some gate =>
    obtain ⟨t, ht, huse, hfeature, hindex, rfl⟩ := (gate?_connector h).mp hgate
    simp only [gate, Bool.and_eq_true, Bool.or_eq_true, Bool.not_eq_true', beq_iff_eq]
    constructor
    · rintro ⟨hdirection, hway⟩
      exact ⟨t, ht, ⟨huse, hfeature, hindex, hdirection⟩, hway.symm⟩
    · rintro ⟨t', ht', hopens, hway⟩
      obtain rfl := h t ht t' ht' (hfeature.symm.trans hopens.feature)
        (hindex.symm.trans hopens.index)
      exact ⟨hopens.direction, hway.symm⟩

/-- The ends of a segment that crosses the border are those of the transition. -/
theorem gatePoint?_connector (h : Apart transitions) {t : Transition} (ht : t ∈ transitions)
    (hopens : t.Opens v s) (front : Bool) : (connector transitions v).gatePoint? s front
      = some (if s.forward == front then t.front else t.back) := by
  have hgate := (gate?_connector h).mpr ⟨t, ht, hopens.usable, hopens.feature, hopens.index, rfl⟩
  rw [Connector.gatePoint?, hgate]
  rfl

end Gates

/-- What a connector lists comes from a transition on a road that the vehicle may use. -/
theorem exists_of_lists {transitions : List Transition} {v : Vehicle} {s : Segment}
    (h : (connector transitions v).Lists s) : ∃ t ∈ transitions, t.Opens v s := by
  obtain ⟨way, hlisted⟩ : ∃ way, s ∈ (connector transitions v).ends way := by
    rcases h with henter | hexit
    · exact ⟨true, henter⟩
    · exact ⟨false, hexit⟩
  obtain ⟨t, ht, hopens, -⟩ := mem_ends_connector.mp hlisted
  exact ⟨t, ht, hopens⟩

/-! ## Transitions of features -/

section Features

variable (inside : Point Coordinate → Bool) (rules : Rules)

/-- The transition between points number `i` and `i + 1` of a feature. -/
def ofPair (f : Feature) (i : Nat) (back front : Point Coordinate) : Transition :=
  ⟨f.id, UInt32.ofNat i, rules.roadMask f, rules.oneWayMask f, inside front, back, front⟩

/-- The transitions of a feature that somebody may use: one for each two neighbouring points that lie
on different sides of the border. -/
def crossings (f : Feature) : List Transition :=
  if (rules.roadMask f).isEmpty then []
  else
    ((f.points.zip f.points.tail).zipIdx.filter fun ((back, front), _) =>
      inside back != inside front).map fun ((back, front), i) => ofPair inside rules f i back front

/-- The side that was last come to is that of the point before. -/
theorem along_eq (f : Feature) (i : Nat) (first : Point Coordinate)
    (rest : List (Point Coordinate)) :
    along inside f.id (rules.roadMask f) (rules.oneWayMask f) (inside first) i (first :: rest)
      = ((((first :: rest).zip rest).zipIdx i).filter fun ((back, front), _) =>
          inside back != inside front).map
            fun ((back, front), i) => ofPair inside rules f i back front := by
  induction rest generalizing i first with
  | nil => rfl
  | cons front rest ih =>
    rw [along, List.zip_cons_cons, List.zipIdx_cons, List.filter_cons]
    by_cases hsame : inside front = inside first
    · simp [hsame, ← ih]
    · simp only [beq_iff_eq, bne_iff_ne, ne_eq, hsame, Ne.symm hsame, not_false_eq_true, if_true,
        if_false, List.map_cons]
      exact congrArg (_ :: ·) (ih (i + 1) front)

theorem ofFeature_eq_crossings (f : Feature) : ofFeature inside rules f = crossings inside rules f := by
  rw [ofFeature, crossings]
  cases hpoints : f.points with
  | nil => rfl
  | cons first rest =>
    rw [List.head?_cons, List.tail_cons]
    exact congrArg (ite _ []) (along_eq inside rules f 0 first rest)

variable {inside rules} {features : List Feature} {t : Transition}

/-- A transition lies between two neighbouring points of a feature, on different sides of the border. -/
theorem mem_ofFeatures_iff : t ∈ ofFeatures inside rules features ↔
    ∃ f ∈ features, (rules.roadMask f).isEmpty = false ∧ ∃ i back front,
      f.points[i]? = some back ∧ f.points[i + 1]? = some front ∧ inside back ≠ inside front
        ∧ ofPair inside rules f i back front = t := by
  have hpair : ∀ f : Feature, t ∈ crossings inside rules f ↔
      (rules.roadMask f).isEmpty = false ∧ ∃ i back front, f.points[i]? = some back ∧
        f.points[i + 1]? = some front ∧ inside back ≠ inside front
          ∧ ofPair inside rules f i back front = t := by
    intro f
    rw [crossings]
    cases (rules.roadMask f).isEmpty with
    | true => simp
    | false =>
      simp only [Bool.false_eq_true, if_false, List.mem_map, List.mem_filter, Prod.exists,
        List.mem_zipIdx_iff_getElem?, List.getElem?_zip_eq_some, List.getElem?_tail, bne_iff_ne]
      constructor
      · rintro ⟨back, front, i, ⟨⟨hback, hfront⟩, hsides⟩, rfl⟩
        exact ⟨trivial, i, back, front, hback, hfront, hsides, rfl⟩
      · rintro ⟨-, i, back, front, hback, hfront, hsides, rfl⟩
        exact ⟨back, front, i, ⟨⟨hback, hfront⟩, hsides⟩, rfl⟩
  simp only [ofFeatures, List.mem_flatMap, ofFeature_eq_crossings, hpair]

end Features

end Transition

/-! ## Detecting -/

namespace Detection

/-- Registering with all vehicles registers with each. -/
theorem get_connectors_record (d : Detection) (t : Transition) (v : Vehicle) :
    (d.record t).connectors.get v = Transition.register v (d.connectors.get v) t := by
  unfold record
  simp only [Vehicle.all, List.foldl_cons, List.foldl_nil, PerVehicle.modify, PerVehicle.get_set]
  cases v <;> rfl

/-- The connectors of a detection are those of its transitions. -/
def Consistent (d : Detection) : Prop :=
  ∀ v, d.connectors.get v = Transition.connector d.transitions v

theorem Consistent.record {d : Detection} (h : d.Consistent) (t : Transition) :
    (d.record t).Consistent := by
  intro v
  rw [get_connectors_record, h v]
  show _ = Transition.connector (d.transitions ++ [t]) v
  unfold Transition.connector
  rw [List.foldl_append]
  rfl

theorem foldl_record (transitions : List Transition) {d : Detection} (h : d.Consistent) :
    (transitions.foldl Detection.record d).Consistent ∧
      (transitions.foldl Detection.record d).transitions = d.transitions ++ transitions := by
  induction transitions generalizing d with
  | nil => exact ⟨h, (List.append_nil _).symm⟩
  | cons t transitions ih =>
    obtain ⟨hconsistent, hlist⟩ := ih (h.record t)
    refine ⟨hconsistent, hlist.trans ?_⟩
    show (d.transitions ++ [t]) ++ transitions = _
    rw [List.append_assoc, List.singleton_append]

variable (inside : Point Coordinate → Bool) (rules : Rules) (features : List Feature)

theorem foldl_add {d : Detection} (h : d.Consistent) :
    (features.foldl (add inside rules) d).Consistent ∧
      (features.foldl (add inside rules) d).transitions
        = d.transitions ++ Transition.ofFeatures inside rules features := by
  induction features generalizing d with
  | nil => exact ⟨h, (List.append_nil _).symm⟩
  | cons f features ih =>
    obtain ⟨hadd, hfirst⟩ := foldl_record (Transition.ofFeature inside rules f) h
    obtain ⟨hconsistent, hlist⟩ := ih hadd
    refine ⟨hconsistent, hlist.trans ?_⟩
    show (List.foldl record d _).transitions ++ _ = _
    rw [hfirst, List.append_assoc]
    rfl

/-- The detected transitions are those of the features, in order. -/
theorem ofFeatures_transitions :
    (ofFeatures inside rules features).transitions
      = Transition.ofFeatures inside rules features := by
  have hstart : Consistent {} := fun v => by cases v <;> rfl
  exact (foldl_add inside rules features hstart).2

/-- Each connector is the one that all detected transitions make for its vehicle. -/
theorem ofFeatures_connectors (v : Vehicle) :
    (ofFeatures inside rules features).connectors.get v
      = Transition.connector (Transition.ofFeatures inside rules features) v := by
  have hstart : Consistent {} := fun v => by cases v <;> rfl
  rw [← ofFeatures_transitions]
  exact (foldl_add inside rules features hstart).1 v

end Detection

end Crossroads

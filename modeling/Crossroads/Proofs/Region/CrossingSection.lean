import Crossroads.Region.CrossingSection
import Crossroads.Proofs.Crossing.Transition
import Crossroads.Proofs.Region.Coding
import Crossroads.Proofs.Region.RoutingSection

/-!
# Crossing sections read back
-/

namespace Crossroads

/-- The lists are no longer than what can be counted, and the table is empty or of the right size. -/
structure Connector.WellFormed (c : Connector) : Prop where
  enters : c.enters.length < UInt64.size
  exits : c.exits.length < UInt64.size
  table : c.weights = [] ∨ c.weights.length = c.enters.length * c.exits.length

namespace CrossingSection

open Decoder (Reads)

/-! ## Transitions -/

theorem reads_transition {coding : Coding} (h : Coding.allows coding.bits.toNat = true)
    (t : Transition) :
    Reads (decodeTransition coding) (encodeTransition coding t)
      (t.snapped coding.bits.toNat) := by
  have hbytes : encodeTransition coding t
      = Varint.encode t.feature.toNat ++ (Varint.encode t.index.toNat ++ ([t.roadMask.bits]
        ++ ([t.oneWayMask.bits] ++ ([encodeFlag t.inward]
        ++ (coding.encodePoint t.back ++ coding.encodePoint t.front))))) := by
    simp [encodeTransition]
  rw [hbytes]
  refine (Decoder.reads_number32 label t.feature).bind ?_
  refine (Decoder.reads_number32 label t.index).bind ?_
  refine (RoutingSection.reads_mask label t.roadMask).bind ?_
  refine (RoutingSection.reads_mask label t.oneWayMask).bind ?_
  refine (Decoder.reads_flag label t.inward).bind ?_
  refine (Coding.reads_point h label t.back).bind ?_
  exact (Coding.reads_point h label t.front).bind_pure rfl

/-! ## Segments and weights -/

theorem reads_segment (s : Segment) : Reads decodeSegment (encodeSegment s) s := by
  have hindex := s.index.toNat_lt
  generalize hpacked : (2 * s.index.toNat + if s.forward then 1 else 0) = packed
  have hhalf : packed / 2 = s.index.toNat := by
    rw [← hpacked]
    split <;> omega
  have hbit : (packed % 2 == 1) = s.forward := by
    rw [← hpacked]
    cases s.forward
    · simp
    · simp
  have hlt : packed < UInt64.size := by
    have hsize : UInt64.size = 18446744073709551616 := rfl
    omega
  have hword : ¬ UInt32.size ≤ packed / 2 := by
    have hsize : UInt32.size = 4294967296 := rfl
    omega
  unfold encodeSegment
  rw [hpacked]
  refine (Decoder.reads_number32 label s.feature).bind ?_
  refine (Decoder.reads_number_nat label hlt).bind_pure ?_
  rw [UInt64.toNat_ofNat_of_lt' hlt, if_neg hword, hhalf, hbit, UInt32.ofNat_toNat]

theorem length_encodeSegment_pos (s : Segment) : 0 < (encodeSegment s).length := by
  have hpos := Decoder.length_encode_pos s.feature.toNat
  rw [encodeSegment, List.length_append]
  omega

theorem reads_segments {segments : List Segment} (h : segments.length < UInt64.size) :
    Reads decodeSegments (encodeSegments segments) segments := by
  have hread : Reads decodeSegments (encodeSegments segments) (segments.map id) :=
    Reads.counted label segments h (fun s _ => length_encodeSegment_pos s)
      (fun s _ => reads_segment s)
  rwa [List.map_id] at hread

theorem reads_weight (w : Weight) : Reads decodeWeight (encodeWeight w) w := by
  have hsize : UInt64.size = 18446744073709551616 := rfl
  have hword : UInt32.size = 4294967296 := rfl
  have hnone : Weight.none.toNat = 4294967295 := rfl
  unfold encodeWeight
  by_cases hw : w = Weight.none
  · subst hw
    rw [if_pos rfl]
    exact (Decoder.reads_number_nat label (by omega)).bind_pure rfl
  · have hlt : w.toNat < Weight.none.toNat := by
      have hne : w.toNat ≠ Weight.none.toNat := fun heq => hw (UInt32.toNat_inj.mp heq)
      have hbound := w.toNat_lt
      omega
    rw [if_neg hw]
    refine (Decoder.reads_number_nat label (n := w.toNat + 1) (by omega)).bind_pure ?_
    rw [UInt64.toNat_ofNat_of_lt' (by omega), if_neg (Nat.succ_ne_zero _), if_pos (by omega),
      Nat.add_sub_cancel, UInt32.ofNat_toNat]

/-! ## Connectors -/

section Connectors

variable (transitions : List Transition) (v : Vehicle) {c : Connector}

/-- A connector reads back if its lists are those of the transitions. -/
theorem reads_connector (h : c.WellFormed)
    (hends : c.SameEnds (Transition.connector transitions v)) :
    Reads (decodeConnector transitions v) (encodeConnector c)
      { Transition.connector transitions v with weights := c.weights } := by
  unfold encodeConnector decodeConnector
  rw [List.append_assoc, List.append_assoc]
  refine (reads_segments h.enters).bind ((reads_segments h.exits).bind ?_)
  rw [if_neg (by simp [hends.1, hends.2])]
  refine (Decoder.reads_flag label c.hasWeights).bind ?_
  cases hweights : c.hasWeights with
  | false =>
    have hnil : c.weights = [] := by simpa [Connector.hasWeights] using hweights
    have hkeep : { Transition.connector transitions v with weights := c.weights }
        = Transition.connector transitions v := by
      rw [hnil, ← Transition.weights_connector transitions v]
    rw [if_neg Bool.false_ne_true, hkeep, hnil]
    exact .pure _
  | true =>
    have hlength : c.weights.length = c.enters.length * c.exits.length := by
      rcases h.table with hnil | hlength
      · simp [Connector.hasWeights, hnil] at hweights
      · exact hlength
    have hread : Reads (decodeWeight.times c.weights.length) (c.weights.flatMap encodeWeight)
        (c.weights.map id) := Reads.times c.weights fun w _ => reads_weight w
    rw [List.map_id] at hread
    rw [if_pos rfl, ← hlength]
    refine hread.bind_pure ?_
    rw [Connector.install?, if_pos (by rw [hlength, hends.1, hends.2])]

/-- A connector whose lists are not those of the transitions is refused. -/
theorem refuses_connector (h : c.WellFormed)
    (hends : ¬ c.SameEnds (Transition.connector transitions v)) (rest : Bytes) :
    ∃ left, Decoder.runOn (decodeConnector transitions v) (encodeConnector c ++ rest)
      = (.error (.connectorMismatch v), left) := by
  unfold encodeConnector decodeConnector
  rw [List.append_assoc, List.append_assoc, List.append_assoc]
  rw [Decoder.runOn_bind_ok (reads_segments h.enters _),
    Decoder.runOn_bind_ok (reads_segments h.exits _), if_pos]
  · exact ⟨_, rfl⟩
  · by_contra hsame
    push Not at hsame
    exact hends hsame

end Connectors

/-- A table takes at most five octets for each weight. -/
theorem length_encodeConnector_le (c : Connector) (table : List Weight) :
    (encodeConnector { c with weights := table }).length
      ≤ (encodeConnector c).length + 5 * table.length := by
  have hweight : ∀ w : Weight, (encodeWeight w).length ≤ 5 := by
    intro w
    refine Decoder.length_encode_le (Nat.lt_of_le_of_lt ?_ (by decide : UInt32.size < 128 ^ 5))
    split
    · exact Nat.zero_le _
    · exact w.toNat_lt
  have htable : (table.flatMap encodeWeight).length ≤ 5 * table.length := by
    induction table with
    | nil => exact Nat.le_refl _
    | cons w table ih =>
      have hw := hweight w
      rw [List.flatMap_cons, List.length_append, List.length_cons]
      omega
  simp only [encodeConnector, List.length_append, List.length_singleton]
  omega

/-! ## Sections -/

/-- The precision is allowed, and all lists are such that they can be stored. -/
structure WellFormed (s : CrossingSection) : Prop where
  precision : Coding.allows s.coding.bits.toNat = true
  transitions : s.transitions.length < UInt64.size
  connectors : ∀ v, (s.connectors.get v).WellFormed

/-- The lists of all connectors are those of the transitions. -/
def Consistent (s : CrossingSection) : Prop :=
  ∀ v, (s.connectors.get v).SameEnds (Transition.connector s.transitions v)

/-- What is read back of a section: its transitions are snapped to the grid, and the rest of a
connector follows from them. -/
def snapped (s : CrossingSection) : CrossingSection where
  coding := s.coding
  transitions := s.transitions.map (Transition.snapped s.coding.bits.toNat)
  connectors := .ofFn fun v =>
    { Transition.connector (s.transitions.map (Transition.snapped s.coding.bits.toNat)) v with
      weights := (s.connectors.get v).weights }

theorem length_encodeTransition_pos (coding : Coding) (t : Transition) :
    0 < (encodeTransition coding t).length := by
  have hpos := Decoder.length_encode_pos t.feature.toNat
  simp only [encodeTransition, List.length_append]
  omega

theorem reads_transitions {s : CrossingSection} (h : s.WellFormed) :
    Reads (do Decoder.times (decodeTransition s.coding) (← Decoder.count label))
      (Varint.encode s.transitions.length
        ++ s.transitions.flatMap (encodeTransition s.coding)) s.snapped.transitions :=
  Reads.counted label s.transitions h.transitions
    (fun t _ => length_encodeTransition_pos s.coding t) (fun t _ => reads_transition h.precision t)

theorem sameEnds_snapped {s : CrossingSection} (v : Vehicle) :
    (s.connectors.get v).SameEnds (Transition.connector s.snapped.transitions v) ↔
      (s.connectors.get v).SameEnds (Transition.connector s.transitions v) := by
  obtain ⟨henters, hexits⟩ := Transition.sameEnds_connector s.coding.bits.toNat s.transitions v
  have hlist : s.snapped.transitions
      = s.transitions.map (Transition.snapped s.coding.bits.toNat) := rfl
  unfold Connector.SameEnds
  rw [hlist, ← henters, ← hexits]

theorem reads_connectors {s : CrossingSection} (h : s.WellFormed) (v : Vehicle)
    (hends : (s.connectors.get v).SameEnds (Transition.connector s.transitions v)) :
    Reads (decodeConnector s.snapped.transitions v) (encodeConnector (s.connectors.get v))
      (s.snapped.connectors.get v) := by
  have hread := reads_connector s.snapped.transitions v (h.connectors v)
    ((sameEnds_snapped v).mpr hends)
  rwa [snapped, PerVehicle.get_ofFn]

theorem encode_eq (s : CrossingSection) :
    s.encode = s.coding.encode ++ ((Varint.encode s.transitions.length
      ++ s.transitions.flatMap (encodeTransition s.coding))
      ++ (encodeConnector (s.connectors.get .pedestrian)
      ++ (encodeConnector (s.connectors.get .bicycle)
      ++ encodeConnector (s.connectors.get .car)))) := by
  simp [encode, PerVehicle.toList, Vehicle.all]

theorem length_encode_le (s : CrossingSection) (table : List Weight) :
    ({ s with connectors := { s.connectors with
      car := { s.connectors.car with weights := table } } } : CrossingSection).encode.length
      ≤ s.encode.length + 5 * table.length := by
  have hcar := length_encodeConnector_le s.connectors.car table
  rw [encode_eq, encode_eq]
  simp only [List.length_append, PerVehicle.get]
  omega

/-- A section that takes no more octets than can be counted is well-formed. -/
theorem wellFormed_of_length_lt {s : CrossingSection}
    (hprecision : Coding.allows s.coding.bits.toNat = true)
    (htable : ∀ v, (s.connectors.get v).weights = [] ∨ (s.connectors.get v).weights.length
      = (s.connectors.get v).enters.length * (s.connectors.get v).exits.length)
    (h : s.encode.length < UInt64.size) : s.WellFormed := by
  have htransitions := Decoder.length_le_length_flatMap s.transitions
    fun t _ => length_encodeTransition_pos s.coding t
  have hconnector : ∀ c : Connector, c.enters.length ≤ (encodeConnector c).length
      ∧ c.exits.length ≤ (encodeConnector c).length := by
    intro c
    have henters := Decoder.length_le_length_flatMap c.enters fun s _ => length_encodeSegment_pos s
    have hexits := Decoder.length_le_length_flatMap c.exits fun s _ => length_encodeSegment_pos s
    simp only [encodeConnector, encodeSegments, List.length_append]
    omega
  rw [encode_eq] at h
  simp only [List.length_append] at h
  have hlists : ∀ v, (encodeConnector (s.connectors.get v)).length < UInt64.size := by
    intro v
    cases v <;> omega
  refine ⟨hprecision, by omega, fun v => ⟨?_, ?_, htable v⟩⟩
  · exact Nat.lt_of_le_of_lt (hconnector _).1 (hlists v)
  · exact Nat.lt_of_le_of_lt (hconnector _).2 (hlists v)

/-- A section reads back snapped if the lists of its connectors are those of its transitions. -/
theorem decode_encode_of_consistent {s : CrossingSection} (h : s.WellFormed)
    (hends : s.Consistent) : decode s.encode = .ok s.snapped := by
  apply Decoder.readAll_eq_ok
  rw [encode_eq]
  unfold decoder
  refine (Coding.reads_encode h.precision label).bind ?_
  rw [← bind_assoc]
  refine (reads_transitions h).bind ?_
  refine (reads_connectors h .pedestrian (hends _)).bind ?_
  refine (reads_connectors h .bicycle (hends _)).bind ?_
  exact (reads_connectors h .car (hends _)).bind_pure rfl

/-- Any other section is refused for the first vehicle whose lists differ. -/
theorem decode_encode_of_not_consistent {s : CrossingSection} (h : s.WellFormed)
    (hends : ¬ s.Consistent) : ∃ v, decode s.encode = .error (.connectorMismatch v) := by
  have hrefuse : ∀ v, ¬ (s.connectors.get v).SameEnds (Transition.connector s.transitions v) →
      ∀ rest, ∃ left, Decoder.runOn (decodeConnector s.snapped.transitions v)
        (encodeConnector (s.connectors.get v) ++ rest) = (.error (.connectorMismatch v), left) :=
    fun v hv => refuses_connector _ v (h.connectors v) fun hsame => hv ((sameEnds_snapped v).mp hsame)
  suffices hrun : ∃ v left, Decoder.runOn decoder s.encode = (.error (.connectorMismatch v), left) by
    obtain ⟨v, left, hrun⟩ := hrun
    exact ⟨v, Decoder.readAll_eq_error hrun⟩
  rw [encode_eq]
  unfold decoder
  rw [Decoder.runOn_bind_ok (Coding.reads_encode h.precision label _), ← bind_assoc,
    Decoder.runOn_bind_ok (reads_transitions h _)]
  by_cases hpedestrian : (s.connectors.get .pedestrian).SameEnds
      (Transition.connector s.transitions .pedestrian)
  · rw [Decoder.runOn_bind_ok (reads_connectors h .pedestrian hpedestrian _)]
    by_cases hbicycle : (s.connectors.get .bicycle).SameEnds
        (Transition.connector s.transitions .bicycle)
    · rw [Decoder.runOn_bind_ok (reads_connectors h .bicycle hbicycle _)]
      have hcar : ¬ (s.connectors.get .car).SameEnds (Transition.connector s.transitions .car) := by
        intro hcar
        exact hends fun v => by cases v <;> assumption
      obtain ⟨left, hleft⟩ := hrefuse .car hcar []
      rw [List.append_nil] at hleft
      exact ⟨.car, left, Decoder.runOn_bind_error hleft⟩
    · obtain ⟨left, hleft⟩ := hrefuse .bicycle hbicycle _
      exact ⟨.bicycle, left, Decoder.runOn_bind_error hleft⟩
  · obtain ⟨left, hleft⟩ := hrefuse .pedestrian hpedestrian _
    exact ⟨.pedestrian, left, Decoder.runOn_bind_error hleft⟩

/-! ## Detected sections -/

/-- The connectors that are detected, with tables filled in or not, are those of the transitions. -/
theorem consistent_of_detected {s : CrossingSection} (inside : Point Coordinate → Bool)
    (rules : Rules) (features : List Feature)
    (htransitions : s.transitions = (Detection.ofFeatures inside rules features).transitions)
    (hconnectors : ∀ v, ∃ table, s.connectors.get v
      = { (Detection.ofFeatures inside rules features).connectors.get v with weights := table }) :
    s.Consistent := by
  intro v
  obtain ⟨table, htable⟩ := hconnectors v
  rw [htransitions, htable, Detection.ofFeatures_connectors, Detection.ofFeatures_transitions]
  exact ⟨rfl, rfl⟩

/-- **Crossing sections read back.**  A section that can be stored is read back just when the lists
of its connectors are those that its transitions register.  What is read back is the section with
the points of its transitions snapped to the grid.  A section that was detected in the features of a
region is always read back, whatever tables are installed. -/
theorem round_trip_iff_consistent (s : CrossingSection)
    (hprecision : 1 ≤ s.coding.bits.toNat ∧ s.coding.bits.toNat ≤ 32)
    (htables : ∀ v, (s.connectors.get v).weights = [] ∨ (s.connectors.get v).weights.length
      = (s.connectors.get v).enters.length * (s.connectors.get v).exits.length)
    (hsizes : s.transitions.length < UInt64.size ∧ ∀ v,
      (s.connectors.get v).enters.length < UInt64.size ∧
        (s.connectors.get v).exits.length < UInt64.size) :
    ((∃ t, decode s.encode = .ok t) ↔ ∀ v,
      (s.connectors.get v).enters = (Transition.connector s.transitions v).enters ∧
        (s.connectors.get v).exits = (Transition.connector s.transitions v).exits) ∧
    (∀ t, decode s.encode = .ok t → t.coding = s.coding ∧
      t.transitions = s.transitions.map (Transition.snapped s.coding.bits.toNat) ∧ ∀ v,
        (t.connectors.get v).enters = (s.connectors.get v).enters ∧
        (t.connectors.get v).exits = (s.connectors.get v).exits ∧
        (t.connectors.get v).weights = (s.connectors.get v).weights ∧
        (t.connectors.get v).hasWeights = (s.connectors.get v).hasWeights) ∧
    ∀ inside rules features,
      s.transitions = (Detection.ofFeatures inside rules features).transitions →
      (∀ v, s.connectors.get v = (Detection.ofFeatures inside rules features).connectors.get v ∨
        ∃ table, ((Detection.ofFeatures inside rules features).connectors.get v).install? table
          = some (s.connectors.get v)) →
      ∃ t, decode s.encode = .ok t := by
  have hstored : s.WellFormed := ⟨Coding.allows_iff.mpr hprecision, hsizes.1,
    fun v => ⟨(hsizes.2 v).1, (hsizes.2 v).2, htables v⟩⟩
  have hiff : (∃ t, decode s.encode = .ok t) ↔ s.Consistent := by
    constructor
    · rintro ⟨t, ht⟩
      by_contra hends
      obtain ⟨v, hv⟩ := decode_encode_of_not_consistent hstored hends
      rw [hv] at ht
      cases ht
    · exact fun hends => ⟨_, decode_encode_of_consistent hstored hends⟩
  refine ⟨hiff, ?_, ?_⟩
  · intro t ht
    have hends := hiff.mp ⟨t, ht⟩
    rw [decode_encode_of_consistent hstored hends] at ht
    obtain rfl := Except.ok.inj ht
    refine ⟨rfl, rfl, ?_⟩
    intro v
    obtain ⟨henters, hexits⟩ := (sameEnds_snapped v).mpr (hends v)
    have hweights : (s.snapped.connectors.get v).weights = (s.connectors.get v).weights := by
      rw [snapped, PerVehicle.get_ofFn]
    refine ⟨?_, ?_, hweights, by rw [Connector.hasWeights, hweights, Connector.hasWeights]⟩
    · rw [henters, snapped, PerVehicle.get_ofFn]
    · rw [hexits, snapped, PerVehicle.get_ofFn]
  · intro inside rules features htransitions hconnectors
    refine hiff.mpr (consistent_of_detected inside rules features htransitions ?_)
    intro v
    rcases hconnectors v with hsame | ⟨table, htable⟩
    · exact ⟨_, hsame⟩
    · unfold Connector.install? at htable
      split at htable
      · exact ⟨table, (Option.some.inj htable).symm⟩
      · cases htable

/-- A section with one transition that every vehicle may use, and one leap for each. -/
def sample : CrossingSection :=
  let t : Transition := ⟨7, 0, .all, .none, true, ⟨0.0, 0.0⟩, ⟨1.0, 0.5⟩⟩
  ⟨⟨30, ⟨0, 0⟩⟩, [t], .ofFn fun v => { Transition.connector [t] v with weights := [5] }⟩

theorem sample_reads_back : ∃ t, decode sample.encode = .ok t :=
  (round_trip_iff_consistent sample (by decide) (fun v => by cases v <;> exact .inr rfl)
    ⟨by decide, fun v => by cases v <;> decide⟩).1.mpr fun v => by cases v <;> exact ⟨rfl, rfl⟩

end CrossingSection

end Crossroads

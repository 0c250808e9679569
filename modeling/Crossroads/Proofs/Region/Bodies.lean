import Crossroads.Proofs.Region.CrossingSection

/-!
# Bodies end where they end

The sections of a region are stored without their lengths: what is read first says how much is to be
read after it, down to the octets of each number.  Every decoder is steady, though a count looks at
all the bytes that follow it.  So no body is the beginning of another one (`bodies_selfDelimiting`),
be it a header, a routing section or a crossing section.
-/

namespace Crossroads

open Decoder (Steady SelfDelimiting)

/-! ## Headers and points -/

namespace Coding

theorem steady_decode (what : String) : Steady (decode what) := by
  refine (Decoder.steady_octet what).bind fun bits => ?_
  split
  · exact (Decoder.steady_number32 what).bind fun x =>
      (Decoder.steady_number32 what).bind fun y => .pure _
  · exact .throw _

theorem steady_axis (what : String) (bits : Nat) (base : UInt32) :
    Steady (decodeAxis what bits base) := by
  refine (Decoder.steady_number what).bind fun difference => ?_
  split
  · exact .pure _
  · exact .throw _

theorem steady_point (c : Coding) (what : String) : Steady (c.decodePoint what) := by
  have hcell : Steady (c.decodeCell what) :=
    (steady_axis what _ _).bind fun x => (steady_axis what _ _).bind fun y => .pure _
  exact hcell.bind fun cell => .pure _

end Coding

/-! ## Routing sections -/

namespace RoutingSection

theorem steady_mask (what : String) : Steady (decodeMask what) := by
  refine (Decoder.steady_octet what).bind fun bits => ?_
  split
  · exact .pure _
  · exact .throw _

theorem steady_masks (n : Nat) : ∀ (first : Bool) (last : FeatureId) (table : MaskTable),
    Steady (decodeMasks first last table n) := by
  induction n with
  | zero => exact fun _ _ table => .pure table
  | succ n ih =>
    intro first last table
    refine (Decoder.steady_number32 label).bind fun difference => ?_
    refine Decoder.steady_guarded _ (Decoder.steady_guarded _ ?_)
    exact (steady_mask label).bind fun mask => ih _ _ _

theorem steady_joint : Steady decodeJoint := by
  have hpoint : Steady decodePoint :=
    (Decoder.steady_number32 label).bind fun feature =>
      (Decoder.steady_number32 label).bind fun index => .pure _
  exact hpoint.counted label

theorem steady_decoder : Steady decoder := by
  refine (Decoder.steady_count label).bind fun count => ?_
  refine (steady_masks count true 0 ∅).bind fun masks => ?_
  refine (Decoder.steady_count label).bind fun count => ?_
  exact (steady_joint.times count).bind fun joints => .pure _

end RoutingSection

/-! ## Crossing sections -/

namespace CrossingSection

theorem steady_transition (coding : Coding) : Steady (decodeTransition coding) :=
  (Decoder.steady_number32 label).bind fun _ =>
    (Decoder.steady_number32 label).bind fun _ =>
    (RoutingSection.steady_mask label).bind fun _ =>
    (RoutingSection.steady_mask label).bind fun _ =>
    (Decoder.steady_flag label).bind fun _ =>
    (coding.steady_point label).bind fun _ =>
    (coding.steady_point label).bind fun _ => .pure _

theorem steady_segments : Steady decodeSegments := by
  have hsegment : Steady decodeSegment := by
    refine (Decoder.steady_number32 label).bind fun feature => ?_
    refine (Decoder.steady_number label).bind fun packed => ?_
    exact Decoder.steady_guarded _ (.pure _)
  exact hsegment.counted label

theorem steady_weight : Steady decodeWeight := by
  refine (Decoder.steady_number label).bind fun stored => ?_
  dsimp only
  split
  · exact .pure _
  · split
    · exact .pure _
    · exact .throw _

theorem steady_connector (transitions : List Transition) (v : Vehicle) :
    Steady (decodeConnector transitions v) := by
  refine steady_segments.bind fun enters => ?_
  refine steady_segments.bind fun exits => ?_
  refine Decoder.steady_guarded _ ((Decoder.steady_flag label).bind fun weighted => ?_)
  split
  · refine (steady_weight.times _).bind fun weights => ?_
    split
    · exact .pure _
    · exact .throw _
  · exact .pure _

theorem steady_decoder : Steady decoder := by
  refine (Coding.steady_decode label).bind fun coding => ?_
  refine (Decoder.steady_count label).bind fun count => ?_
  refine ((steady_transition coding).times count).bind fun transitions => ?_
  refine (steady_connector transitions _).bind fun pedestrian => ?_
  refine (steady_connector transitions _).bind fun bicycle => ?_
  exact (steady_connector transitions _).bind fun car => .pure _

end CrossingSection

/-! ## Whole bodies -/

/-- **No body is the beginning of another one.**  A body that is accepted, whoever wrote it, is
refused when it is cut short anywhere, and when anything is added to it.  The bodies that are written
are among those that are accepted. -/
theorem bodies_selfDelimiting :
    (SelfDelimiting RoutingSection.label RoutingSection.decode ∧
      ∀ s : RoutingSection, s.WellFormed → RoutingSection.decode s.encode = .ok s) ∧
    (SelfDelimiting CrossingSection.label CrossingSection.decode ∧
      ∀ s : CrossingSection, s.WellFormed → s.Consistent →
        CrossingSection.decode s.encode = .ok s.snapped) ∧
    SelfDelimiting "header section" Coding.decodeAll ∧
      ∀ c : Coding, Coding.allows c.bits.toNat = true → Coding.decodeAll c.encode = .ok c := by
  refine ⟨⟨RoutingSection.steady_decoder.selfDelimiting _, ?_⟩,
    ⟨CrossingSection.steady_decoder.selfDelimiting _, ?_⟩,
    (Coding.steady_decode _).selfDelimiting _, ?_⟩
  · exact fun s h => RoutingSection.decode_encode h
  · exact fun s h hends => CrossingSection.decode_encode_of_consistent h hends
  · exact fun c h => Decoder.readAll_eq_ok (Coding.reads_encode h _)

namespace CrossingSection

/-- A section is refused without the last octet of its last table, and with one more octet. -/
theorem sample_cut_short :
    decode sample.encode = .ok sample.snapped ∧
      (∃ damage, decode sample.encode.dropLast = .error damage) ∧
      decode (sample.encode ++ [0]) = .error (.trailing label 1) := by
  obtain ⟨-, ⟨⟨hcut, hgoesOn⟩, haccepts⟩, -⟩ := bodies_selfDelimiting
  have hread : decode sample.encode = .ok sample.snapped := by
    refine haccepts sample ⟨by decide, by decide, ?_⟩ ?_
    · intro v
      cases v <;> exact ⟨by decide, by decide, .inr rfl⟩
    · intro v
      cases v <;> exact ⟨rfl, rfl⟩
  have hne : sample.encode ≠ [] := List.cons_ne_nil _ _
  refine ⟨hread, hcut _ [sample.encode.getLast hne] sample.snapped (List.cons_ne_nil _ _) ?_,
    hgoesOn _ _ _ (List.cons_ne_nil _ _) hread⟩
  rwa [List.dropLast_append_getLast]

end CrossingSection

end Crossroads

import Crossroads.Proofs.Crossing.Leap
import Crossroads.Proofs.Graph.Layout
import Crossroads.Proofs.Graph.Pace
import Crossroads.Proofs.Region.Build
import Crossroads.Proofs.Vehicle

/-!
# Leaps of a region

A region that has been created and given its routing and its crossing section says for every two
places where cars come in and go out what the way between them costs.  Those costs go through a
header, a list of joints, a network, sweeps of it and a table; in the end they are the least costs of
ways in the layout of the features (`Build.leaps_leastCost`).
-/

namespace Crossroads

namespace Build

open OnDisk (runOn)

/-! ## What is loaded -/

section Loaded

variable {models : PerVehicle Model} {features : List Feature}

/-- The layout of the roads that cars see. -/
def carLayout (models : PerVehicle Model) (features : List Feature) (bits : Nat) : Layout :=
  ⟨models.car, features, bits⟩

/-- The network of cars with the joints of the routing section. -/
def builtNetwork (models : PerVehicle Model) (features : List Feature) (bits : Nat) : Network :=
  carNetwork models.car features (routingSection (.ofModels models) bits features).joints

theorem isEmpty_roadMask (f : Feature) (h : models.car.isRoad f = true) :
    ((Rules.ofModels models).roadMask f).isEmpty = false := by
  have hcar : ((Rules.ofModels models).roadMask f).contains .car = true := by
    rw [Rules.ofModels, Mask.contains_ofPred]
    exact h
  exact Mask.isEmpty_of_contains hcar

/-- The segments by which cars cross the border are accepted by their model. -/
theorem accepts_of_lists (hindexable : Survey.Indexable features) (bits : Nat)
    {inside : Point Coordinate → Bool} {s : Segment} (h : (Transition.connector
      (Transition.ofFeatures inside (.ofModels models) features) .car).Lists s) :
    (carLayout models features bits).Accepts s := by
  obtain ⟨t, ht, huse, hfeature, hindex, hway⟩ := Transition.exists_of_lists h
  obtain ⟨f, hf, -, i, back, front, -, hfront, -, rfl⟩ := Transition.mem_ofFeatures_iff.mp ht
  have hisRoad : models.car.isRoad f = true := by
    rw [Transition.ofPair, Rules.ofModels, Mask.contains_ofPred] at huse
    exact huse
  have hlength := hindexable f hf
  have hlt := (List.getElem?_eq_some_iff.mp hfront).1
  have hnat : s.index.toNat = i := by
    rw [hindex]
    exact UInt32.toNat_ofNat_of_lt' (by omega)
  refine ⟨f, hf, hfeature.symm, hisRoad, ?_, ?_⟩
  · rw [hnat]
    exact hlt
  · rw [Transition.ofPair, Rules.ofModels, Mask.contains_ofPred] at hway
    exact hway

/-- Cars that have a speed on each of their roads can travel what their model accepts. -/
theorem isNode_of_accepts (hpositive : models.car.maxSpeed > 0.0) (hpaced : models.car.Paced)
    {bits : Nat} {s : Segment} (h : (carLayout models features bits).Accepts s) :
    (carLayout models features bits).IsNode s := by
  obtain ⟨f, hf, haccepts⟩ := h
  exact ⟨f, hf, haccepts, hpaced hpositive f haccepts.isRoad⟩

/-- A swept section reads back snapped if it is not too long. -/
theorem decode_swept (queue : Frontier) (coding : Coding)
    (hbits : Coding.allows coding.bits.toNat = true) (inside : Point Coordinate → Bool)
    (rules : Rules) (network : Network)
    (h : (sweptSection queue coding (Detection.ofFeatures inside rules features) network).encode.length
      < UInt64.size) :
    CrossingSection.decode
        (sweptSection queue coding (Detection.ofFeatures inside rules features) network).encode
      = .ok (sweptSection queue coding
          (Detection.ofFeatures inside rules features) network).snapped := by
  have hempty : ∀ v, ((Detection.ofFeatures inside rules features).connectors.get v).weights = [] := by
    intro v
    rw [Detection.ofFeatures_connectors]
    exact Transition.weights_connector _ v
  apply CrossingSection.decode_encode_of_consistent
  · refine CrossingSection.wellFormed_of_length_lt hbits ?_ h
    intro v
    cases v with
    | pedestrian => exact .inl (hempty .pedestrian)
    | bicycle => exact .inl (hempty .bicycle)
    | car => exact .inr (Connector.length_tabulate _ _)
  · refine CrossingSection.consistent_of_detected inside rules features rfl ?_
    intro v
    cases v with
    | pedestrian => exact ⟨_, rfl⟩
    | bicycle => exact ⟨_, rfl⟩
    | car => exact ⟨_, rfl⟩

/-- The car connector of what is loaded lists what was detected, and has the same table. -/
theorem loaded_car (queue : Frontier) (coding : Coding) (inside : Point Coordinate → Bool)
    (rules : Rules) (features : List Feature) (network : Network) :
    let detected := Detection.ofFeatures inside rules features
    let loaded := (sweptSection queue coding detected network).snapped.connectors.car
    let filled := detected.connectors.car.fill fun enter exit =>
      (network.sweep queue enter).getD exit Weight.none
    loaded.enters = filled.enters ∧ loaded.exits = filled.exits
      ∧ loaded.weights = filled.weights := by
  intro detected loaded filled
  have hends := Transition.sameEnds_connector coding.bits.toNat detected.transitions .car
  have hcar : detected.connectors.car = Transition.connector detected.transitions .car := by
    have hget := Detection.ofFeatures_connectors inside rules features .car
    rwa [← Detection.ofFeatures_transitions] at hget
  refine ⟨?_, ?_, rfl⟩
  · show _ = detected.connectors.car.enters
    rw [hcar]
    exact hends.1.symm
  · show _ = detected.connectors.car.exits
    rw [hcar]
    exact hends.2.symm

section Costs

variable (queue : Frontier) {bits : Nat} (hl : (carLayout models features bits).Numbered)
  (hfew : (routingSection (.ofModels models) bits features).joints.length ≤ UInt32.size)

include hl hfew

/-- A leap over what a sweep finds is the least cost in the layout. -/
theorem leap?_swept {c : Connector} {enter exit : Segment} (henter : enter ∈ c.enters)
    (hexit : exit ∈ c.exits) (haccepts : (carLayout models features bits).Accepts enter) :
    let leap := (c.fill fun enter exit =>
      ((builtNetwork models features bits).sweep queue enter).getD exit Weight.none).leap? enter exit
    (∀ w, leap = some w ↔ LeastCost (carLayout models features bits).Leads enter exit w.toNat
        ∧ w.toNat < Weight.none.toNat)
      ∧ (leap = none ↔ ∀ n, Way (carLayout models features bits).Leads enter exit n →
        Weight.none.toNat ≤ n) := by
  intro leap
  have hmask : ∀ f, (carLayout models features bits).model.isRoad f = true →
      ((Rules.ofModels models).roadMask f).isEmpty = false := isEmpty_roadMask
  have hleap : leap = ((builtNetwork models features bits).sweep queue enter)[exit]? :=
    c.leap?_fill_sweep _ _ queue henter hexit
  rw [hleap]
  constructor
  · intro w
    rw [← Layout.leastCost_iff hl hmask hfew haccepts]
    exact Network.getElem?_sweep_eq_some_iff _ _ _ _ _ _
  · simp only [← Layout.way_iff hl hmask hfew haccepts]
    exact Network.getElem?_sweep_eq_none_iff _ _ _ _ _

/-- The leaps of what is loaded are the least costs in the layout. -/
theorem leaps_loaded (coding : Coding) (inside : Point Coordinate → Bool) :
    let layout := carLayout models features bits
    let detected := Detection.ofFeatures inside (.ofModels models) features
    let car := (sweptSection queue coding detected
      (builtNetwork models features bits)).snapped.connectors.car
    car.SameEnds detected.connectors.car ∧
    (∀ s, car.Lists s → layout.Accepts s) ∧
    ∀ enter ∈ car.enters, ∀ exit ∈ car.exits,
      (∀ w, car.leap? enter exit = some w ↔
        LeastCost layout.Leads enter exit w.toNat ∧ w.toNat < Weight.none.toNat) ∧
      (car.leap? enter exit = none ↔
        ∀ n, Way layout.Leads enter exit n → Weight.none.toNat ≤ n) := by
  intro layout detected car
  obtain ⟨henters, hexits, hweights⟩ := loaded_car queue coding inside (.ofModels models) features
    (builtNetwork models features bits)
  have hends : car.SameEnds detected.connectors.car := ⟨henters, hexits⟩
  have haccepts : ∀ s, car.Lists s → layout.Accepts s := by
    intro s hlists
    have hdetected : detected.connectors.car
        = Transition.connector (Transition.ofFeatures inside (.ofModels models) features) .car :=
      Detection.ofFeatures_connectors inside (.ofModels models) features .car
    rw [Connector.Lists, hends.1, hends.2, hdetected] at hlists
    exact accepts_of_lists hl.indexable _ hlists
  refine ⟨hends, haccepts, ?_⟩
  intro enter henter exit hexit
  have haccepts := haccepts enter (.inl henter)
  rw [hends.1] at henter
  rw [hends.2] at hexit
  have hleap := leap?_swept queue hl hfew henter hexit haccepts
  rwa [← Connector.leap?_congr henters hexits hweights] at hleap

end Costs

end Loaded

/-- A table adds at most five octets for each leap. -/
theorem length_encode_swept_le (queue : Frontier) (coding : Coding) (detected : Detection)
    (network : Network) :
    (sweptSection queue coding detected network).encode.length
      ≤ (⟨coding, detected.transitions, detected.connectors⟩ : CrossingSection).encode.length
        + 5 * (detected.connectors.car.enters.length * detected.connectors.car.exits.length) := by
  rw [← Connector.length_tabulate]
  exact CrossingSection.length_encode_le
    ⟨coding, detected.transitions, detected.connectors⟩ (detected.connectors.car.tabulate _)

/-- A container with a swept section holds that section as it reads back. -/
theorem load_withCrossing {c : Container} (h : c.Readable) (queue : Frontier) {coding : Coding}
    (hbits : Coding.allows coding.bits.toNat = true) (inside : Point Coordinate → Bool)
    (rules : Rules) (features : List Feature) (network : Network)
    (hsize : (withCrossing c (sweptSection queue coding (Detection.ofFeatures inside rules features)
      network)).cursor < UInt64.size) :
    CrossingSection.load (withCrossing c (sweptSection queue coding
        (Detection.ofFeatures inside rules features) network))
      = .ok (sweptSection queue coding
          (Detection.ofFeatures inside rules features) network).snapped := by
  have hlength := Container.length_body_le c CrossingSection.sectionName CrossingSection.sectionSeal
    (sweptSection queue coding (Detection.ofFeatures inside rules features) network).encode
  exact Container.readSealed_append_self h _ _
    (decode_swept queue coding hbits inside rules network (Nat.lt_of_le_of_lt hlength hsize))

/-! ## Whole builds -/

end Build

/-! ## A bridge -/

namespace Bridge

open Build
open OnDisk (runOn)

/-- A road that leads into a region. -/
def ramp : Feature where
  id := 1
  points := [⟨0.0, 0.0⟩, ⟨1.0, 0.0⟩]
  tags := ({} : Std.TreeMap String String).insert "highway" "primary"

/-- A road that goes on where the ramp ends, and out of the region on the other side. -/
def deck : Feature where
  id := 2
  points := [⟨1.0, 0.0⟩, ⟨2.0, 0.0⟩]
  tags := ({} : Std.TreeMap String String).insert "highway" "primary"

def roads : List Feature := [ramp, deck]

/-- The border file of the region. -/
def border : String := "a\n1\n 0.5 -1\n 0.5 1\n 1.5 1\n 1.5 -1\nEND\nEND\n"

def bounds : Borders := (Borders.parse border.toList).toOption.getD []

/-- A disk with nothing but the border file. -/
def start : Disk := ({} : Disk).withFile ["b"] (Bytes.ofText border)

def settings : Settings := { bordersDir := "", bordersExtension := "" }

def coding : Coding := ⟨30, ⟨536870912, 536870912⟩⟩

/-- The container with a header. -/
def first : Container := created "r" coding

theorem load_first : Coding.load first = .ok coding := load_created "r" (by decide)

/-- Where the two paths lead. -/
theorem paths_start : start.resolve "r" = .ok ["r"] ∧ start.resolve "b" = .ok ["b"] ∧
    "r".endsWith "/" = false ∧ settings.bordersPath "" "b" = "b" :=
  ⟨by cbv, by cbv, by cbv, by cbv⟩

theorem takes_start : start.Takes "r" ["r"] := by
  refine ⟨paths_start.2.2.1, paths_start.1, ?_⟩
  rw [start, Disk.look_withFile_of_ne (by decide)]
  intro h
  cases h

/-- The disk after the first step. -/
def disk₁ : Disk := start.withFile ["r"] first.file

theorem takes_disk₁ : disk₁.Takes "r" ["r"] := takes_start.withFile first.file

theorem read_disk₁ : disk₁.read "r" = .ok first.file := takes_start.read first.file

theorem runOn_init : runOn (init "r" none settings) start = (.ok coding, disk₁) := by
  have hcheck : settings.check = .ok () := rfl
  have hcoding : Coding.ofPoint settings.bits ⟨0.0, 0.0⟩ = .ok coding := by decide +kernel
  rw [Build.runOn_init, hcheck, basePoint]
  simp only [hcoding]
  exact OnDisk.saved_of_takes takes_start _

theorem length_first : first.file.length < UInt64.size := by decide +kernel

theorem addressable_disk₁ : disk₁.Addressable "r" := .of_read read_disk₁ length_first

theorem holds_first : OnDisk.Holds disk₁ "r" first 1 := holds_created addressable_disk₁ read_disk₁

/-! ### With the roads -/

def joints : RoutingSection := routingSection (.ofModels Model.builtin) 30 roads

def detected : Detection := Detection.ofFeatures bounds.contains (.ofModels Model.builtin) roads

/-- The two roads meet in the one joint. -/
theorem joints_joints : joints.joints = [[⟨1, 1⟩, ⟨2, 0⟩]] := by
  have hclusters : (Survey.ofFeatures (Rules.ofModels Model.builtin).roadMask 30 roads).cells.values
      = [[⟨1, 0⟩], [⟨1, 1⟩, ⟨2, 0⟩], [⟨2, 1⟩]] := by decide +kernel
  rw [joints, routingSection, Survey.joints, hclusters, Joint.ofClusters,
    show List.filter _ _ = [[⟨1, 1⟩, ⟨2, 0⟩]] by decide, List.map_singleton,
    List.mergeSort_singleton, Joint.normalized, List.mergeSort_of_pairwise (by decide)]

/-- The container with a routing section, and the disk after the second step. -/
def second : Container := withRouting first joints

def disk₂ : Disk := disk₁.withFile ["r"] second.file

theorem takes_disk₂ : disk₂.Takes "r" ["r"] := takes_disk₁.withFile second.file

theorem read_disk₂ : disk₂.read "r" = .ok second.file := takes_disk₁.read second.file

theorem parse_border : Borders.parse border.toList = .ok bounds := by
  have hok : (Borders.parse border.toList).isOk = true := by decide +kernel
  rw [bounds]
  cases hparse : Borders.parse border.toList with
  | error _ =>
    rw [hparse] at hok
    cases hok
  | ok _ => rfl

/-- The border file is not the file of the region. -/
theorem borders_disk₂ : borders disk₂ (settings.bordersPath "" "b") = .ok bounds := by
  obtain ⟨-, hresolve, -, hpath⟩ := paths_start
  have hread : disk₂.read "b" = .ok (Bytes.ofText border) := by
    refine Disk.read_withFile_of_ne takes_disk₁.look (Disk.resolve_withFile takes_start.look hresolve)
      ?_ (by decide)
    rw [disk₁, Disk.look_withFile_of_ne (by decide), start, Disk.look_withFile_self]
  rw [hpath, borders, Disk.readText_of_read hread]
  show (Borders.parse border.toList).mapError _ = .ok bounds
  rw [parse_border]
  rfl

theorem length_second : second.file.length < 1000 := by
  have hjoints : joints = ⟨joints.masks, [[⟨1, 1⟩, ⟨2, 0⟩]]⟩ := by rw [← joints_joints]
  rw [second, hjoints]
  decide +kernel

theorem addressable_disk₂ : disk₂.Addressable "r" :=
  .of_read read_disk₂ (Nat.lt_of_lt_of_le length_second (by decide))

theorem holds_second : OnDisk.Holds disk₂ "r" second 2 :=
  holds_withRouting holds_first addressable_disk₂ read_disk₂

/-- What is detected: there is a way in and a way out at either side. -/
theorem ends_detected : detected.connectors.car.enters = [⟨1, 0, true⟩, ⟨2, 0, false⟩] ∧
    detected.connectors.car.exits = [⟨1, 0, false⟩, ⟨2, 0, true⟩] ∧
    (⟨coding, detected.transitions, detected.connectors⟩ : CrossingSection).encode.length < 1000 := by
  decide +kernel

/-! ### With models that take the same features for roads -/

section Models

variable {atlas : Atlas} {models : PerVehicle Model}

/-- The crossing section, the container with it and the disk after the third step. -/
def swept (models : PerVehicle Model) : CrossingSection :=
  sweptSection .pairs coding detected (carNetwork models.car roads joints.joints)

def third (models : PerVehicle Model) : Container := withCrossing second (swept models)

def disk₃ (models : PerVehicle Model) : Disk := disk₂.withFile ["r"] (third models).file

theorem read_disk₃ (models : PerVehicle Model) :
    (disk₃ models).read "r" = .ok (third models).file := takes_disk₂.read (third models).file

theorem length_encode_swept (models : PerVehicle Model) :
    (swept models).encode.length < 1000 + 5 * (2 * 2) := by
  obtain ⟨henters, hexits, hbare⟩ := ends_detected
  have hlength := length_encode_swept_le .pairs coding detected
    (carNetwork models.car roads joints.joints)
  rw [henters, hexits] at hlength
  exact Nat.lt_of_le_of_lt hlength (Nat.add_lt_add_right hbare _)

theorem length_third (models : PerVehicle Model) : (third models).file.length < UInt64.size := by
  have hencode := length_encode_swept models
  have hsecond := length_second
  have hname : CrossingSection.sectionName.utf8ByteSize = 9 := rfl
  have hlength := holds_second.sound.closed.length_file_append_le CrossingSection.sectionName
    [CrossingSection.sectionSeal.wrap (swept models).encode]
  rw [List.flatten_singleton, Seal.length_wrap, Seal.headerSize, Seal.footerSize, hname] at hlength
  refine Nat.lt_of_le_of_lt hlength (Nat.lt_of_lt_of_le ?_ (by decide : 3000 ≤ UInt64.size))
  omega

theorem addressable_disk₃ (models : PerVehicle Model) : (disk₃ models).Addressable "r" :=
  .of_read (read_disk₃ models) (length_third models)

theorem addressable (models : PerVehicle Model) :
    ∀ disk ∈ [disk₁, disk₂, disk₃ models], disk.Addressable "r" := by
  intro disk hdisk
  simp only [List.mem_cons, List.not_mem_nil, or_false] at hdisk
  rcases hdisk with rfl | rfl | rfl
  · exact addressable_disk₁
  · exact addressable_disk₂
  · exact addressable_disk₃ models

theorem holds_third (models : PerVehicle Model) :
    OnDisk.Holds (disk₃ models) "r" (third models) 3 :=
  holds_withCrossing holds_second (addressable_disk₃ models) (read_disk₃ models)

theorem indexable_roads : Survey.Indexable roads := by
  intro f hf
  simp only [roads, List.mem_cons, List.not_mem_nil, or_false] at hf
  rcases hf with rfl | rfl <;> decide

variable (hmodels : atlas.models "b" = .ok models)
  (hrules : Rules.ofModels models = Rules.ofModels Model.builtin)

include hmodels hrules

theorem runOn_routing : runOn (routing "r" "b" (.ofList roads) atlas settings) disk₁
    = (.ok (routed joints), disk₂) := by
  rw [Build.runOn_routing (holds_first.opens (by decide)) load_first hmodels, hrules]
  exact OnDisk.saved_of_takes takes_disk₁ _

theorem runOn_crossing : runOn (crossing .single "" "r" "b" (.ofList roads) atlas settings) disk₂
    = (.ok (crossed (swept models)), disk₃ models) := by
  have hopen := holds_second.opens (by decide)
  have hcoding : Coding.load second = .ok coding :=
    (coding_withRouting holds_first.sound.readable joints).trans load_first
  have hjoints : RoutingSection.load second = .ok joints :=
    load_withRouting holds_first.sound.readable holds_second.cursor_lt
  rw [Build.runOn_crossing hopen hcoding hjoints hmodels, borders_disk₂, hrules]
  exact OnDisk.saved_of_takes takes_disk₂ _

end Models

theorem few_joints : (routed joints).joints ≤ UInt32.size := by
  show joints.joints.length ≤ UInt32.size
  rw [joints_joints]
  decide

/-- Models by which cars stand still on the ramp. -/
def halted : PerVehicle Model :=
  { Model.builtin with
    car := { Model.car with speed := fun f => if f.id = 1 then 0.0 else Model.car.speed f } }

theorem rules_halted : Rules.ofModels halted = Rules.ofModels Model.builtin := by
  have hroad : ∀ f v, (halted.get v).isRoad f = (Model.builtin.get v).isRoad f := by
    intro f v
    cases v <;> rfl
  have honeWay : ∀ f v, (halted.get v).isOneWay f = (Model.builtin.get v).isOneWay f := by
    intro f v
    cases v <;> rfl
  simp only [Rules.ofModels, hroad, honeWay]

/-- Cars cannot travel the ramp. -/
theorem not_isNode_ramp : ¬ (carLayout halted roads 30).IsNode ⟨1, 0, true⟩ := by
  rintro ⟨f, hf, htravels⟩
  have hid : f.id = 1 := htravels.feature
  have hstill : halted.car.speed f = 0.0 := if_pos hid
  have hspeed : halted.car.speed f > 0.0 := htravels.speed
  rw [hstill] at hspeed
  exact absurd hspeed (by decide)

/-- A way over the bridge starts on the ramp, which it only leaves, and goes on to the deck. -/
theorem way_over_roads : ∃ n < Weight.none.toNat,
    Way (carLayout halted roads 30).Leads ⟨1, 0, true⟩ ⟨2, 0, true⟩ n := by
  have hramp : halted.car.Accepts ramp ⟨1, 0, true⟩ := ⟨rfl, by decide +kernel, by decide, .inl rfl⟩
  have hdeck : halted.car.Travels deck ⟨2, 0, true⟩ :=
    ⟨⟨rfl, by decide +kernel, by decide, .inl rfl⟩, by decide +kernel⟩
  refine ⟨_, Pace.weight_lt_none ⟨halted.car.maxSpeed⟩ (Road.ofFeature halted.car deck) ⟨2, 0, true⟩,
    ?_⟩
  rw [← Nat.zero_add (UInt32.toNat _)]
  refine .onward .here ⟨⟨⟨1.0, 0.0⟩, ⟨1.0, 0.0⟩, ?_, ?_, rfl⟩, by decide, ?_⟩
  · exact ⟨ramp, List.mem_cons_self, hramp, rfl⟩
  · exact ⟨deck, List.mem_cons_of_mem _ List.mem_cons_self, hdeck.toAccepts, rfl⟩
  · exact ⟨deck, List.mem_cons_of_mem _ List.mem_cons_self, hdeck, rfl⟩

end Bridge

end Crossroads

import Crossroads.Proofs.Crossing.Leap
import Crossroads.Proofs.Region.CrossingSection
import Crossroads.Proofs.Region.OnDisk

/-!
# What the steps of a build do

Each step either fails and leaves the disk as it was, or writes the file of a container with one
more section.  `runOn_init`, `runOn_routing` and `runOn_crossing` say which; the crossing section is
that of some sweeps, if the workers can be set up (`crossingSection_eq`).
-/

namespace Crossroads

/-- A stream that comes to its end gives its features. -/
theorem Stream.features_of_all {stream : Stream} {features : List Feature}
    (h : stream.all = .ok features) : features = stream.features := by
  rw [Stream.all] at h
  cases hending : stream.ending with
  | error fault =>
    rw [hending] at h
    cases h
  | ok _ =>
    rw [hending] at h
    exact (Except.ok.inj h).symm

/-- A country that has been listed has its models. -/
theorem Atlas.models_register (a : Atlas) (country : String) (models : PerVehicle Model) :
    (a.register country models).models country = .ok models := by
  have hmodel : ∀ v, (a.register country models).model country v = .ok (models.get v) := by
    intro v
    simp [model, models?, register]
  simp only [Atlas.models, hmodel]
  rfl

namespace Build

open OnDisk (runOn runOn_bind runOn_bind_ok runOn_lift runOn_get)

/-! ## Containers with one more section -/

/-- The container of a region that has been created. -/
def created (path : String) (coding : Coding) : Container :=
  (Container.create path).append Coding.sectionName [Coding.sectionSeal.wrap coding.encode]

/-- A container with a routing section. -/
def withRouting (c : Container) (body : RoutingSection) : Container :=
  c.append RoutingSection.sectionName [RoutingSection.sectionSeal.wrap body.encode]

/-- A container with a crossing section. -/
def withCrossing (c : Container) (body : CrossingSection) : Container :=
  c.append CrossingSection.sectionName [CrossingSection.sectionSeal.wrap body.encode]

section Held

variable {disk disk' : Disk} {path : String} {c : Container} {sections : Nat}

theorem holds_created {coding : Coding} (hdisk : disk.Addressable path)
    (hread : disk.read path = .ok (created path coding).file) :
    OnDisk.Holds disk path (created path coding) 1 where
  path_eq := rfl
  addressable := hdisk
  read := hread
  sound := (Container.sound_create path).append (by decide) _
  count := Container.length_entries_append_le _ _ _

theorem holds_withRouting {body : RoutingSection} (h : OnDisk.Holds disk path c sections)
    (hdisk : disk'.Addressable path) (hread : disk'.read path = .ok (withRouting c body).file) :
    OnDisk.Holds disk' path (withRouting c body) (sections + 1) :=
  h.append (by decide) hdisk hread

theorem holds_withCrossing {body : CrossingSection} (h : OnDisk.Holds disk path c sections)
    (hdisk : disk'.Addressable path) (hread : disk'.read path = .ok (withCrossing c body).file) :
    OnDisk.Holds disk' path (withCrossing c body) (sections + 1) :=
  h.append (by decide) hdisk hread

end Held

theorem load_created (path : String) {coding : Coding}
    (hbits : Coding.allows coding.bits.toNat = true) :
    Coding.load (created path coding) = .ok coding :=
  Coding.load_append_self (Container.sound_create path).readable hbits

theorem coding_withRouting {c : Container} (h : c.Readable) (body : RoutingSection) :
    Coding.load (withRouting c body) = Coding.load c :=
  Container.readSealed_append_of_ne h (by decide) _ _ _

theorem coding_withCrossing {c : Container} (h : c.Readable) (body : CrossingSection) :
    Coding.load (withCrossing c body) = Coding.load c :=
  Container.readSealed_append_of_ne h (by decide) _ _ _

/-- A routing section that fits into a file is loaded as it was. -/
theorem load_withRouting {c : Container} (h : c.Readable) {body : RoutingSection}
    (hsize : (withRouting c body).cursor < UInt64.size) :
    RoutingSection.load (withRouting c body) = .ok body := by
  have hlength := Container.length_body_le c RoutingSection.sectionName RoutingSection.sectionSeal
    body.encode
  have hwellFormed := RoutingSection.wellFormed_of_length_lt (Nat.lt_of_le_of_lt hlength hsize)
  exact Container.readSealed_append_self h _ _ (RoutingSection.decode_encode hwellFormed)

/-! ## Creating a region -/

/-- The base point of a new region. -/
def basePoint : Option Stream → Except Fault (Point Coordinate)
  | none => .ok ⟨0.0, 0.0⟩
  | some stream => stream.all.map center

/-- Creating a region writes a container with nothing but a header. -/
theorem runOn_init (path : String) (base : Option Stream) (settings : Settings) (disk : Disk) :
    runOn (init path base settings) disk = match settings.check with
      | .error complaint => (.error (.invalid complaint), disk)
      | .ok _ => match basePoint base with
        | .error fault => (.error fault, disk)
        | .ok point => match Coding.ofPoint settings.bits point with
          | .error complaint => (.error (.invalid complaint), disk)
          | .ok coding => OnDisk.saved disk (created path coding) coding := by
  have hcreate : ∀ point : Point Coordinate, runOn (do
        let coding ← liftM ((Coding.ofPoint settings.bits point).mapError Fault.invalid)
        let _ ← OnDisk.save (coding.write (Container.create path))
        return coding) disk = match Coding.ofPoint settings.bits point with
          | .error complaint => (.error (.invalid complaint), disk)
          | .ok coding => OnDisk.saved disk (created path coding) coding := by
    intro point
    rw [runOn_bind, runOn_lift]
    cases Coding.ofPoint settings.bits point with
    | error complaint => rfl
    | ok coding =>
      show runOn (OnDisk.save (coding.write (Container.create path)) >>= fun _ => pure coding) disk = _
      rw [Coding.write, Container.writeSealed_eq (by decide), OnDisk.runOn_save_bind]
      rfl
  rw [init, runOn_bind, runOn_lift]
  cases settings.check with
  | error complaint => rfl
  | ok _ =>
    cases base with
    | none => exact hcreate _
    | some stream =>
      show runOn (liftM stream.all >>= _) disk = _
      rw [runOn_bind, runOn_lift, basePoint]
      cases stream.all with
      | error fault => rfl
      | ok features => exact hcreate _

/-- A region that is created has an allowed precision, and its file holds its coding. -/
theorem init_eq_ok {path : String} {base : Option Stream} {settings : Settings}
    {disk disk' : Disk} {coding : Coding}
    (h : runOn (init path base settings) disk = (.ok coding, disk')) :
    Coding.allows coding.bits.toNat = true ∧ disk'.read path = .ok (created path coding).file := by
  rw [runOn_init] at h
  split at h
  · cases h
  split at h
  · cases h
  split at h
  · cases h
  rename_i made hmade
  obtain ⟨rfl, hwrite⟩ := OnDisk.saved_eq_ok_iff.mp h
  refine ⟨?_, Disk.read_write hwrite⟩
  rw [Coding.ofPoint] at hmade
  split at hmade
  · rename_i hbits
    cases hmade
    exact hbits
  · cases hmade

/-! ## The routing section -/

/-- The precision is that of the header, whatever the settings are. -/
theorem precision_eq {c : Container} {coding : Coding} (h : Coding.load c = .ok coding)
    (settings : Settings) : precision c settings = .ok coding.bits := by
  rw [precision, h]

theorem rules_eq {atlas : Atlas} {country : String} {models : PerVehicle Model}
    (h : atlas.models country = .ok models) : atlas.rules country = .ok (.ofModels models) := by
  rw [Atlas.rules, h]
  rfl

/-- What is told about a routing section in a container. -/
def routed (body : RoutingSection) : RoutingSummary :=
  let network := ({} : Network).withJoints body.joints
  ⟨(RoutingSection.sectionSeal.wrap body.encode).length, network.roadCount, network.jointCount,
    network.pointCount⟩

section Opened

variable {path country : String} {disk : Disk} {c : Container} {coding : Coding} {atlas : Atlas}
  {models : PerVehicle Model}

/-- The routing section that is written is that of the features at the precision of the header. -/
theorem runOn_routing (hopen : runOn (OnDisk.openContainer path) disk = (.ok c, disk))
    (hcoding : Coding.load c = .ok coding) (hmodels : atlas.models country = .ok models)
    (stream : Stream) (settings : Settings) :
    runOn (routing path country stream atlas settings) disk = match stream.all with
      | .error fault => (.error fault, disk)
      | .ok features =>
        let body := routingSection (.ofModels models) coding.bits.toNat features
        OnDisk.saved disk (withRouting c body) (routed body) := by
  rw [routing, runOn_bind_ok hopen, precision_eq hcoding, runOn_bind_ok (runOn_lift _ _),
    rules_eq hmodels, runOn_bind_ok (runOn_lift _ _), runOn_bind, runOn_lift]
  cases stream.all with
  | error fault => rfl
  | ok features =>
    simp only [RoutingSection.write]
    rw [Container.writeSealed_eq (by decide)]
    exact OnDisk.runOn_save_bind _ _ _ _

theorem routing_eq_ok {stream : Stream} {settings : Settings} {disk' : Disk}
    {summary : RoutingSummary} (hopen : runOn (OnDisk.openContainer path) disk = (.ok c, disk))
    (hcoding : Coding.load c = .ok coding) (hmodels : atlas.models country = .ok models)
    (h : runOn (routing path country stream atlas settings) disk = (.ok summary, disk')) :
    let body := routingSection (.ofModels models) coding.bits.toNat stream.features
    routed body = summary ∧ disk'.read c.path = .ok (withRouting c body).file := by
  rw [runOn_routing hopen hcoding hmodels] at h
  split at h
  · cases h
  · rename_i features hfeatures
    obtain rfl := Stream.features_of_all hfeatures
    obtain ⟨hsummary, hwrite⟩ := OnDisk.saved_eq_ok_iff.mp h
    exact ⟨hsummary, Disk.read_write hwrite⟩

/-! ## The crossing section -/

/-- The crossing section of what is detected at a border: the table of cars holds the costs that the
sweeps of the network find. -/
def sweptSection (queue : Frontier) (coding : Coding) (detected : Detection) (network : Network) :
    CrossingSection where
  coding := coding
  transitions := detected.transitions
  connectors := { detected.connectors with
    car := detected.connectors.car.fill fun enter exit =>
      (network.sweep queue enter).getD exit Weight.none }

/-- The section is made once the workers are set up. -/
theorem crossingSection_eq (workers : Workers) (threads : Option Nat) (coding : Coding)
    (detected : Detection) (network : Network) :
    crossingSection workers threads coding detected network = match workers.setUp threads with
      | .error complaint => .error (.invalid complaint)
      | .ok _ => .ok (sweptSection workers.queue coding detected network) := by
  rw [crossingSection, Connector.fillLeaps_eq]
  cases workers.setUp threads with
  | error complaint => rfl
  | ok _ => rfl

theorem crossingSection_eq_ok_iff {workers : Workers} {threads : Option Nat} {coding : Coding}
    {detected : Detection} {network : Network} {body : CrossingSection} :
    crossingSection workers threads coding detected network = .ok body ↔
      workers.setUp threads = .ok () ∧
        sweptSection workers.queue coding detected network = body := by
  rw [crossingSection_eq]
  cases workers.setUp threads with
  | error complaint => simp
  | ok _ => simp

/-- In a network with joints it makes no difference which queue a sweep has. -/
theorem sweptSection_congr (queue queue' : Frontier) (coding : Coding) (detected : Detection)
    (network : Network) (joints : List Joint) :
    sweptSection queue coding detected (network.withJoints joints)
      = sweptSection queue' coding detected (network.withJoints joints) := by
  have hsame : (fun enter exit : Segment =>
      ((network.withJoints joints).sweep queue enter).getD exit Weight.none)
      = fun enter exit =>
        ((network.withJoints joints).sweep queue' enter).getD exit Weight.none := by
    funext enter exit
    rw [Std.HashMap.getD_eq_getD_getElem?, Std.HashMap.getD_eq_getD_getElem?,
      Network.getElem?_sweep_congr network joints queue queue']
  rw [sweptSection, sweptSection, hsame]

/-- What is told about a crossing section in a container. -/
def crossed (body : CrossingSection) : CrossingSummary :=
  ⟨(CrossingSection.sectionSeal.wrap body.encode).length, body.transitions.length,
    body.connectors.car.enters.length, body.connectors.car.exits.length⟩

/-- The crossing section that is written is that of the features at the border in the border file,
with the joints of the routing section. -/
theorem runOn_crossing {joints : RoutingSection}
    (hopen : runOn (OnDisk.openContainer path) disk = (.ok c, disk))
    (hcoding : Coding.load c = .ok coding) (hjoints : RoutingSection.load c = .ok joints)
    (hmodels : atlas.models country = .ok models) (workers : Workers) (dataDir : String)
    (stream : Stream) (settings : Settings) :
    runOn (crossing workers dataDir path country stream atlas settings) disk
      = match borders disk (settings.bordersPath dataDir country) with
        | .error complaint => (.error (.invalid complaint), disk)
        | .ok borders => match stream.all with
          | .error fault => (.error fault, disk)
          | .ok features => match workers.setUp settings.leapThreads with
            | .error complaint => (.error (.invalid complaint), disk)
            | .ok _ =>
              let body := sweptSection workers.queue coding
                (Detection.ofFeatures borders.contains (.ofModels models) features)
                (carNetwork models.car features joints.joints)
              OnDisk.saved disk (withCrossing c body) (crossed body) := by
  rw [crossing, crossingInPasses, runOn_bind_ok (runOn_get disk), runOn_bind, runOn_lift]
  cases borders disk (settings.bordersPath dataDir country) with
  | error complaint => rfl
  | ok borders =>
    show runOn (liftM (atlas.models country) >>= _) disk = _
    rw [hmodels, runOn_bind_ok (runOn_lift _ _), runOn_bind, runOn_lift]
    cases hfeatures : stream.all with
    | error fault => rfl
    | ok features =>
      show runOn (OnDisk.openContainer path >>= _) disk = _
      rw [runOn_bind_ok hopen, hcoding, runOn_bind_ok (runOn_lift _ _),
        runOn_bind_ok (runOn_lift _ _), hjoints, runOn_bind_ok (runOn_lift _ _)]
      simp only [crossingSection_eq]
      cases workers.setUp settings.leapThreads with
      | error complaint => rfl
      | ok _ =>
        simp only
        rw [runOn_bind_ok (runOn_lift _ _), CrossingSection.write,
          Container.writeSealed_eq (by decide)]
        exact OnDisk.runOn_save_bind _ _ _ _

theorem crossing_eq_ok {joints : RoutingSection} {workers : Workers} {dataDir : String}
    {stream : Stream} {settings : Settings} {disk' : Disk} {summary : CrossingSummary}
    (hopen : runOn (OnDisk.openContainer path) disk = (.ok c, disk))
    (hcoding : Coding.load c = .ok coding) (hjoints : RoutingSection.load c = .ok joints)
    (hmodels : atlas.models country = .ok models)
    (h : runOn (crossing workers dataDir path country stream atlas settings) disk
      = (.ok summary, disk')) :
    ∃ bounds, borders disk (settings.bordersPath dataDir country) = .ok bounds ∧
      stream.all = .ok stream.features ∧
      let body := sweptSection workers.queue coding
        (Detection.ofFeatures bounds.contains (.ofModels models) stream.features)
        (carNetwork models.car stream.features joints.joints)
      OnDisk.saved disk (withCrossing c body) (crossed body) = (.ok summary, disk') := by
  rw [runOn_crossing hopen hcoding hjoints hmodels] at h
  split at h
  · cases h
  split at h
  · cases h
  split at h
  · cases h
  · rename_i bounds hbounds _ features hfeatures _ _ _
    obtain rfl := Stream.features_of_all hfeatures
    exact ⟨bounds, hbounds, hfeatures, h⟩

end Opened

end Build

end Crossroads

import Crossroads.Proofs.Region.Acceptance
import Crossroads.Proofs.Region.Leaps

/-!
# Builds that fail leave the disk alone

Each step of a build looks at the disk until it saves a container (`OnDisk.Saves`): the first one a
container with a header, the others the container that they have opened with a section more, or
anew.

* `Build.all_or_nothing` — each step of a build writes its section, or nothing.
-/

namespace Crossroads

namespace Build

open OnDisk (runOn Saves)

variable {α β : Type}

/-- Whether a step succeeds is what comes of it. -/
theorem run_succeeds (step : OnDisk α) (disk : Disk) :
    (succeeds step).run disk = ((runOn step disk).1.isOk, (runOn step disk).2) := rfl

/-- A step on the container in a file fails and leaves the disk alone, or succeeds and writes a section
of that container.  If the footer has room for the numbers, then the file opens as the container with
that section, which can be loaded; there is room unless files are huge. -/
structure AllOrNothing (path own : String) (load : Container → Except Fault β)
    (step : OnDisk α) : Prop where
  failed : ∀ disk fault disk', runOn step disk = (.error fault, disk') →
    disk' = disk ∧ (succeeds step).run disk = (false, disk)
  done : ∀ disk a disk', runOn step disk = (.ok a, disk') →
    (succeeds step).run disk = (true, disk') ∧
    ∃ before after, disk.read path = .ok before.file ∧
      Container.ofBytes path before.file = .ok before ∧ disk'.read path = .ok after.file ∧
      (∀ other, other ≠ own → after.read other = before.read other) ∧
      (after.FooterFits → Container.ofBytes path after.file = .ok after ∧
        ∃ body, load after = .ok body) ∧
      (before.file.length < 26 * (UInt32.size - 1) → after.file.length < UInt64.size →
        after.FooterFits)

/-- The container that is opened from a file gets a section, which can be loaded. -/
def Extends (disk : Disk) (path own : String) (load : Container → Except Fault β)
    (after : Container) : Prop :=
  ∃ before pieces, disk.read path = .ok before.file ∧
    Container.ofBytes path before.file = .ok before ∧ after = before.append own pieces ∧
    (after.FooterFits → ∃ body, load after = .ok body)

theorem AllOrNothing.of_saves {path own : String} {load : Container → Except Fault β}
    {step : OnDisk α} (hown : own.utf8ByteSize < UInt16.size)
    (h : ∀ disk, Saves step disk (Extends disk path own load)) :
    AllOrNothing path own load step where
  failed disk fault disk' hrun := by
    have hdisk := (h disk).eq_of_error hrun
    rw [run_succeeds, hrun, hdisk]
    exact ⟨rfl, rfl⟩
  done disk a disk' hrun := by
    refine ⟨by rw [run_succeeds, hrun]; rfl, ?_⟩
    obtain ⟨_, ⟨before, pieces, hread, hopen, rfl, hload⟩, hwrite⟩ := (h disk).write_of_ok hrun
    obtain ⟨hpath, -, hreadable, -⟩ := Container.ofBytes_eq_ok hopen
    have hread' : disk'.read path = .ok (before.append own pieces).file := by
      rw [← hpath]
      exact Disk.read_write hwrite
    have hclosed := hreadable.append hown pieces
    refine ⟨before, before.append own pieces, hread, hopen, hread',
      fun other hne => Container.read_append_of_ne hreadable hne pieces,
      fun hfits => ⟨?_, hload hfits⟩, fun hfile hfile' => ?_⟩
    · rw [← hpath]
      exact Container.ofBytes_file hclosed hfits
    · have hcursor := Nat.lt_of_le_of_lt hclosed.stop hfile'
      exact Container.footerFits_append hopen own pieces hfile hcursor

/-! ## The steps -/

/-- The routing step saves the container in the file with a routing section. -/
theorem saves_routing (path country : String) (stream : Stream) (atlas : Atlas) (settings : Settings)
    (disk : Disk) : Saves (routing path country stream atlas settings) disk
      (Extends disk path RoutingSection.sectionName RoutingSection.load) := by
  rw [routing]
  refine Saves.bind_openContainer fun before hread hopen => ?_
  refine Saves.bind_lift fun bits _ => ?_
  refine Saves.bind_lift fun rules _ => ?_
  refine Saves.bind_lift fun features _ => ?_
  obtain ⟨-, -, hreadable, -⟩ := Container.ofBytes_eq_ok hopen
  simp only [RoutingSection.write]
  rw [Container.writeSealed_eq (by decide)]
  refine Saves.save ⟨before, _, hread, hopen, rfl, fun hfits => ?_⟩ _ _
  exact ⟨_, load_withRouting hreadable hfits.1⟩

/-- The crossing step saves the container in the file with a crossing section. -/
theorem saves_crossing (workers : Workers) (dataDir path country : String) (first second : Stream)
    (atlas : Atlas) (settings : Settings) (disk : Disk) :
    Saves (crossingInPasses workers dataDir path country first second atlas settings) disk
      (Extends disk path CrossingSection.sectionName CrossingSection.load) := by
  rw [crossingInPasses]
  refine Saves.bind_get ?_
  refine Saves.bind_lift fun bounds _ => ?_
  refine Saves.bind_lift fun models _ => ?_
  refine Saves.bind_lift fun detectable _ => ?_
  refine Saves.bind_openContainer fun before hread hopen => ?_
  refine Saves.bind_lift fun coding hcoding => ?_
  refine Saves.bind_lift fun features _ => ?_
  refine Saves.bind_lift fun joints _ => ?_
  obtain ⟨-, -, hreadable, -⟩ := Container.ofBytes_eq_ok hopen
  refine Saves.bind_lift fun body hbody => ?_
  obtain ⟨-, rfl⟩ := crossingSection_eq_ok_iff.mp hbody
  simp only [CrossingSection.write]
  rw [Container.writeSealed_eq (by decide)]
  refine Saves.save ⟨before, _, hread, hopen, rfl, fun hfits => ?_⟩ _ _
  exact ⟨_, load_withCrossing hreadable _ (Coding.allows_of_load hcoding) _ _ _ _ hfits.1⟩

/-- The first step saves a container with a header and nothing else. -/
theorem saves_init (path : String) (base : Option Stream) (settings : Settings) (disk : Disk) :
    Saves (init path base settings) disk fun c => ∃ coding, c = created path coding := by
  rw [Saves, runOn_init]
  split
  · exact .inl ⟨_, rfl⟩
  split
  · exact .inl ⟨_, rfl⟩
  split
  · exact .inl ⟨_, rfl⟩
  · exact .inr ⟨_, _, ⟨_, rfl⟩, rfl⟩

/-- **A step of a build does all or nothing.**  Whatever the disk holds and whatever the features are,
be they others in the second pass, a step that fails leaves the disk as it was, also if it fails since
the workers cannot be set up.  The routing step and the crossing step answer whether they succeed; if
they do, their own section can be loaded and all others read as before. -/
theorem all_or_nothing (workers : Workers) (dataDir path country : String)
    (first second : Stream) (atlas : Atlas) (settings : Settings) :
    AllOrNothing path RoutingSection.sectionName RoutingSection.load
      (routing path country first atlas settings) ∧
    AllOrNothing path CrossingSection.sectionName CrossingSection.load
      (crossingInPasses workers dataDir path country first second atlas settings) ∧
    ∀ base disk fault disk', runOn (init path base settings) disk = (.error fault, disk') →
      disk' = disk :=
  ⟨.of_saves (by decide) (saves_routing path country first atlas settings),
    .of_saves (by decide) (saves_crossing workers dataDir path country first second atlas settings),
    fun base disk _ _ hrun => (saves_init path base settings disk).eq_of_error hrun⟩

end Build

namespace Bridge

open Build
open OnDisk (runOn)

/-- The features break off after the roads. -/
def broken : Stream := ⟨roads, .error (.io .shortRead)⟩

/-- The routing step keeps the header; with the broken features it does nothing. -/
theorem routing_keeps_header :
    (succeeds (routing "r" "b" (.ofList roads) Atlas.worldwide settings)).run disk₁ = (true, disk₂) ∧
    (∃ after body, disk₂.read "r" = .ok after.file ∧ Container.ofBytes "r" after.file = .ok after ∧
      after.read Coding.sectionName = first.read Coding.sectionName ∧
      RoutingSection.load after = .ok body) ∧
    (succeeds (routing "r" "b" broken Atlas.worldwide settings)).run disk₁ = (false, disk₁) := by
  have hmodels : Atlas.worldwide.models "b" = .ok Model.builtin := rfl
  obtain ⟨hrouting, -⟩ := all_or_nothing .single "" "r" "b" (.ofList roads) (.ofList roads)
    Atlas.worldwide settings
  obtain ⟨hsucceeds, before, after, hread, hopen, hread', hothers, hopens, hfits⟩ :=
    hrouting.done _ _ _ (runOn_routing hmodels rfl)
  have hbefore : before.file = first.file := Except.ok.inj (hread.symm.trans read_disk₁)
  have hafter : after.file = second.file := Except.ok.inj (hread'.symm.trans read_disk₂)
  have hfirst : before = first := by
    rw [hbefore] at hopen
    have hfits₁ := holds_first.fits (by decide)
    exact Except.ok.inj (hopen.symm.trans (Container.ofBytes_file holds_first.sound.closed hfits₁))
  have hlength : after.file.length < UInt64.size := by
    rw [hafter]
    exact Nat.lt_trans length_second (by decide)
  have hfile : before.file.length < 26 * (UInt32.size - 1) := by
    rw [hbefore]
    decide +kernel
  obtain ⟨hopen', body, hload⟩ := hopens (hfits hfile hlength)
  refine ⟨hsucceeds, ⟨after, body, hread', hopen', ?_, hload⟩, ?_⟩
  · rw [hothers _ (by decide), hfirst]
  · obtain ⟨hbroken, -⟩ := all_or_nothing .single "" "r" "b" broken broken Atlas.worldwide settings
    have hrun := Build.runOn_routing (holds_first.opens (by decide)) load_first hmodels broken settings
    exact (hbroken.failed _ _ _ hrun).2

end Bridge

end Crossroads

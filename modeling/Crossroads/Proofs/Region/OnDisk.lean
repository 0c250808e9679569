import Crossroads.Region.Build
import Crossroads.Proofs.Disk
import Crossroads.Proofs.Region.Container

/-!
# Running on a disk

The steps of a build look at the disk and end by saving a container.  So a step that fails has done
nothing to the disk (`OnDisk.Saves.eq_of_error`), and one that succeeds has written a container
(`OnDisk.Saves.write_of_ok`).
-/

namespace Crossroads

namespace OnDisk

variable {α β : Type}

/-- Runs on a disk; answers the outcome and the disk after it. -/
def runOn (step : OnDisk α) (disk : Disk) : Except Fault α × Disk := (ExceptT.run step).run disk

@[simp]
theorem runOn_get (disk : Disk) : runOn (get : OnDisk Disk) disk = (.ok disk, disk) := rfl

@[simp]
theorem runOn_lift (outcome : Except Fault α) (disk : Disk) :
    runOn (liftM outcome) disk = (outcome, disk) := rfl

theorem runOn_bind (step : OnDisk α) (next : α → OnDisk β) (disk : Disk) :
    runOn (step >>= next) disk = match runOn step disk with
      | (.ok a, disk) => runOn (next a) disk
      | (.error fault, disk) => (.error fault, disk) := by
  show (ExceptT.bindCont next ((ExceptT.run step).run disk).1).run ((ExceptT.run step).run disk).2 = _
  unfold runOn
  rcases (ExceptT.run step).run disk with ⟨_ | _, _⟩ <;> rfl

theorem runOn_bind_ok {step : OnDisk α} {next : α → OnDisk β} {disk disk' : Disk} {a : α}
    (h : runOn step disk = (.ok a, disk')) : runOn (step >>= next) disk = runOn (next a) disk' := by
  rw [runOn_bind, h]

theorem runOn_openContainer (path : String) (disk : Disk) :
    runOn (openContainer path) disk
      = (((disk.read path).mapError Fault.io).bind (Container.ofBytes path), disk) := by
  rw [openContainer, runOn_bind_ok (runOn_get disk), runOn_bind, runOn_lift]
  cases disk.read path with
  | error _ => rfl
  | ok file => rfl

/-- The file at a path is that of a sound container, with at most so many sections. -/
structure Holds (disk : Disk) (path : String) (c : Container) (sections : Nat) : Prop where
  path_eq : c.path = path
  addressable : disk.Addressable path
  read : disk.read path = .ok c.file
  sound : c.Sound
  count : c.entries.length ≤ sections

namespace Holds

variable {disk disk' : Disk} {path name : String} {c : Container} {sections : Nat}

theorem cursor_lt (h : Holds disk path c sections) : c.cursor < UInt64.size :=
  Nat.lt_of_le_of_lt h.sound.readable.stop (h.addressable _ h.read)

theorem fits (h : Holds disk path c sections) (hsections : sections < UInt32.size) :
    c.FooterFits :=
  ⟨h.cursor_lt, Nat.lt_of_le_of_lt h.count hsections⟩

/-- What is held is opened. -/
theorem opens (h : Holds disk path c sections) (hsections : sections < Nat.pow 256 4) :
    runOn (openContainer path) disk = (.ok c, disk) := by
  rw [runOn_openContainer, h.read, ← h.path_eq]
  show (Container.ofBytes c.path c.file, disk) = _
  rw [Container.ofBytes_file h.sound.closed (h.fits hsections)]

/-- Once a section has been appended, the container with that section is held. -/
theorem append (h : Holds disk path c sections) (hname : Container.nameFits name = true)
    {pieces : List Bytes} (hdisk : disk'.Addressable path)
    (hread : disk'.read path = .ok (c.append name pieces).file) :
    Holds disk' path (c.append name pieces) (sections + 1) where
  path_eq := h.path_eq
  addressable := hdisk
  read := hread
  sound := h.sound.append hname pieces
  count := (Container.length_entries_append_le _ _ _).trans (Nat.succ_le_succ h.count)

end Holds

/-- What comes of a step that ends by writing a container. -/
def saved (disk : Disk) (c : Container) (a : α) : Except Fault α × Disk :=
  match disk.write c.path c.file with
  | .error failure => (.error (.io failure), disk)
  | .ok disk' => (.ok a, disk')

theorem saved_eq_ok_iff {disk disk' : Disk} {c : Container} {a b : α} :
    saved disk c a = (.ok b, disk') ↔ a = b ∧ disk.write c.path c.file = .ok disk' := by
  rw [saved]
  cases disk.write c.path c.file with
  | error _ => simp
  | ok _ => simp

theorem saved_of_takes {disk : Disk} {c : Container} {place : Place} (h : disk.Takes c.path place)
    (a : α) : saved disk c a = (.ok a, disk.withFile place c.file) :=
  saved_eq_ok_iff.mpr ⟨rfl, h.write _⟩

/-- The step fails and leaves the disk alone, or it ends by saving a container that meets the
condition. -/
def Saves (step : OnDisk α) (disk : Disk) (P : Container → Prop) : Prop :=
  (∃ fault, runOn step disk = (.error fault, disk)) ∨
    ∃ c a, P c ∧ runOn step disk = saved disk c a

namespace Saves

variable {disk : Disk} {P : Container → Prop}

theorem bind_get {next : Disk → OnDisk α} (h : Saves (next disk) disk P) :
    Saves (get >>= next) disk P := by
  rw [Saves, runOn_bind_ok (runOn_get disk)]
  exact h

theorem bind_lift {outcome : Except Fault α} {next : α → OnDisk β}
    (h : ∀ a, outcome = .ok a → Saves (next a) disk P) :
    Saves (liftM outcome >>= next) disk P := by
  cases outcome with
  | error fault => exact .inl ⟨fault, rfl⟩
  | ok a => exact h a rfl

theorem bind_openContainer {path : String} {next : Container → OnDisk α}
    (h : ∀ c, disk.read path = .ok c.file → Container.ofBytes path c.file = .ok c →
      Saves (next c) disk P) : Saves (openContainer path >>= next) disk P := by
  have hopen := runOn_openContainer path disk
  cases hread : disk.read path with
  | error failure =>
    rw [hread] at hopen
    refine .inl ⟨.io failure, ?_⟩
    rw [runOn_bind, hopen]
    rfl
  | ok file =>
    rw [hread] at hopen
    replace hopen : runOn (openContainer path) disk = (Container.ofBytes path file, disk) := hopen
    cases hcontainer : Container.ofBytes path file with
    | error fault =>
      rw [hcontainer] at hopen
      refine .inl ⟨fault, ?_⟩
      rw [runOn_bind, hopen]
    | ok c =>
      rw [hcontainer] at hopen
      obtain ⟨-, rfl, -⟩ := Container.ofBytes_eq_ok hcontainer
      rcases h c hread hcontainer with ⟨fault, hrun⟩ | ⟨c', a, hc', hrun⟩
      · exact .inl ⟨fault, (runOn_bind_ok hopen).trans hrun⟩
      · exact .inr ⟨c', a, hc', (runOn_bind_ok hopen).trans hrun⟩

end Saves

/-- A step that ends by saving a container. -/
theorem runOn_save_bind (a : α) (c : Container) (f : α → β) (disk : Disk) :
    runOn (save (.ok a, c) >>= fun a => pure (f a)) disk = saved disk c (f a) := by
  have hsave : runOn (save (.ok a, c)) disk = saved disk c a := by
    rw [save, runOn_bind_ok (runOn_get disk), runOn_bind, runOn_lift, saved]
    cases disk.write c.path c.file with
    | error _ => rfl
    | ok _ => rfl
  rw [runOn_bind, hsave, saved, saved]
  cases disk.write c.path c.file with
  | error _ => rfl
  | ok _ => rfl

namespace Saves

variable {disk disk' : Disk} {P : Container → Prop} {step : OnDisk α}

theorem save {c : Container} (h : P c) (a : α) (f : α → β) :
    Saves (OnDisk.save (.ok a, c) >>= fun a => pure (f a)) disk P :=
  .inr ⟨c, f a, h, runOn_save_bind a c f disk⟩

/-- A step that fails has left the disk alone. -/
theorem eq_of_error (h : Saves step disk P) {fault : Fault}
    (hrun : runOn step disk = (.error fault, disk')) : disk' = disk := by
  rcases h with ⟨fault', hfailed⟩ | ⟨c, a, -, hsaved⟩
  · exact congrArg Prod.snd (hrun.symm.trans hfailed)
  · rw [hsaved, saved] at hrun
    split at hrun
    · exact (congrArg Prod.snd hrun).symm
    · cases hrun

/-- A step that succeeds has written a container. -/
theorem write_of_ok (h : Saves step disk P) {a : α} (hrun : runOn step disk = (.ok a, disk')) :
    ∃ c, P c ∧ disk.write c.path c.file = .ok disk' := by
  rcases h with ⟨fault, hfailed⟩ | ⟨c, a', hc, hsaved⟩
  · rw [hfailed] at hrun
    cases hrun
  · exact ⟨c, hc, (saved_eq_ok_iff.mp (hsaved.symm.trans hrun)).2⟩

end Saves

end OnDisk

end Crossroads

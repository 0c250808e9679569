import Crossroads.Proofs.Crossing.Weights

/-!
# Places and leaps

Segments are registered in any order and more than once, before the table of a connector is filled or
after.  Whatever is called, the lists only grow at their ends and list no segment twice
(`Connector.call_cases`), so that a segment is found where it stands, and stays there.

The leaps from an enter are read along a row of the table, the leaps to an exit along a column, and
one leap in one place.

* `Connector.run_agrees` — the places are those of the lists, and the three ways of reading leaps
  agree.
-/

namespace Crossroads

/-! ## Places -/

namespace Places

variable {list list' : List Segment} (places : Places list) {s : Segment} {i : Nat}

/-- Where no segment is listed twice, each has the place where it stands. -/
theorem index_eq_some_iff (h : list.Nodup) : places.index[s]? = some i ↔ list[i]? = some s := by
  rw [places.index_eq, List.idxOf?_eq_some_iff]
  constructor
  · rintro ⟨hi, hs, -⟩
    exact List.getElem?_eq_some_iff.mpr ⟨hi, hs⟩
  · intro hget
    obtain ⟨hi, hs⟩ := List.getElem?_eq_some_iff.mp hget
    refine ⟨hi, hs, fun j hj hsame => ?_⟩
    exact List.pairwise_iff_getElem.mp h j i (by omega) hi hj (hsame.trans hs.symm)

theorem index_register_self (s : Segment) :
    (places.register s).index[s]? = some (places.placeOf s) := by
  simp only [register, placeOf, Std.HashMap.getElem?_insertIfNew,
    Std.HashMap.getD_eq_getD_getElem?, Std.HashMap.mem_iff_isSome_getElem?]
  cases places.index[s]? with
  | none => simp
  | some i => simp

theorem placeOf_eq (h : places.index[s]? = some i) : places.placeOf s = i := by
  rw [placeOf, Std.HashMap.getD_eq_getD_getElem?, h, Option.getD_some]

/-- A place is kept while the list grows at its end. -/
theorem index_of_extends (places' : Places list') (hextends : list <+: list')
    (h : places.index[s]? = some i) : places'.index[s]? = some i := by
  rw [places.index_eq, List.idxOf?_eq_some_iff] at h
  rw [places'.index_eq, List.idxOf?_eq_some_iff]
  obtain ⟨hi, hs, hbefore⟩ := h
  obtain ⟨more, rfl⟩ := hextends
  refine ⟨by rw [List.length_append]; omega, ?_, fun j hj => ?_⟩
  · rw [List.getElem_append_left hi, hs]
  · rw [List.getElem_append_left (by omega)]
    exact hbefore j hj

end Places

namespace Connector

variable {c : Connector} {enter exit : Segment} {w : Weight}

/-! ## Calls -/

/-- A call registers segments or stores a table. -/
theorem call_cases (c : Connector) (a : Call) :
    c.Extends (c.call a) ∨ ∃ weights, c.call a = { c with weights := weights } := by
  cases a with
  | gate feature index gate => exact .inl (c.extends_addGate feature index gate)
  | enter s => exact .inl (c.extends_addEnd true s)
  | exit s => exact .inl (c.extends_addEnd false s)
  | fill weigh => exact .inr ⟨_, rfl⟩
  | install weights =>
    right
    rw [call, install?]
    split
    · exact ⟨_, rfl⟩
    · exact ⟨c.weights, rfl⟩

theorem prefix_call (c : Connector) (a : Call) (way : Bool) : c.ends way <+: (c.call a).ends way := by
  rcases c.call_cases a with hext | ⟨weights, hcall⟩
  · exact hext.ends way
  · rw [hcall]
    exact List.prefix_refl _

theorem nodup_call (h : ∀ way, (c.ends way).Nodup) (a : Call) (way : Bool) :
    ((c.call a).ends way).Nodup := by
  rcases c.call_cases a with hext | ⟨weights, hcall⟩
  · exact hext.nodup h way
  · rw [hcall]
    exact h way

/-- The connector after some calls. -/
def run (c : Connector) (calls : List Call) : Connector := calls.foldl call c

theorem prefix_run (c : Connector) (calls : List Call) (way : Bool) :
    c.ends way <+: (c.run calls).ends way := by
  induction calls generalizing c with
  | nil => exact List.prefix_refl _
  | cons a calls ih => exact (c.prefix_call a way).trans (ih (c.call a))

theorem nodup_run (h : ∀ way, (c.ends way).Nodup) (calls : List Call) (way : Bool) :
    ((c.run calls).ends way).Nodup := by
  induction calls generalizing c with
  | nil => exact h way
  | cons a calls ih => exact ih (nodup_call h a)

/-! ## Leaps -/

/-- Steps are read off a row or a column of weights place by place. -/
theorem mem_steps_iff {weigh : Nat → Weight} {segments : List Segment} {s : Segment} :
    (⟨s, w⟩ : Step) ∈ steps ((List.range segments.length).map weigh) segments ↔
      w ≠ Weight.none ∧ ∃ k, segments[k]? = some s ∧ weigh k = w := by
  rw [steps, List.mem_filterMap]
  constructor
  · rintro ⟨⟨t, w'⟩, hentry, hstep⟩
    obtain ⟨k, hk⟩ := List.mem_iff_getElem?.mp hentry
    obtain ⟨hsegment, hweight⟩ := List.getElem?_zip_eq_some.mp hk
    rw [List.getElem?_map, Option.map_eq_some_iff] at hweight
    obtain ⟨k', hrange, hweight⟩ := hweight
    obtain ⟨hk', rfl⟩ := List.getElem?_eq_some_iff.mp hrange
    rw [List.getElem_range] at hweight
    simp only at hstep
    split at hstep
    · cases hstep
    · rename_i hsome
      obtain ⟨rfl, rfl⟩ := Step.mk.inj (Option.some.inj hstep)
      exact ⟨hsome, k, hsegment, hweight⟩
  · rintro ⟨hsome, k, hsegment, hweight⟩
    have hk : k < segments.length := (List.getElem?_eq_some_iff.mp hsegment).1
    refine ⟨(s, w), List.mem_iff_getElem?.mpr ⟨k, List.getElem?_zip_eq_some.mpr ⟨hsegment, ?_⟩⟩,
      if_neg hsome⟩
    rw [List.getElem?_map, List.getElem?_range hk, Option.map_some, hweight]

theorem mem_leapsFrom_iff : (⟨exit, w⟩ : Step) ∈ c.leapsFrom enter ↔ w ≠ Weight.none ∧
    ∃ i j, c.enterIndex? enter = some i ∧ c.exits[j]? = some exit ∧ c.weight i j = w := by
  rw [leapsFrom]
  cases hrow : c.enterIndex? enter with
  | none => simp
  | some i => simp [mem_steps_iff]

theorem mem_leapsTo_iff : (⟨enter, w⟩ : Step) ∈ c.leapsTo exit ↔ w ≠ Weight.none ∧
    ∃ i j, c.enters[i]? = some enter ∧ c.exitIndex? exit = some j ∧ c.weight i j = w := by
  rw [leapsTo]
  cases hcolumn : c.exitIndex? exit with
  | none => simp
  | some j => simp [mem_steps_iff]

theorem leap?_eq_some_iff : c.leap? enter exit = some w ↔ w ≠ Weight.none ∧
    ∃ i j, c.enterIndex? enter = some i ∧ c.exitIndex? exit = some j ∧ c.weight i j = w := by
  rw [leap?]
  cases c.enterIndex? enter with
  | none => simp
  | some i =>
    cases c.exitIndex? exit with
    | none => simp
    | some j =>
      show (if c.weight i j = Weight.none then none else some (c.weight i j)) = some w ↔ _
      have hplaces : (∃ i' j', some i = some i' ∧ some j = some j' ∧ c.weight i' j' = w)
          ↔ c.weight i j = w := by simp
      rw [hplaces]
      constructor
      · intro hleap
        split at hleap
        · cases hleap
        · rename_i hsome
          obtain rfl := Option.some.inj hleap
          exact ⟨hsome, rfl⟩
      · rintro ⟨hsome, rfl⟩
        exact if_neg hsome

/-- What holds of a connector after any calls.  No enter and no exit is listed twice, each is found in
its place in its list, and the place that it is given when it is registered is its place whatever is
called afterwards.  The leaps from an enter, the leaps to an exit and the leap between them agree, and
none of them has the weight of no way. -/
theorem run_agrees (calls : List Call) :
    let c := run {} calls
    (c.enters.Nodup ∧ c.exits.Nodup)
      ∧ (∀ s i, c.enterIndex? s = some i ↔ c.enters[i]? = some s)
      ∧ (∀ s j, c.exitIndex? s = some j ↔ c.exits[j]? = some s)
      ∧ (∀ s more, let later := (c.addEnter s).run more
        later.enterIndex? s = some (c.enterPlaces.placeOf s)
          ∧ later.enterPlaces.placeOf s = c.enterPlaces.placeOf s)
      ∧ (∀ s more, let later := (c.addExit s).run more
        later.exitIndex? s = some (c.exitPlaces.placeOf s)
          ∧ later.exitPlaces.placeOf s = c.exitPlaces.placeOf s)
      ∧ (∀ enter exit w, ((⟨exit, w⟩ : Step) ∈ c.leapsFrom enter ↔ c.leap? enter exit = some w)
        ∧ ((⟨enter, w⟩ : Step) ∈ c.leapsTo exit ↔ c.leap? enter exit = some w))
      ∧ ∀ enter exit, c.leap? enter exit ≠ some Weight.none := by
  intro c
  have hnodup : ∀ way, (c.ends way).Nodup :=
    nodup_run (by intro way; cases way <;> exact List.nodup_nil) calls
  have henters : ∀ s i, c.enterIndex? s = some i ↔ c.enters[i]? = some s := fun _ _ =>
    c.enterPlaces.index_eq_some_iff (hnodup true)
  have hexits : ∀ s j, c.exitIndex? s = some j ↔ c.exits[j]? = some s := fun _ _ =>
    c.exitPlaces.index_eq_some_iff (hnodup false)
  refine ⟨⟨hnodup true, hnodup false⟩, henters, hexits, fun s more => ?_, fun s more => ?_,
    fun enter exit w => ⟨?_, ?_⟩, fun enter exit h => (leap?_eq_some_iff.mp h).1 rfl⟩
  · have hplace := (c.addEnter s).enterPlaces.index_of_extends ((c.addEnter s).run more).enterPlaces
      ((c.addEnter s).prefix_run more true) (c.enterPlaces.index_register_self s)
    exact ⟨hplace, Places.placeOf_eq _ hplace⟩
  · have hplace := (c.addExit s).exitPlaces.index_of_extends ((c.addExit s).run more).exitPlaces
      ((c.addExit s).prefix_run more false) (c.exitPlaces.index_register_self s)
    exact ⟨hplace, Places.placeOf_eq _ hplace⟩
  · simp only [mem_leapsFrom_iff, leap?_eq_some_iff, hexits]
  · simp only [mem_leapsTo_iff, leap?_eq_some_iff, henters]

end Connector

end Crossroads

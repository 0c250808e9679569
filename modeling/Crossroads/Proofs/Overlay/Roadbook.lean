import Crossroads.Overlay.Roadbook
import Crossroads.Proofs.Coordinate
import Mathlib.Data.List.Induction

/-!
# What a roadbook keeps

A roadbook files the stretches of its roads in an index.  When a road is replaced, the stretches of
the old one leave the index one by one.  As long as all coordinates are numbers, the index holds just
the stretches of the present roads then, however the roadbook came about (`Roadbook.Kept`).  Nothing
is asked of the index but its laws (`StretchIndex.Lawful`).

* `Roadbook.Kept.addAll`, `Roadbook.kept_ofFeatures` — road by road, or all at once.
* `Roadbook.Kept.near_eq`, `Roadbook.Kept.perm_current` — what follows for the roads near a point and
  for the stretches.
-/

namespace Crossroads

variable {K : Type} [Scalar K]

/-! ## The stretches of a road -/

namespace RoadLine

/-- All coordinates of a road are numbers. -/
def IsMeasured (road : RoadLine K) : Prop := ∀ v ∈ road.junctions, (v.point == v.point) = true

instance (road : RoadLine K) : Decidable road.IsMeasured :=
  inferInstanceAs (Decidable (∀ v ∈ road.junctions, (v.point == v.point) = true))

end RoadLine

namespace Stretch

variable {id : FeatureId} {road : RoadLine K} {s t : Stretch K}

omit [Scalar K] in
theorem mem_ofRoad_iff : s ∈ ofRoad id road ↔ ∃ i a b, road.junctions[i]? = some a
    ∧ road.junctions[i + 1]? = some b ∧ s = ⟨a.point, b.point, id, UInt32.ofNat i⟩ := by
  rw [ofRoad, List.mem_map]
  constructor
  · rintro ⟨⟨⟨a, b⟩, i⟩, hpair, rfl⟩
    rw [List.mem_zipIdx_iff_getElem?, List.getElem?_zip_eq_some, List.getElem?_tail] at hpair
    exact ⟨i, a, b, hpair.1, hpair.2, rfl⟩
  · rintro ⟨i, a, b, ha, hb, rfl⟩
    refine ⟨((a, b), i), ?_, rfl⟩
    rw [List.mem_zipIdx_iff_getElem?, List.getElem?_zip_eq_some, List.getElem?_tail]
    exact ⟨ha, hb⟩

omit [Scalar K] in
theorem length_ofRoad (id : FeatureId) (road : RoadLine K) :
    (ofRoad id road).length = road.junctions.length - 1 := by
  rw [ofRoad, List.length_map, List.length_zipIdx, List.length_zip, List.length_tail]
  omega

omit [Scalar K] in
theorem feature_of_mem_ofRoad (h : s ∈ ofRoad id road) : s.feature = id := by
  obtain ⟨i, a, b, -, -, rfl⟩ := mem_ofRoad_iff.mp h
  rfl

theorem isMeasured_of_mem_ofRoad (hroad : road.IsMeasured) (h : s ∈ ofRoad id road) :
    s.isMeasured = true := by
  obtain ⟨i, a, b, ha, hb, rfl⟩ := mem_ofRoad_iff.mp h
  rw [isMeasured, Bool.and_eq_true]
  exact ⟨hroad a (List.mem_of_getElem? ha), hroad b (List.mem_of_getElem? hb)⟩

theorem beq_iff : (s == t) = true
    ↔ (((s.a == t.a) = true ∧ (s.b == t.b) = true) ∧ s.feature = t.feature) ∧ s.index = t.index := by
  show (s.a == t.a && s.b == t.b && s.feature == t.feature && s.index == t.index) = true ↔ _
  simp only [Bool.and_eq_true, beq_iff_eq]

theorem feature_eq_of_beq (h : (s == t) = true) : s.feature = t.feature := (beq_iff.mp h).1.2

/-- A stretch is equal to itself just if its coordinates are numbers. -/
theorem beq_self (h : s.isMeasured = true) : (s == s) = true := by
  rw [isMeasured, Bool.and_eq_true] at h
  exact beq_iff.mpr ⟨⟨h, rfl⟩, rfl⟩

instance [PartialEquivBEq K] : PartialEquivBEq (Point K) where
  symm {p q} h := by
    obtain ⟨hx, hy⟩ := Bool.and_eq_true_iff.mp h
    exact Bool.and_eq_true_iff.mpr ⟨BEq.symm hx, BEq.symm hy⟩
  trans {p q r} h h' := by
    obtain ⟨hx, hy⟩ := Bool.and_eq_true_iff.mp h
    obtain ⟨hx', hy'⟩ := Bool.and_eq_true_iff.mp h'
    exact Bool.and_eq_true_iff.mpr ⟨BEq.trans hx hx', BEq.trans hy hy'⟩

instance [PartialEquivBEq K] : PartialEquivBEq (Stretch K) where
  symm {s t} h := by
    obtain ⟨⟨⟨ha, hb⟩, hfeature⟩, hindex⟩ := beq_iff.mp h
    exact beq_iff.mpr ⟨⟨⟨BEq.symm ha, BEq.symm hb⟩, hfeature.symm⟩, hindex.symm⟩
  trans {s t u} h h' := by
    obtain ⟨⟨⟨ha, hb⟩, hfeature⟩, hindex⟩ := beq_iff.mp h
    obtain ⟨⟨⟨ha', hb'⟩, hfeature'⟩, hindex'⟩ := beq_iff.mp h'
    exact beq_iff.mpr
      ⟨⟨⟨BEq.trans ha ha', BEq.trans hb hb'⟩, hfeature.trans hfeature'⟩, hindex.trans hindex'⟩

/-! ## Stretches by feature -/

/-- The stretches of a feature in a list. -/
def ofFeature (id : FeatureId) (stretches : List (Stretch K)) : List (Stretch K) :=
  stretches.filter (·.feature == id)

omit [Scalar K] in
theorem mem_ofFeature_iff {l : List (Stretch K)} :
    s ∈ ofFeature id l ↔ s ∈ l ∧ s.feature = id := by
  rw [ofFeature, List.mem_filter, beq_iff_eq]

omit [Scalar K] in
theorem ofFeature_ofRoad (id : FeatureId) (road : RoadLine K) :
    ofFeature id (ofRoad id road) = ofRoad id road :=
  List.filter_eq_self.mpr fun _ hs => beq_iff_eq.mpr (feature_of_mem_ofRoad hs)

omit [Scalar K] in
theorem ofFeature_ofRoad_of_ne {other : FeatureId} (hne : id ≠ other) (road : RoadLine K) :
    ofFeature other (ofRoad id road) = [] :=
  List.filter_eq_nil_iff.mpr fun _ hs heq =>
    hne ((feature_of_mem_ofRoad hs).symm.trans (beq_iff_eq.mp heq))

/-! ## Taking out stretches -/

variable {before after : List (Stretch K)}

theorem TakesOut.allMeasured (h : TakesOut s before after) (hbefore : AllMeasured before) :
    AllMeasured after := by
  intro t ht
  cases h with
  | found _ hperm => exact hbefore t (hperm.mem_iff.mpr (List.mem_cons_of_mem _ ht))
  | missing _ hperm => exact hbefore t (hperm.mem_iff.mpr ht)

/-- The stretches of other features stay. -/
theorem TakesOut.perm_ofFeature (h : TakesOut s before after) (hne : s.feature ≠ id) :
    (ofFeature id after).Perm (ofFeature id before) := by
  cases h with
  | found hsame hperm =>
    have hkept := hperm.filter (·.feature == id)
    rw [List.filter_cons_of_neg] at hkept
    · exact hkept.symm
    · rw [beq_iff_eq, feature_eq_of_beq hsame]
      exact hne
  | missing _ hperm => exact (hperm.filter _).symm

/-- If there is an equal stretch, there is one less of its kind then, and as many of all others. -/
theorem TakesOut.countP [PartialEquivBEq K] (h : TakesOut s before after)
    (hs : ∃ t ∈ before, (t == s) = true) (x : Stretch K) :
    before.countP (· == x) = after.countP (· == x) + if (s == x) = true then 1 else 0 := by
  cases h with
  | found hsame hperm => rw [hperm.countP_eq, List.countP_cons, BEq.congr_left hsame]
  | missing hnone _ =>
    obtain ⟨t, ht, hsame⟩ := hs
    exact absurd hsame (Bool.eq_false_iff.mp (hnone t ht))

theorem countP_ofFeature (l : List (Stretch K)) (x : Stretch K) :
    (ofFeature x.feature l).countP (· == x) = l.countP (· == x) := by
  rw [ofFeature, List.countP_filter]
  refine List.countP_congr fun t _ => ?_
  rw [Bool.and_eq_true, beq_iff_eq (α := FeatureId)]
  exact and_iff_left_of_imp feature_eq_of_beq

end Stretch

/-! ## Indexes -/

namespace StretchIndex

variable {index : StretchIndex K} [index.Lawful]

theorem perm_foldl_insert (added : List (Stretch K)) (q : index.State) :
    (index.contents (added.foldl index.insert q)).Perm (added ++ index.contents q) := by
  induction added generalizing q with
  | nil => exact .refl _
  | cons s added ih =>
    calc index.contents (added.foldl index.insert (index.insert q s))
      _ |>.Perm (added ++ index.contents (index.insert q s)) := ih _
      _ |>.Perm (added ++ s :: index.contents q) := (Lawful.contents_insert q s).append_left added
      _ |>.Perm (s :: (added ++ index.contents q)) := List.perm_middle

variable {q : index.State} {gone : List (Stretch K)} {id : FeatureId}

theorem allMeasured_foldl_remove (h : Stretch.AllMeasured (index.contents q))
    (gone : List (Stretch K)) :
    Stretch.AllMeasured (index.contents (gone.foldl index.remove q)) := by
  induction gone generalizing q with
  | nil => exact h
  | cons s gone ih => exact ih ((Lawful.contents_remove s h).allMeasured h)

theorem perm_ofFeature_foldl_remove (h : Stretch.AllMeasured (index.contents q))
    (hne : ∀ s ∈ gone, s.feature ≠ id) :
    (Stretch.ofFeature id (index.contents (gone.foldl index.remove q))).Perm
      (Stretch.ofFeature id (index.contents q)) := by
  induction gone generalizing q with
  | nil => exact .refl _
  | cons s gone ih =>
    have hout := Lawful.contents_remove s h
    exact (ih (hout.allMeasured h) fun t ht => hne t (List.mem_cons_of_mem _ ht)).trans
      (hout.perm_ofFeature (hne s List.mem_cons_self))

/-- Of a feature whose stretches are taken out one by one none is left.  Which of several equal
stretches leaves is open, so what is still to go is what is left only up to equality. -/
theorem ofFeature_foldl_remove_eq_nil [PartialEquivBEq K]
    (h : Stretch.AllMeasured (index.contents q))
    (hgone : ∀ s ∈ gone, s.isMeasured = true ∧ s.feature = id)
    (hleft : ∀ x : Stretch K, x.feature = id →
      (index.contents q).countP (· == x) = gone.countP (· == x)) :
    Stretch.ofFeature id (index.contents (gone.foldl index.remove q)) = [] := by
  induction gone generalizing q with
  | nil =>
    refine List.eq_nil_iff_forall_not_mem.mpr fun s hs => ?_
    obtain ⟨hs, hfeature⟩ := Stretch.mem_ofFeature_iff.mp hs
    exact List.countP_eq_zero.mp (hleft s hfeature) s hs (Stretch.beq_self (h s hs))
  | cons s gone ih =>
    obtain ⟨hmeasured, hfeature⟩ := hgone s List.mem_cons_self
    have hfound : ∃ t ∈ index.contents q, (t == s) = true := by
      rw [← List.countP_pos_iff, hleft s hfeature,
        List.countP_cons_of_pos (p := (· == s)) (Stretch.beq_self hmeasured)]
      exact Nat.succ_pos _
    have hout := Lawful.contents_remove s h
    refine ih (hout.allMeasured h) (fun t ht => hgone t (List.mem_cons_of_mem _ ht)) fun x hx => ?_
    have hcount := hleft x hx
    rw [hout.countP hfound, List.countP_cons] at hcount
    exact Nat.add_right_cancel hcount

end StretchIndex

/-! ## Roadbooks -/

namespace Roadbook

variable {index : StretchIndex K}

/-- The index of a roadbook holds the stretches of the present roads and no others, and all
coordinates are numbers. -/
structure Kept (book : Roadbook index) : Prop where
  filed : ∀ id, (Stretch.ofFeature id (index.contents book.stretches)).Perm
    (book.roads[id]?.elim [] (Stretch.ofRoad id))
  measured : Stretch.AllMeasured (index.contents book.stretches)

section

variable [index.Lawful]

theorem kept_new (mode : Mode) (maxSpeed : Float) :
    Kept ({ mode, maxSpeed } : Roadbook index) where
  filed id := by
    rw [Std.TreeMap.getElem?_emptyc]
    show (Stretch.ofFeature id (index.contents index.empty)).Perm []
    rw [StretchIndex.Lawful.contents_empty]
    exact .refl _
  measured := by
    show Stretch.AllMeasured (index.contents index.empty)
    rw [StretchIndex.Lawful.contents_empty]
    exact nofun

variable {book : Roadbook index} [PartialEquivBEq K]

/-- What is left in the index before the stretches of a new road come in. -/
theorem Kept.perm_left (h : book.Kept) {id : FeatureId} {old : RoadLine K}
    (hold : book.roads[id]? = some old) (other : FeatureId) :
    (Stretch.ofFeature other
        (index.contents ((Stretch.ofRoad id old).foldl index.remove book.stretches))).Perm
      (if id = other then [] else Stretch.ofFeature other (index.contents book.stretches)) := by
  have hfiled := h.filed id
  rw [hold, Option.elim_some] at hfiled
  have hgone : ∀ s ∈ Stretch.ofRoad id old, s.isMeasured = true ∧ s.feature = id := by
    intro s hs
    rw [← hfiled.mem_iff, Stretch.mem_ofFeature_iff] at hs
    exact ⟨h.measured s hs.1, hs.2⟩
  split
  · rename_i heq
    subst heq
    rw [StretchIndex.ofFeature_foldl_remove_eq_nil h.measured hgone]
    rintro x rfl
    rw [← Stretch.countP_ofFeature, hfiled.countP_eq]
  · rename_i hne
    exact StretchIndex.perm_ofFeature_foldl_remove h.measured
      fun s hs heq => hne ((hgone s hs).2.symm.trans heq)

/-- Adding or replacing a road keeps the index in step. -/
theorem Kept.add (h : book.Kept) (id : FeatureId) {road : RoadLine K} (hroad : road.IsMeasured) :
    (book.add id road).Kept := by
  -- what is left in the index is nothing of the road, and everything else
  have hleft : ∃ left : index.State, Stretch.AllMeasured (index.contents left)
      ∧ (∀ other, (Stretch.ofFeature other (index.contents left)).Perm
        (if id = other then [] else Stretch.ofFeature other (index.contents book.stretches)))
      ∧ (book.add id road).stretches = (Stretch.ofRoad id road).foldl index.insert left := by
    unfold Roadbook.add
    cases hold : book.roads[id]? with
    | some old =>
      exact ⟨_, StretchIndex.allMeasured_foldl_remove h.measured _, h.perm_left hold, rfl⟩
    | none =>
      refine ⟨book.stretches, h.measured, fun other => ?_, rfl⟩
      split
      · rename_i heq
        have hfiled := h.filed other
        rwa [← heq, hold, Option.elim_none, heq] at hfiled
      · exact .refl _
  obtain ⟨left, hmeasured, hother, hstretches⟩ := hleft
  have hcontents := StretchIndex.perm_foldl_insert (Stretch.ofRoad id road) left
  rw [← hstretches] at hcontents
  constructor
  · intro other
    have hparts := hcontents.filter (·.feature == other)
    rw [List.filter_append] at hparts
    refine hparts.trans (((hother other).append_left _).trans ?_)
    show (Stretch.ofFeature other _ ++ _).Perm ((book.roads.insert id road)[other]?.elim [] _)
    rw [Std.TreeMap.getElem?_insert]
    by_cases heq : id = other
    · rw [if_pos heq, if_pos (Std.compare_eq_iff_eq.mpr heq), ← heq, Stretch.ofFeature_ofRoad,
        List.append_nil]
      exact .refl _
    · rw [if_neg heq, if_neg fun h => heq (Std.compare_eq_iff_eq.mp h),
        Stretch.ofFeature_ofRoad_of_ne heq, List.nil_append]
      exact h.filed other
  · intro s hs
    rcases List.mem_append.mp (hcontents.mem_iff.mp hs) with hnew | hold
    · exact Stretch.isMeasured_of_mem_ofRoad hroad hnew
    · exact hmeasured s hold

end

/-- Adds or replaces one road after another. -/
def addAll (book : Roadbook index) (roads : List (FeatureId × RoadLine K)) : Roadbook index :=
  roads.foldl (fun book (id, road) => book.add id road) book

theorem Kept.addAll [index.Lawful] [PartialEquivBEq K] {book : Roadbook index} (h : book.Kept)
    {roads : List (FeatureId × RoadLine K)}
    (hroads : ∀ entry ∈ roads, entry.2.IsMeasured) : (book.addAll roads).Kept := by
  induction roads generalizing book with
  | nil => exact h
  | cons entry roads ih =>
    exact ih (h.add entry.1 (hroads entry List.mem_cons_self))
      fun entry' hmem => hroads entry' (List.mem_cons_of_mem _ hmem)

/-! ## How a roadbook comes about -/

/-- The last road of a feature in a list. -/
def lastRoad? (id : FeatureId) (roads : List (FeatureId × RoadLine K)) : Option (RoadLine K) :=
  (roads.reverse.find? (·.1 == id)).map Prod.snd

omit [Scalar K] in
theorem lastRoad?_concat (id : FeatureId) (roads : List (FeatureId × RoadLine K))
    (entry : FeatureId × RoadLine K) : lastRoad? id (roads ++ [entry])
      = if entry.1 = id then some entry.2 else lastRoad? id roads := by
  rw [lastRoad?, List.reverse_concat, List.find?_cons]
  split
  · rename_i heq
    rw [if_pos (beq_iff_eq.mp heq), Option.map_some]
  · rename_i hne
    rw [if_neg fun heq => Bool.eq_false_iff.mp hne (beq_iff_eq.mpr heq), lastRoad?]

omit [Scalar K] in
/-- Of each feature the last road stays. -/
theorem getElem?_roads_addAll (book : Roadbook index) (roads : List (FeatureId × RoadLine K))
    (id : FeatureId) : (book.addAll roads).roads[id]? = (lastRoad? id roads).or book.roads[id]? := by
  induction roads using List.reverseRecOn with
  | nil => rfl
  | append_singleton roads entry ih =>
    rw [addAll, List.foldl_append, lastRoad?_concat]
    show ((book.addAll roads).roads.insert entry.1 entry.2)[id]? = _
    rw [Std.TreeMap.getElem?_insert, ih]
    by_cases heq : entry.1 = id
    · rw [if_pos heq, if_pos (Std.compare_eq_iff_eq.mpr heq), Option.some_or]
    · rw [if_neg heq, if_neg fun h => heq (Std.compare_eq_iff_eq.mp h)]

omit [Scalar K] in
theorem mode_addAll (book : Roadbook index) (roads : List (FeatureId × RoadLine K)) :
    (book.addAll roads).mode = book.mode := by
  induction roads generalizing book with
  | nil => rfl
  | cons entry roads ih => exact ih (book.add entry.1 entry.2)

omit [Scalar K] in
theorem maxSpeed_addAll (book : Roadbook index) (roads : List (FeatureId × RoadLine K)) :
    (book.addAll roads).maxSpeed = book.maxSpeed := by
  induction roads generalizing book with
  | nil => rfl
  | cons entry roads ih => exact ih (book.add entry.1 entry.2)

omit [Scalar K] in
theorem roads_addAll (book : Roadbook index) (roads : List (FeatureId × RoadLine K)) :
    (book.addAll roads).roads
      = roads.foldl (fun kept (id, road) => kept.insert id road) book.roads := by
  induction roads generalizing book with
  | nil => rfl
  | cons entry roads ih => exact ih (book.add entry.1 entry.2)

/-- The features that are roads for a model, as roads. -/
def accepted (model : Model) (features : List Feature) :
    List (FeatureId × RoadLine Coordinate) :=
  features.filterMap fun f => (lineOfFeature? model f).map (f.id, ·)

/-- Loaded at once, roads stay as if they had been added one by one. -/
theorem roads_ofFeatures {index : StretchIndex Coordinate} (model : Model) (mode : Mode)
    (features : List Feature) : (ofFeatures model mode features : Roadbook index).roads
      = (({ mode, maxSpeed := model.maxSpeed } : Roadbook index).addAll
        (accepted model features)).roads := by
  rw [roads_addAll, accepted, List.foldl_filterMap]
  show features.foldl _ _ = _
  congr 1
  funext roads f
  cases lineOfFeature? model f with
  | none => rfl
  | some road => rfl

/-! ## The present stretches -/

/-- The stretches of the present roads. -/
def current (book : Roadbook index) : List (Stretch K) :=
  book.roads.toList.flatMap fun (id, road) => Stretch.ofRoad id road

omit [Scalar K] in
theorem mem_current_iff {book : Roadbook index} {s : Stretch K} :
    s ∈ book.current ↔ ∃ id road i a b, book.roads[id]? = some road
      ∧ road.junctions[i]? = some a ∧ road.junctions[i + 1]? = some b
      ∧ s = ⟨a.point, b.point, id, UInt32.ofNat i⟩ := by
  rw [current, List.mem_flatMap]
  constructor
  · rintro ⟨⟨id, road⟩, hentry, hs⟩
    obtain ⟨i, a, b, ha, hb, heq⟩ := Stretch.mem_ofRoad_iff.mp hs
    exact ⟨id, road, i, a, b, Std.TreeMap.mem_toList_iff_getElem?_eq_some.mp hentry, ha, hb, heq⟩
  · rintro ⟨id, road, i, a, b, hroad, ha, hb, heq⟩
    exact ⟨(id, road), Std.TreeMap.mem_toList_iff_getElem?_eq_some.mpr hroad,
      Stretch.mem_ofRoad_iff.mpr ⟨i, a, b, ha, hb, heq⟩⟩

omit [Scalar K] in
theorem ofFeature_flatMap_of_forall_ne {id : FeatureId} {roads : List (FeatureId × RoadLine K)}
    (h : ∀ entry ∈ roads, entry.1 ≠ id) :
    Stretch.ofFeature id (roads.flatMap fun (id, road) => Stretch.ofRoad id road) = [] := by
  refine List.filter_eq_nil_iff.mpr fun s hs heq => ?_
  obtain ⟨entry, hentry, hs⟩ := List.mem_flatMap.mp hs
  exact h entry hentry ((Stretch.feature_of_mem_ofRoad hs).symm.trans (beq_iff_eq.mp heq))

omit [Scalar K] in
theorem ofFeature_flatMap_of_mem {id : FeatureId} {road : RoadLine K}
    {roads : List (FeatureId × RoadLine K)} (hdistinct : roads.Pairwise fun x y => x.1 ≠ y.1)
    (hmem : (id, road) ∈ roads) :
    Stretch.ofFeature id (roads.flatMap fun (id, road) => Stretch.ofRoad id road)
      = Stretch.ofRoad id road := by
  obtain ⟨before, after, rfl⟩ := List.append_of_mem hmem
  obtain ⟨-, hafter, hbefore⟩ := List.pairwise_append.mp hdistinct
  have hearlier := ofFeature_flatMap_of_forall_ne fun entry hentry =>
    hbefore entry hentry (id, road) List.mem_cons_self
  have hlater := ofFeature_flatMap_of_forall_ne fun entry hentry heq =>
    (List.pairwise_cons.mp hafter).1 entry hentry heq.symm
  rw [List.flatMap_append, List.flatMap_cons, Stretch.ofFeature, List.filter_append,
    List.filter_append]
  show Stretch.ofFeature id _ ++ (Stretch.ofFeature id (Stretch.ofRoad id road)
    ++ Stretch.ofFeature id _) = _
  rw [hearlier, hlater, Stretch.ofFeature_ofRoad, List.nil_append, List.append_nil]

omit [Scalar K] in
theorem ofFeature_current (book : Roadbook index) (id : FeatureId) :
    Stretch.ofFeature id book.current = book.roads[id]?.elim [] (Stretch.ofRoad id) := by
  cases hroad : book.roads[id]? with
  | some road =>
    have hdistinct : book.roads.toList.Pairwise fun x y => x.1 ≠ y.1 :=
      Std.TreeMap.distinct_keys_toList.imp fun hne heq => hne (Std.compare_eq_iff_eq.mpr heq)
    exact ofFeature_flatMap_of_mem hdistinct (Std.TreeMap.mem_toList_iff_getElem?_eq_some.mpr hroad)
  | none =>
    refine ofFeature_flatMap_of_forall_ne ?_
    rintro ⟨id', road⟩ hentry rfl
    rw [Std.TreeMap.mem_toList_iff_getElem?_eq_some.mp hentry] at hroad
    cases hroad

/-- The lists hold the same elements, equally often, if they do for each key. -/
theorem perm_of_filter_perm {α κ : Type} [BEq κ] [ReflBEq κ] (key : α → κ) {l l' : List α}
    (h : ∀ k, (l.filter (key · == k)).Perm (l'.filter (key · == k))) : l.Perm l' := by
  classical
  rw [List.perm_iff_count]
  intro a
  have hself : (key a == key a) = true := BEq.rfl
  rw [← List.count_filter (p := (key · == key a)) hself,
    ← List.count_filter (l := l') (p := (key · == key a)) hself, (h (key a)).count_eq]

/-- The index of a roadbook holds just the present stretches. -/
theorem Kept.perm_current {book : Roadbook index} (h : book.Kept) :
    (index.contents book.stretches).Perm book.current := by
  refine perm_of_filter_perm Stretch.feature fun id => (h.filed id).trans ?_
  rw [← ofFeature_current]
  exact .refl _

/-- Roads loaded at once are kept as if they had been added one by one. -/
theorem kept_ofFeatures {index : StretchIndex Coordinate} [index.Lawful] {model : Model}
    {features : List Feature} (mode : Mode)
    (hroads : ∀ entry ∈ accepted model features, entry.2.IsMeasured) :
    (ofFeatures model mode features : Roadbook index).Kept := by
  have hone : (({ mode, maxSpeed := model.maxSpeed } : Roadbook index).addAll
      (accepted model features)).Kept := (kept_new mode model.maxSpeed).addAll hroads
  set book : Roadbook index := ofFeatures model mode features
  have hstretches : (index.contents book.stretches).Perm book.current :=
    StretchIndex.Lawful.contents_ofList _
  constructor
  · intro id
    rw [← ofFeature_current]
    exact hstretches.filter _
  · intro s hs
    rw [hstretches.mem_iff, current, roads_ofFeatures] at hs
    exact hone.measured s (hone.perm_current.mem_iff.mpr hs)

/-! ## Roads near a point -/

/-- The roads near a point are those with a stretch within reach. -/
theorem Kept.near_eq [index.Lawful] {book : Roadbook index} (h : book.Kept) (p : Point K) :
    book.near p = book.roads.toList.filter fun (id, road) =>
      (Stretch.ofRoad id road).any (Stretch.isWithin reach p) := by
  refine List.filter_congr ?_
  rintro ⟨id, road⟩ hentry
  have hfiled := h.filed id
  rw [Std.TreeMap.mem_toList_iff_getElem?_eq_some.mp hentry, Option.elim_some] at hfiled
  have hwithin := StretchIndex.Lawful.within_perm reach p h.measured
  rw [Bool.eq_iff_iff, List.contains_iff_mem, List.any_eq_true, List.mem_map]
  constructor
  · rintro ⟨s, hs, rfl⟩
    obtain ⟨hs, hnear⟩ := List.mem_filter.mp (hwithin.mem_iff.mp hs)
    exact ⟨s, hfiled.mem_iff.mp (Stretch.mem_ofFeature_iff.mpr ⟨hs, rfl⟩), hnear⟩
  · rintro ⟨s, hs, hnear⟩
    obtain ⟨hs, hfeature⟩ := Stretch.mem_ofFeature_iff.mp (hfiled.mem_iff.mpr hs)
    exact ⟨s, hwithin.mem_iff.mpr (List.mem_filter.mpr ⟨hs, hnear⟩), hfeature⟩

end Roadbook

end Crossroads

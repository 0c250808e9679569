import Crossroads.Proofs.Overflow
import Crossroads.Proofs.Overlay.Regular
import Crossroads.Proofs.Overlay.Roadbook

/-!
# Answers of a roadbook

What a roadbook answers depends on its present roads, and not on the roads that were replaced by them
or on how they came in (`Roadbook.Alike`).  A search for the edges closest to a point goes through the
stretches of the present roads in a row, the closest first, and takes the first ones.  Which row that
is among several with equally far stretches is up to the index; any two of them have equally far
stretches in each place (`forall₂_of_perm`).

No distance need be a number.  Those among coordinates of a moderate size are
(`Roadbook.isMeasuredFrom_of_moderate`).

* `Roadbook.answers_addAll` — histories that leave the same roads, and what a search finds.
-/

namespace Crossroads

/-! ## Rows -/

section Rows

variable {α : Type} {r : α → α → Bool} {l l' : List α}
  (htotal : ∀ a b, r a b = true ∨ r b a = true)
  (htrans : ∀ a b c, r a b = true → r b c = true → r a c = true)

include htotal in
theorem countP_pos_of_total (a : α) (l : List α) : 0 < (a :: l).countP (r · a) :=
  List.countP_pos_iff.mpr ⟨a, List.mem_cons_self, (htotal a a).elim id id⟩

include htrans in
/-- The first of a row comes before whatever something in the row comes before. -/
theorem first_of_countP_pos {a b : α} (hl : (a :: l).Pairwise fun a b => r a b = true)
    (hpos : 0 < (a :: l).countP (r · b)) : r a b = true := by
  obtain ⟨x, hx, hxb⟩ := List.countP_pos_iff.mp hpos
  rcases List.mem_cons.mp hx with rfl | hx
  · exact hxb
  · exact htrans a x b ((List.pairwise_cons.mp hl).1 x hx) hxb

include htotal htrans in
/-- Rows in order agree in each place, up to elements that are in order either way, if as many
elements of the one come before something as of the other. -/
theorem forall₂_of_countP_eq (hcount : ∀ c, l.countP (r · c) = l'.countP (r · c))
    (hlength : l.length = l'.length) (h : l.Pairwise fun a b => r a b = true)
    (h' : l'.Pairwise fun a b => r a b = true) :
    List.Forall₂ (fun a b => r a b = true ∧ r b a = true) l l' := by
  induction l generalizing l' with
  | nil =>
    rw [List.eq_nil_of_length_eq_zero hlength.symm]
    exact .nil
  | cons a l ih =>
    cases l' with
    | nil => exact absurd hlength (Nat.succ_ne_zero _)
    | cons b l' =>
      have hab : r a b = true := by
        refine first_of_countP_pos htrans h ?_
        rw [hcount b]
        exact countP_pos_of_total htotal b l'
      have hba : r b a = true := by
        refine first_of_countP_pos htrans h' ?_
        rw [← hcount a]
        exact countP_pos_of_total htotal a l
      refine .cons ⟨hab, hba⟩ (ih (fun c => ?_) (Nat.succ.inj hlength) h.of_cons h'.of_cons)
      have hsame : r a c = r b c := Bool.eq_iff_iff.mpr ⟨htrans b a c hba, htrans a b c hab⟩
      have hc := hcount c
      rw [List.countP_cons, List.countP_cons, hsame] at hc
      exact Nat.add_right_cancel hc

include htotal htrans in
/-- Rows of the same elements, both in order, agree up to elements that are in order either way. -/
theorem forall₂_of_perm (hperm : l.Perm l') (h : l.Pairwise fun a b => r a b = true)
    (h' : l'.Pairwise fun a b => r a b = true) :
    List.Forall₂ (fun a b => r a b = true ∧ r b a = true) l l' :=
  forall₂_of_countP_eq htotal htrans (fun _ => hperm.countP_eq _) hperm.length_eq h h'

end Rows

namespace Roadbook

/-! ## The edges along the present stretches -/

theorem length_current {K : Type} {index : StretchIndex K} (book : Roadbook index) : book.current.length
    = (book.roads.toList.map fun entry => entry.2.junctions.length - 1).sum := by
  rw [current, List.length_flatMap]
  congr 2
  funext entry
  exact Stretch.length_ofRoad entry.1 entry.2

variable {K : Type} {index : StretchIndex K} [Scalar K] {book : Roadbook index} {s t : Stretch K}

/-- The indexes of segments are words, so that an index tells the place of a segment. -/
theorem toNat_index (h : book.source.Indexable) {id : FeatureId} {road : RoadLine K} {i : ℕ}
    {b : Junction K} (hroad : book.roads[id]? = some road) (hb : road.junctions[i + 1]? = some b) :
    (UInt32.ofNat i).toNat = i := by
  have hlength := h id road hroad
  have hlt := (List.getElem?_eq_some_iff.mp hb).1
  exact UInt32.toNat_ofNat_of_lt' (by omega)

theorem edge?_eq (h : book.source.Indexable) {id : FeatureId} {road : RoadLine K} {i : ℕ}
    {a b : Junction K} (hroad : book.roads[id]? = some road) (ha : road.junctions[i]? = some a)
    (hb : road.junctions[i + 1]? = some b) :
    book.edge? ⟨a.point, b.point, id, UInt32.ofNat i⟩ = some (.along id i true a b) := by
  simp only [edge?, toNat_index h hroad hb, hroad, ha, hb, Option.bind_eq_bind, Option.bind_some]
  rfl

theorem isSome_edge? (h : book.source.Indexable) (hs : s ∈ book.current) :
    (book.edge? s).isSome = true := by
  obtain ⟨id, road, i, a, b, hroad, ha, hb, rfl⟩ := mem_current_iff.mp hs
  rw [edge?_eq h hroad ha hb]
  rfl

/-- No stretch is present twice. -/
theorem pairwise_current (h : book.source.Indexable) :
    book.current.Pairwise fun s t => ¬ (s.feature = t.feature ∧ s.index = t.index) := by
  rw [current, List.pairwise_flatMap]
  constructor
  · rintro ⟨id, road⟩ hentry
    have hlength := h id road (Std.TreeMap.mem_toList_iff_getElem?_eq_some.mp hentry)
    have hcount := Stretch.length_ofRoad id road
    rw [List.pairwise_iff_getElem]
    intro i j hi hj hlt heq
    simp only [Stretch.ofRoad, List.getElem_map, List.getElem_zipIdx, Nat.zero_add] at heq
    have hword {k : ℕ} (hk : k < (Stretch.ofRoad id road).length) : (UInt32.ofNat k).toNat = k :=
      UInt32.toNat_ofNat_of_lt' (by omega)
    have hsame := congrArg UInt32.toNat heq.2
    rw [hword hi, hword hj] at hsame
    omega
  · have hdistinct := Std.TreeMap.distinct_keys_toList (t := book.roads)
    refine hdistinct.imp fun hne s hs t ht heq => hne (Std.compare_eq_iff_eq.mpr ?_)
    rw [← Stretch.feature_of_mem_ofRoad hs, ← Stretch.feature_of_mem_ofRoad ht, heq.1]

end Roadbook

/-! ## Searches -/

/-- Where each element has an image, the first images are those of the first elements. -/
theorem take_filterMap {α β : Type} {f : α → Option β} {l : List α}
    (h : ∀ x ∈ l, (f x).isSome = true) (n : ℕ) :
    (l.filterMap f).take n = (l.take n).filterMap f := by
  induction l generalizing n with
  | nil => simp
  | cons x l ih =>
    obtain ⟨y, hy⟩ := Option.isSome_iff_exists.mp (h x List.mem_cons_self)
    cases n with
    | zero => rfl
    | succ n =>
      rw [List.filterMap_cons_some hy, List.take_succ_cons, List.take_succ_cons,
        List.filterMap_cons_some hy, ih fun z hz => h z (List.mem_cons_of_mem _ hz)]

namespace Roadbook

variable {index : StretchIndex Coordinate} {book book' : Roadbook index} {p : Point Coordinate}

/-- The distances of all present stretches from a point are numbers. -/
def IsMeasuredFrom (book : Roadbook index) (p : Point Coordinate) : Prop :=
  book.current.all (Stretch.isMeasuredFrom p) = true

theorem IsMeasuredFrom.number {s : Stretch Coordinate} (h : book.IsMeasuredFrom p)
    (hs : s ∈ book.current) : s.isMeasuredFrom p = true := List.all_eq_true.mp h s hs

/-- Among coordinates of a moderate size all distances are numbers. -/
theorem isMeasuredFrom_of_moderate (hp : p.IsModerate)
    (h : ∀ entry ∈ book.roads.toList, ∀ v ∈ entry.2.junctions, v.point.IsModerate) :
    book.IsMeasuredFrom p := by
  refine List.all_eq_true.mpr fun s hs => ?_
  obtain ⟨id, road, i, a, b, hroad, ha, hb, rfl⟩ := mem_current_iff.mp hs
  have hentry := Std.TreeMap.mem_toList_iff_getElem?_eq_some.mpr hroad
  exact Stretch.isMeasuredFrom_of_moderate hp (h _ hentry a (List.mem_of_getElem? ha))
    (h _ hentry b (List.mem_of_getElem? hb))

/-- What a search for the edges closest to a point has to find: as many as there are and are asked
for, each one along a segment of a present road and with the nearest point of that, none twice, the
closest first, and none farther than a segment that is left out. -/
structure IsClosest (book : Roadbook index) (p : Point Coordinate) (count : ℕ)
    (found : List (Edge Coordinate × Junction Coordinate)) : Prop where
  length : found.length
    = min count (book.roads.toList.map fun entry => entry.2.junctions.length - 1).sum
  along : ∀ entry ∈ found, ∃ id road i a b, book.roads[id]? = some road
    ∧ road.junctions[i]? = some a ∧ road.junctions[i + 1]? = some b
    ∧ entry = (.along id i true a b, { point := Point.project p a.point b.point })
  distinct : found.Pairwise fun x y => x.1.same y.1 = false
  sorted : found.Pairwise fun x y =>
    ¬ Point.distanceSquared y.2.point p < Point.distanceSquared x.2.point p
  ordered : book.IsMeasuredFrom p → found.Pairwise fun x y =>
    Point.distanceSquared x.2.point p ≤ Point.distanceSquared y.2.point p
  nearest : ∀ {id road i a b}, book.roads[id]? = some road → road.junctions[i]? = some a →
    road.junctions[i + 1]? = some b → Edge.along id i true a b ∉ found.map Prod.fst →
      ∀ entry ∈ found, ¬ Point.distanceSquared (Point.project p a.point b.point) p
        < Point.distanceSquared entry.2.point p

section

variable {s : Stretch Coordinate} {e : Edge Coordinate} {j : Junction Coordinate}

theorem found?_eq_some_iff :
    book.found? p s = some (e, j) ↔ book.edge? s = some e ∧ j = { point := s.project p } := by
  rw [found?, Option.map_eq_some_iff]
  constructor
  · rintro ⟨f, hedge, heq⟩
    obtain ⟨rfl, rfl⟩ := Prod.mk.inj heq
    exact ⟨hedge, rfl⟩
  · rintro ⟨hedge, rfl⟩
    exact ⟨e, hedge, rfl⟩

/-- What is found along a stretch is as far as the stretch. -/
theorem distanceSquared_of_found? {x : Edge Coordinate × Junction Coordinate}
    (h : book.found? p s = some x) : Point.distanceSquared x.2.point p = s.distanceSquared p := by
  rw [(found?_eq_some_iff.mp h).2, Stretch.distanceSquared]

theorem isSome_found? (h : book.source.Indexable) (hs : s ∈ book.current) :
    (book.found? p s).isSome = true := by
  rw [found?, Option.isSome_map]
  exact isSome_edge? h hs

theorem fields_edge? (h : book.edge? s = some e) :
    e.feature = some s.feature ∧ e.index = s.index := by
  obtain ⟨road, -, h⟩ := Option.bind_eq_some_iff.mp h
  obtain ⟨start, -, h⟩ := Option.bind_eq_some_iff.mp h
  obtain ⟨stop, -, heq⟩ := Option.bind_eq_some_iff.mp h
  obtain rfl := Option.some.inj heq
  exact ⟨rfl, rfl⟩

end

variable [index.Lawful]

/-! ### The row -/

/-- A search goes through the present stretches. -/
theorem Kept.perm_nearest (h : book.Kept) (p : Point Coordinate) :
    (index.nearest book.stretches p).Perm book.current :=
  (StretchIndex.Lawful.nearest_perm p h.measured).trans h.perm_current

/-- No stretch comes after a farther one. -/
theorem Kept.not_lt_nearest (h : book.Kept) (p : Point Coordinate) :
    (index.nearest book.stretches p).Pairwise fun s t =>
      ¬ t.distanceSquared p < s.distanceSquared p :=
  (StretchIndex.Lawful.nearest_sorted p h.measured).imp fun hle hlt =>
    Bool.false_ne_true ((StretchIndex.Lawful.noFarther_of_lt hlt).symm.trans hle)

/-- If there is an edge along each stretch, a search finds those along the first ones. -/
theorem Kept.closest_eq (h : book.Kept) (hindexable : book.source.Indexable) (count : ℕ) :
    book.closest p count
      = ((index.nearest book.stretches p).take count).filterMap (book.found? p) :=
  take_filterMap (fun _ hs => isSome_found? hindexable ((h.perm_nearest p).mem_iff.mp hs)) count

/-- What a search finds is along one of the first stretches, which is a present one. -/
theorem Kept.exists_of_mem_closest (h : book.Kept) (hindexable : book.source.Indexable) {count : ℕ}
    {x : Edge Coordinate × Junction Coordinate} (hx : x ∈ book.closest p count) :
    ∃ s ∈ (index.nearest book.stretches p).take count, s ∈ book.current
      ∧ book.found? p s = some x := by
  rw [h.closest_eq hindexable] at hx
  obtain ⟨s, hs, hfound⟩ := List.mem_filterMap.mp hx
  exact ⟨s, hs, (h.perm_nearest p).mem_iff.mp (List.mem_of_mem_take hs), hfound⟩

theorem Kept.length_closest (h : book.Kept) (hindexable : book.source.Indexable)
    (p : Point Coordinate) (count : ℕ) : (book.closest p count).length
      = min count (book.roads.toList.map fun entry => entry.2.junctions.length - 1).sum := by
  have hsome : ∀ s ∈ index.nearest book.stretches p, (book.found? p s).isSome = true :=
    fun s hs => isSome_found? hindexable ((h.perm_nearest p).mem_iff.mp hs)
  rw [closest, List.length_take, List.length_filterMap_eq_countP, List.countP_eq_length.mpr hsome,
    (h.perm_nearest p).length_eq, length_current]

theorem Kept.distinct_closest (h : book.Kept) (hindexable : book.source.Indexable)
    (p : Point Coordinate) (count : ℕ) :
    (book.closest p count).Pairwise fun x y => x.1.same y.1 = false := by
  have hdistinct := ((h.perm_nearest p).pairwise_iff
    fun hne heq => hne ⟨heq.1.symm, heq.2.symm⟩).mpr (pairwise_current hindexable)
  rw [h.closest_eq hindexable, List.pairwise_filterMap]
  refine (hdistinct.sublist (List.take_sublist count _)).imp ?_
  intro s t hne x hx y hy
  rw [Bool.eq_false_iff]
  intro hsame
  obtain ⟨hfeature, -, -, hindex, -, -⟩ := (Edge.same_iff _ _).mp hsame
  obtain ⟨hxf, hxi⟩ := fields_edge? (found?_eq_some_iff.mp hx).1
  obtain ⟨hyf, hyi⟩ := fields_edge? (found?_eq_some_iff.mp hy).1
  rw [hxf, hyf] at hfeature
  rw [hxi, hyi] at hindex
  exact hne ⟨Option.some.inj hfeature, hindex⟩

theorem Kept.sorted_closest (h : book.Kept) (hindexable : book.source.Indexable)
    (p : Point Coordinate) (count : ℕ) : (book.closest p count).Pairwise fun x y =>
      ¬ Point.distanceSquared y.2.point p < Point.distanceSquared x.2.point p := by
  rw [h.closest_eq hindexable, List.pairwise_filterMap]
  refine ((h.not_lt_nearest p).sublist (List.take_sublist count _)).imp ?_
  intro s t hnot x hx y hy
  rwa [distanceSquared_of_found? hx, distanceSquared_of_found? hy]

/-- A stretch that is left out comes after those along which something is found. -/
theorem Kept.not_lt_of_not_mem (h : book.Kept) (hindexable : book.source.Indexable) {count : ℕ}
    {s : Stretch Coordinate} {e : Edge Coordinate} {x : Edge Coordinate × Junction Coordinate}
    (hs : s ∈ book.current) (he : book.edge? s = some e)
    (hout : e ∉ (book.closest p count).map Prod.fst) (hx : x ∈ book.closest p count) :
    ¬ s.distanceSquared p < Point.distanceSquared x.2.point p := by
  obtain ⟨t, ht, -, hfound⟩ := h.exists_of_mem_closest hindexable hx
  have hrow := (h.perm_nearest p).mem_iff.mpr hs
  have hsorted := h.not_lt_nearest p
  rw [← List.take_append_drop count (index.nearest book.stretches p)] at hrow hsorted
  -- among the first stretches it would have been found
  have hlater := (List.mem_append.mp hrow).resolve_left fun hfirst => hout <| by
    rw [h.closest_eq hindexable]
    exact List.mem_map.mpr ⟨(e, _), List.mem_filterMap.mpr
      ⟨s, hfirst, found?_eq_some_iff.mpr ⟨he, rfl⟩⟩, rfl⟩
  rw [distanceSquared_of_found? hfound]
  exact (List.pairwise_append.mp hsorted).2.2 t ht s hlater

/-- A search finds what it has to find. -/
theorem Kept.isClosest (h : book.Kept) (hindexable : book.source.Indexable)
    (p : Point Coordinate) (count : ℕ) : book.IsClosest p count (book.closest p count) where
  length := h.length_closest hindexable p count
  along := by
    rintro ⟨e, j⟩ hentry
    obtain ⟨s, -, hs, hfound⟩ := h.exists_of_mem_closest hindexable hentry
    obtain ⟨id, road, i, a, b, hroad, ha, hb, rfl⟩ := mem_current_iff.mp hs
    obtain ⟨hedge, rfl⟩ := found?_eq_some_iff.mp hfound
    rw [edge?_eq hindexable hroad ha hb] at hedge
    obtain rfl := Option.some.inj hedge
    exact ⟨id, road, i, a, b, hroad, ha, hb, rfl⟩
  distinct := h.distinct_closest hindexable p count
  sorted := h.sorted_closest hindexable p count
  ordered hmeasured := by
    have hnumber : ∀ x ∈ book.closest p count, (Point.distanceSquared x.2.point p
        == Point.distanceSquared x.2.point p) = true := by
      intro x hx
      obtain ⟨s, -, hs, hfound⟩ := h.exists_of_mem_closest hindexable hx
      rw [distanceSquared_of_found? hfound]
      exact hmeasured.number hs
    refine (h.sorted_closest hindexable p count).imp_of_mem fun {x y} hx hy hnot => ?_
    rw [Coordinate.lt_iff_place (hnumber y hy) (hnumber x hx), not_lt] at hnot
    exact (Coordinate.le_iff_place (hnumber x hx) (hnumber y hy)).mpr hnot
  nearest {id road i a b} hroad ha hb hout x hx := by
    have hs := mem_current_iff.mpr ⟨id, road, i, a, b, hroad, ha, hb, rfl⟩
    have hnot := h.not_lt_of_not_mem hindexable hs (edge?_eq hindexable hroad ha hb) hout hx
    rwa [Stretch.distanceSquared, Stretch.project] at hnot

/-! ## Answers -/

/-- The roadbooks give the same answers: their roads are the same, and as many, with the same speeds
and in the same places.  A search for the edges closest to a point takes the first ones of a row in
each of them; these rows hold the same edges and have equally far ones in each place. -/
structure Alike (book book' : Roadbook index) : Prop where
  source : book.source = book'.source
  size : book.roads.size = book'.roads.size
  closest : ∀ p, ∃ row row',
    (∀ count, book.closest p count = row.take count ∧ book'.closest p count = row'.take count)
      ∧ row.Perm row'
      ∧ List.Forall₂ (fun x y => index.EquallyFar (Point.distanceSquared x.2.point p)
        (Point.distanceSquared y.2.point p)) row row'

/-- Answers depend on the present roads only. -/
theorem Kept.alike (h : book.Kept) (h' : book'.Kept) (hmode : book.mode = book'.mode)
    (hspeed : book.maxSpeed = book'.maxSpeed)
    (hroads : ∀ id : FeatureId, book.roads[id]? = book'.roads[id]?) : book.Alike book' := by
  have hsame := Std.TreeMap.Equiv.of_forall_constGet?_eq hroads
  have hcurrent : book.current = book'.current := by rw [current, current, hsame.toList_eq]
  have hfound (p : Point Coordinate) : book.found? p = book'.found? p := by
    funext s
    rw [found?, found?, edge?, edge?, hroads]
  constructor
  case source =>
    rw [RoadSource.mk.injEq]
    refine ⟨hmode, hspeed, funext hroads, funext fun p => ?_⟩
    show book.near p = book'.near p
    rw [h.near_eq, h'.near_eq, hsame.toList_eq]
  case size => exact hsame.size_eq
  case closest =>
    intro p
    have hsorted {book : Roadbook index} (h : book.Kept) :
        ((index.nearest book.stretches p).filterMap (book.found? p)).Pairwise fun x y =>
          index.noFarther (Point.distanceSquared x.2.point p)
            (Point.distanceSquared y.2.point p) = true := by
      rw [List.pairwise_filterMap]
      refine (StretchIndex.Lawful.nearest_sorted p h.measured).imp fun {s t} hle x hx y hy => ?_
      rwa [distanceSquared_of_found? hx, distanceSquared_of_found? hy]
    have hperm : (index.nearest book.stretches p).Perm (index.nearest book'.stretches p) :=
      (h.perm_nearest p).trans (hcurrent ▸ (h'.perm_nearest p).symm)
    have hrows := hperm.filterMap (book.found? p)
    nth_rewrite 2 [hfound] at hrows
    refine ⟨_, _, fun count => ⟨rfl, rfl⟩, hrows, ?_⟩
    let inOrder (x y : Edge Coordinate × Junction Coordinate) : Bool := index.noFarther
      (Point.distanceSquared x.2.point p) (Point.distanceSquared y.2.point p)
    exact forall₂_of_perm (r := inOrder) (fun x y => StretchIndex.Lawful.noFarther_total _ _)
      (fun _ _ _ => StretchIndex.Lawful.noFarther_trans) hrows (hsorted h) (hsorted h')

/-- Replaced roads leave no trace, whatever the index.  The roads that are present at the end decide
all answers, whether they came in one by one or some were loaded at first.  A search for the edges
closest to a point finds what it has to find.  Distances are numbers for coordinates of a moderate
size. -/
theorem answers_addAll (mode : Mode) (maxSpeed : Float)
    {roads : List (FeatureId × RoadLine Coordinate)}
    (hroads : ∀ entry ∈ roads, entry.2.IsMeasured) :
    let book := ({ mode, maxSpeed } : Roadbook index).addAll roads
    (∀ roads', (∀ entry ∈ roads', entry.2.IsMeasured) →
        (∀ id, lastRoad? id roads = lastRoad? id roads') →
          book.Alike (({ mode, maxSpeed } : Roadbook index).addAll roads'))
      ∧ (∀ model features later, roads = accepted model features ++ later →
          maxSpeed = model.maxSpeed → book.Alike ((ofFeatures model mode features).addAll later))
      ∧ (∀ p count, book.source.Indexable → book.IsClosest p count (book.closest p count))
      ∧ ∀ p, p.IsModerate →
          (∀ entry ∈ book.roads.toList, ∀ v ∈ entry.2.junctions, v.point.IsModerate) →
            book.IsMeasuredFrom p := by
  intro book
  have hkept : book.Kept := (kept_new mode maxSpeed).addAll hroads
  refine ⟨fun roads' hroads' hlast => ?_, fun model features later hsplit hspeed => ?_,
    fun p count hindexable => hkept.isClosest hindexable p count,
    fun p => isMeasuredFrom_of_moderate⟩
  · refine hkept.alike ((kept_new mode maxSpeed).addAll hroads') ?_ ?_ fun id => ?_
    · rw [mode_addAll, mode_addAll]
    · rw [maxSpeed_addAll, maxSpeed_addAll]
    · rw [getElem?_roads_addAll, getElem?_roads_addAll, hlast]
  · subst hsplit hspeed
    have haccepted := fun entry h => hroads entry (List.mem_append_left later h)
    have hlater := fun entry h => hroads entry (List.mem_append_right (accepted model features) h)
    refine hkept.alike ((kept_ofFeatures mode haccepted).addAll hlater) ?_ ?_ fun id => ?_
    · rw [mode_addAll, mode_addAll]
      rfl
    · rw [maxSpeed_addAll, maxSpeed_addAll]
      rfl
    · rw [roads_addAll, roads_addAll, roads_ofFeatures, roads_addAll, List.foldl_append]

end Roadbook

/-! ## A footway that is shortened -/

namespace Footway

def gate : Junction Coordinate := ⟨⟨0.0, 0.0⟩, 0⟩

def bench : Junction Coordinate := ⟨⟨1.0, 0.0⟩, 0⟩

def pond : Junction Coordinate := ⟨⟨2.0, 0.0⟩, 0⟩

def hill : Junction Coordinate := ⟨⟨1.0, 1.0⟩, 0⟩

/-- The footway leads to the pond, and the building is no road. -/
def features : List Feature :=
  [{ id := 1, points := [gate.point, bench.point, pond.point]
     tags := Std.TreeMap.ofList [("highway", "footway")] },
    { id := 3, points := [bench.point, hill.point, pond.point, bench.point] }]

/-- The footway and a path up the hill, and then the footway is cut short. -/
def roads : List (FeatureId × RoadLine Coordinate) :=
  [(1, ⟨[gate, bench, pond], 5.0, true⟩), (2, ⟨[bench, hill], 4.0, true⟩),
    (1, ⟨[gate, bench], 5.0, true⟩)]

/-- The path up the hill is turned around, and the footway is short from the start. -/
def others : List (FeatureId × RoadLine Coordinate) :=
  [(2, ⟨[hill, bench], 4.0, false⟩), (1, ⟨[gate, bench], 5.0, true⟩),
    (2, ⟨[bench, hill], 4.0, true⟩)]

/-- Where the search starts. -/
def walker : Point Coordinate := ⟨0.5, 0.25⟩

/-- What is kept of them, with a bundle for an index. -/
def book : Roadbook (StretchIndex.bundles Coordinate) :=
  ({ mode := .obeyOneWay, maxSpeed := 5.0 } : Roadbook _).addAll roads

theorem toList_roads : book.roads.toList
    = [(1, ⟨[gate, bench], 5.0, true⟩), (2, ⟨[bench, hill], 4.0, true⟩)] := rfl

theorem indexable : book.source.Indexable :=
  Roadbook.indexable_source (by rw [toList_roads]; decide)

theorem lastRoad?_roads (id : FeatureId) :
    Roadbook.lastRoad? id roads = Roadbook.lastRoad? id others := by
  by_cases hway : id = 1
  · subst hway
    rfl
  · by_cases hpath : id = 2
    · subst hpath
      rfl
    · simp [Roadbook.lastRoad?, roads, others, Ne.symm hway, Ne.symm hpath]

/-- Cut short or short from the start, loaded or added, the footway and the path are two segments. -/
theorem shortened :
    let other : Roadbook (StretchIndex.bundles Coordinate) :=
      ({ mode := .obeyOneWay, maxSpeed := 5.0 } : Roadbook _).addAll others
    let loaded : Roadbook (StretchIndex.bundles Coordinate) :=
      (Roadbook.ofFeatures .pedestrian .obeyOneWay features).addAll roads.tail
    ((∀ entry ∈ roads, entry.2.IsMeasured) ∧ (∀ entry ∈ others, entry.2.IsMeasured)
      ∧ (∀ id, Roadbook.lastRoad? id roads = Roadbook.lastRoad? id others)
      ∧ roads = Roadbook.accepted .pedestrian features ++ roads.tail
      ∧ book.source.Indexable ∧ walker.IsModerate
      ∧ ∀ entry ∈ book.roads.toList, ∀ v ∈ entry.2.junctions, v.point.IsModerate)
    ∧ (StretchIndex.bundles Coordinate).Lawful ∧ book.Alike other ∧ book.Alike loaded
    ∧ book.IsMeasuredFrom walker
    ∧ book.IsClosest walker 3 (book.closest walker 3) ∧ (book.closest walker 3).length = 2 := by
  intro other loaded
  have hroads : ∀ entry ∈ roads, entry.2.IsMeasured := by decide +kernel
  have hothers : ∀ entry ∈ others, entry.2.IsMeasured := by decide +kernel
  have hwalker : walker.IsModerate := by decide +kernel
  have hmoderate : ∀ entry ∈ book.roads.toList, ∀ v ∈ entry.2.junctions, v.point.IsModerate := by
    rw [toList_roads]
    decide +kernel
  have hsplit : roads = Roadbook.accepted .pedestrian features ++ roads.tail := rfl
  obtain ⟨hreplaced, hloaded, hsearch, hnumbers⟩ :=
    @Roadbook.answers_addAll (.bundles Coordinate) _ .obeyOneWay 5.0 roads hroads
  have hclosest := hsearch walker 3 indexable
  exact ⟨⟨hroads, hothers, lastRoad?_roads, hsplit, indexable, hwalker, hmoderate⟩, inferInstance,
    hreplaced others hothers lastRoad?_roads, hloaded .pedestrian features roads.tail hsplit rfl,
    hnumbers walker hwalker hmoderate, hclosest, hclosest.length⟩

end Footway

end Crossroads

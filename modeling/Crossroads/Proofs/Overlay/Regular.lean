import Crossroads.Proofs.Overlay.Snap

/-!
# Real edges from both ends

The real edges at a junction are made from the roads that its source visits.  Each goes along one
segment of a road, ahead or back, and the junction takes the place of the vertex that it is almost
equal to (`RoadLine.mem_edges_iff`).

If a source visits each road with a vertex close to a junction exactly once (`RoadSource.Visits`), and
only equal vertices are close (`RoadSource.Distinct`), an edge is found from both its ends.

* `Overlay.regularEdges_iff` — which edges are listed at the vertices, once each, and which with their
  ways back.
-/

namespace Crossroads

variable {K : Type} [Scalar K]

namespace Edge

/-- The edge of a feature along the segment from vertex number `index`, `a`, to the next one, `b`, or
back. -/
def along (id : FeatureId) (index : Nat) (ahead : Bool) (a b : Junction K) : Edge K where
  feature := some id
  forward := ahead
  index := UInt32.ofNat index
  start := if ahead then a else b
  stop := if ahead then b else a

/-- The edge with another junction in the place where it is listed. -/
def relisted : Direction → Junction K → Edge K → Edge K
  | .outgoing, j, e => { e with start := j }
  | .ingoing, j, e => { e with stop := j }

/-- The edge, or one that is the same arc, is in the list. -/
def Among (e : Edge K) (edges : List (Edge K)) : Prop := ∃ listed ∈ edges, e.same listed = true

omit [Scalar K] in
theorem reverse_along (id : FeatureId) (index : Nat) (ahead : Bool) (a b : Junction K) :
    (along id index ahead a b).reverse = along id index (!ahead) a b := by
  cases ahead <;> rfl

theorem same_reverse {e e' : Edge K} (h : e.same e' = true) : e.reverse.same e'.reverse = true := by
  obtain ⟨hfeature, hforward, hpart, hindex, hstart, hstop⟩ := (same_iff _ _).mp h
  exact (same_iff _ _).mpr ⟨hfeature, congrArg not hforward, hpart, hindex, hstop, hstart⟩

/-- An edge stays the same arc if the junction where it is listed is replaced by one that is the
same. -/
theorem same_relisted {e e' : Edge K} {j : Junction K} {d : Direction} (h : e.same e' = true)
    (hj : (e.listedAt d).same j = true) : e.same (e'.relisted d j) = true := by
  obtain ⟨hfeature, hforward, hpart, hindex, hstart, hstop⟩ := (same_iff _ _).mp h
  rw [same_iff]
  cases d with
  | outgoing => exact ⟨hfeature, hforward, hpart, hindex, hj, hstop⟩
  | ingoing => exact ⟨hfeature, hforward, hpart, hindex, hstart, hj⟩

theorem same_of_relisted {e e' : Edge K} {j : Junction K} {d : Direction}
    (h : e.same (e'.relisted d j) = true) (hj : j.same (e'.listedAt d) = true) :
    e.same e' = true := by
  obtain ⟨hfeature, hforward, hpart, hindex, hstart, hstop⟩ := (same_iff _ _).mp h
  rw [same_iff]
  cases d with
  | outgoing => exact ⟨hfeature, hforward, hpart, hindex, Junction.same_trans hstart hj, hstop⟩
  | ingoing => exact ⟨hfeature, hforward, hpart, hindex, hstart, Junction.same_trans hstop hj⟩

end Edge

/-! ## The edges of one road -/

/-- Whether the edge between a vertex, at which it is listed, and a neighbour goes ahead, if the
neighbour comes ahead on the road or not. -/
def Direction.goesAhead : Direction → Bool → Bool
  | .outgoing, ahead => ahead
  | .ingoing, ahead => !ahead

namespace RoadLine

/-- The road may be taken back as well as ahead. -/
def IsTwoWay (mode : Mode) (road : RoadLine K) : Prop :=
  road.bidirectional = true ∨ mode = .ignoreOneWay

/-- The edge goes along a segment of the road, in a direction in which the road may be taken. -/
def Carries (mode : Mode) (id : FeatureId) (road : RoadLine K) (e : Edge K) : Prop :=
  ∃ i a b ahead, road.junctions[i]? = some a ∧ road.junctions[i + 1]? = some b
    ∧ (ahead = true ∨ road.IsTwoWay mode) ∧ e.same (.along id i ahead a b) = true

section

variable {mode : Mode} {d : Direction} {cross : Junction K} {id : FeatureId} {road : RoadLine K}
  {e : Edge K}

/-! ### At one vertex -/

section

omit [Scalar K]

theorem isTwoWay_iff : (road.bidirectional || mode == .ignoreOneWay) = true ↔ road.IsTwoWay mode := by
  rw [Bool.or_eq_true, beq_iff_eq, IsTwoWay]

/-- The edge between a junction that stands for vertex `v` and the vertex after it. -/
theorem mem_edge_ahead {index : Nat} {next : Junction K} (v : Junction K) :
    e ∈ edge mode d id road cross index next true ↔
      (d.goesAhead true = true ∨ road.IsTwoWay mode)
        ∧ e = (Edge.along id index (d.goesAhead true) v next).relisted d cross := by
  cases d <;> simp [edge, Edge.along, Edge.relisted, Direction.goesAhead, ← isTwoWay_iff]

/-- The edge between a junction that stands for vertex `v` and the vertex before it. -/
theorem mem_edge_behind {index : Nat} {previous : Junction K} (v : Junction K) :
    e ∈ edge mode d id road cross index previous false ↔
      (d.goesAhead false = true ∨ road.IsTwoWay mode)
        ∧ e = (Edge.along id index (d.goesAhead false) previous v).relisted d cross := by
  cases d <;> simp [edge, Edge.along, Edge.relisted, Direction.goesAhead, ← isTwoWay_iff]

theorem listedAt_along_ahead (index : Nat) (v next : Junction K) :
    (Edge.along id index (d.goesAhead true) v next).listedAt d = v := by
  cases d <;> rfl

theorem listedAt_along_behind (index : Nat) (previous v : Junction K) :
    (Edge.along id index (d.goesAhead false) previous v).listedAt d = v := by
  cases d <;> rfl

/-- The edges at a junction that stands for vertex number `i`. -/
def edgesAt (mode : Mode) (d : Direction) (cross : Junction K) (id : FeatureId) (road : RoadLine K)
    (i : Nat) : List (Edge K) :=
  (match road.junctions[i + 1]? with
    | some next => edge mode d id road cross i next true
    | none => [])
  ++ (match i with
    | 0 => []
    | before + 1 => match road.junctions[before]? with
      | some previous => edge mode d id road cross before previous false
      | none => [])

theorem mem_edgesAt_iff {i : Nat} {v : Junction K} (hv : road.junctions[i]? = some v) :
    e ∈ edgesAt mode d cross id road i ↔ ∃ k a b ahead,
      road.junctions[k]? = some a ∧ road.junctions[k + 1]? = some b
        ∧ (ahead = true ∨ road.IsTwoWay mode)
        ∧ (k = i ∧ ahead = d.goesAhead true ∨ k + 1 = i ∧ ahead = d.goesAhead false)
        ∧ e = (Edge.along id k ahead a b).relisted d cross := by
  unfold edgesAt
  rw [List.mem_append]
  constructor
  · rintro (hnext | hprevious)
    · split at hnext
      · rename_i next hahead
        obtain ⟨hway, rfl⟩ := (mem_edge_ahead v).mp hnext
        exact ⟨i, v, next, _, hv, hahead, hway, .inl ⟨rfl, rfl⟩, rfl⟩
      · cases hnext
    · split at hprevious
      · cases hprevious
      · rename_i before
        split at hprevious
        · rename_i previous hbehind
          obtain ⟨hway, rfl⟩ := (mem_edge_behind v).mp hprevious
          exact ⟨before, previous, v, _, hbehind, hv, hway, .inr ⟨rfl, rfl⟩, rfl⟩
        · cases hprevious
  · rintro ⟨k, a, b, ahead, ha, hb, hway, ⟨rfl, rfl⟩ | ⟨rfl, rfl⟩, rfl⟩
    · left
      rw [hb]
      exact (mem_edge_ahead a).mpr ⟨hway, rfl⟩
    · right
      simp only [ha]
      exact (mem_edge_behind b).mpr ⟨hway, rfl⟩

end

/-! ### At all vertices -/

theorem edges_eq : road.edges mode d cross id = road.junctions.zipIdx.flatMap fun (vertex, i) =>
    if cross.almostEqual Point.tolerance vertex then edgesAt mode d cross id road i else [] := rfl

/-- The edges at a junction go along the segments with an end that is almost equal to it. -/
theorem mem_edges_iff : e ∈ road.edges mode d cross id ↔ ∃ i a b ahead,
    road.junctions[i]? = some a ∧ road.junctions[i + 1]? = some b
      ∧ (ahead = true ∨ road.IsTwoWay mode)
      ∧ cross.almostEqual Point.tolerance ((Edge.along id i ahead a b).listedAt d) = true
      ∧ e = (Edge.along id i ahead a b).relisted d cross := by
  rw [edges_eq, List.mem_flatMap]
  constructor
  · rintro ⟨⟨vertex, i⟩, hvertex, he⟩
    have hat : road.junctions[i]? = some vertex := List.mem_zipIdx_iff_getElem?.mp hvertex
    simp only at he
    split at he
    · rename_i hclose
      obtain ⟨k, a, b, ahead, ha, hb, hway, ⟨rfl, rfl⟩ | ⟨rfl, rfl⟩, rfl⟩ := (mem_edgesAt_iff hat).mp he
      · obtain rfl := Option.some.inj (hat.symm.trans ha)
        exact ⟨k, vertex, b, _, ha, hb, hway, by rwa [listedAt_along_ahead], rfl⟩
      · obtain rfl := Option.some.inj (hat.symm.trans hb)
        exact ⟨k, a, vertex, _, ha, hb, hway, by rwa [listedAt_along_behind], rfl⟩
    · cases he
  · rintro ⟨i, a, b, ahead, ha, hb, hway, hclose, rfl⟩
    have hend : ahead = d.goesAhead true ∨ ahead = d.goesAhead false := by
      cases d <;> cases ahead <;> simp [Direction.goesAhead]
    rcases hend with rfl | rfl
    · rw [listedAt_along_ahead] at hclose
      refine ⟨(a, i), List.mem_zipIdx_iff_getElem?.mpr ha, ?_⟩
      simp only [hclose, if_true]
      exact (mem_edgesAt_iff ha).mpr ⟨i, a, b, _, ha, hb, hway, .inl ⟨rfl, rfl⟩, rfl⟩
    · rw [listedAt_along_behind] at hclose
      refine ⟨(b, i + 1), List.mem_zipIdx_iff_getElem?.mpr hb, ?_⟩
      simp only [hclose, if_true]
      exact (mem_edgesAt_iff hb).mpr ⟨i, a, b, _, ha, hb, hway, .inr ⟨rfl, rfl⟩, rfl⟩

/-! ### Once each -/

omit [Scalar K] in
theorem forward_relisted_along (i : Nat) (ahead : Bool) (a b : Junction K) :
    ((Edge.along id i ahead a b).relisted d cross).forward = ahead := by
  cases d <;> rfl

omit [Scalar K] in
theorem index_relisted_along (i : Nat) (ahead : Bool) (a b : Junction K) :
    ((Edge.along id i ahead a b).relisted d cross).index = UInt32.ofNat i := by
  cases d <;> rfl

theorem pairwise_edge (index : Nat) (other : Junction K) (ahead : Bool) :
    (edge mode d id road cross index other ahead).Pairwise fun x y => x.same y = false := by
  cases d <;> (simp only [edge]; split <;> simp)

/-- The edge ahead of a vertex and the one behind it go in different directions. -/
theorem pairwise_edgesAt {i : Nat} {v : Junction K} (hv : road.junctions[i]? = some v) :
    (edgesAt mode d cross id road i).Pairwise fun x y => x.same y = false := by
  unfold edgesAt
  refine List.pairwise_append.mpr ⟨?_, ?_, fun x hx y hy => ?_⟩
  · split
    · exact pairwise_edge _ _ _
    · exact List.Pairwise.nil
  · split
    · exact List.Pairwise.nil
    · split
      · exact pairwise_edge _ _ _
      · exact List.Pairwise.nil
  · have hforward : x.forward = d.goesAhead true := by
      split at hx
      · obtain ⟨-, rfl⟩ := (mem_edge_ahead v).mp hx
        exact forward_relisted_along _ _ _ _
      · cases hx
    have hback : y.forward = d.goesAhead false := by
      split at hy
      · cases hy
      · split at hy
        · obtain ⟨-, rfl⟩ := (mem_edge_behind v).mp hy
          exact forward_relisted_along _ _ _ _
        · cases hy
    rw [Bool.eq_false_iff]
    intro hsame
    have hflags := ((Edge.same_iff x y).mp hsame).2.1
    rw [hforward, hback] at hflags
    cases d <;> cases hflags

/-- No edge is listed twice if the indexes of all segments are words. -/
theorem pairwise_edges (hlength : road.junctions.length ≤ UInt32.size + 1) :
    (road.edges mode d cross id).Pairwise fun x y => x.same y = false := by
  have hword {k : Nat} {b : Junction K} (hb : road.junctions[k + 1]? = some b) :
      (UInt32.ofNat k).toNat = k := by
    have hlt := (List.getElem?_eq_some_iff.mp hb).1
    exact UInt32.toNat_ofNat_of_lt' (by omega)
  have hplaces : road.junctions.zipIdx.Pairwise fun x y => x.2 ≠ y.2 := by
    rw [List.pairwise_iff_getElem]
    intro i j hi hj hlt
    simp only [List.getElem_zipIdx]
    omega
  rw [edges_eq, List.pairwise_flatMap]
  constructor
  · rintro ⟨v, i⟩ hv
    simp only
    split
    · exact pairwise_edgesAt (List.mem_zipIdx_iff_getElem?.mp hv)
    · exact List.Pairwise.nil
  · refine hplaces.imp_of_mem ?_
    rintro ⟨v, i⟩ ⟨w, j⟩ hv hw hne x hx y hy
    simp only at hx hy hne
    by_cases hv' : cross.almostEqual Point.tolerance v = true
    · rw [if_pos hv'] at hx
      by_cases hw' : cross.almostEqual Point.tolerance w = true
      · rw [if_pos hw'] at hy
        obtain ⟨k, a, b, ahead, -, hb, -, hplace, rfl⟩ :=
          (mem_edgesAt_iff (List.mem_zipIdx_iff_getElem?.mp hv)).mp hx
        obtain ⟨k', a', b', ahead', -, hb', -, hplace', rfl⟩ :=
          (mem_edgesAt_iff (List.mem_zipIdx_iff_getElem?.mp hw)).mp hy
        rw [Bool.eq_false_iff]
        intro hsame
        obtain ⟨-, hforward, -, hindex, -, -⟩ := (Edge.same_iff _ _).mp hsame
        rw [forward_relisted_along, forward_relisted_along] at hforward
        rw [index_relisted_along, index_relisted_along] at hindex
        have hk : k = k' := by rw [← hword hb, ← hword hb', hindex]
        subst hk hforward
        rcases hplace with ⟨hk, hflag⟩ | ⟨hk, hflag⟩ <;>
          rcases hplace' with ⟨hk', hflag'⟩ | ⟨hk', hflag'⟩
        · exact hne (hk.symm.trans hk')
        · cases d <;> cases hflag.symm.trans hflag'
        · cases d <;> cases hflag.symm.trans hflag'
        · exact hne (hk.symm.trans hk')
      · rw [if_neg hw'] at hy
        cases hy
    · rw [if_neg hv'] at hx
      cases hx

omit [Scalar K] in
theorem feature_relisted_along (i : Nat) (ahead : Bool) (a b : Junction K) :
    ((Edge.along id i ahead a b).relisted d cross).feature = some id := by
  cases d <;> rfl

omit [Scalar K] in
/-- An edge along a segment is listed at one of the ends of the segment. -/
theorem listedAt_along_mem {i : Nat} {ahead : Bool} {a b : Junction K}
    (ha : road.junctions[i]? = some a) (hb : road.junctions[i + 1]? = some b) :
    (Edge.along id i ahead a b).listedAt d ∈ road.junctions := by
  cases d <;> cases ahead
  · exact List.mem_of_getElem? hb
  · exact List.mem_of_getElem? ha
  · exact List.mem_of_getElem? ha
  · exact List.mem_of_getElem? hb

end

end RoadLine

/-! ## The edges of a source -/

/-- An element that is counted once is not in two places. -/
theorem pairwise_of_count_eq_one {α : Type} [BEq α] [LawfulBEq α] {l : List α} {a : α}
    (h : l.count a = 1) : l.Pairwise fun x y => x = a → y = a → False := by
  rw [List.count_eq_length_filter, List.length_eq_one_iff] at h
  obtain ⟨b, hb⟩ := h
  have hfilter : (l.filter (· == a)).Pairwise fun _ _ => False := by
    rw [hb]
    exact List.pairwise_singleton _ _
  refine (List.pairwise_filter.mp hfilter).imp fun hxy hx hy => hxy ?_ ?_
  · exact beq_iff_eq.mpr hx
  · exact beq_iff_eq.mpr hy

namespace RoadSource

/-- A junction is a vertex of one of the roads. -/
def IsVertex (source : RoadSource K) (v : Junction K) : Prop :=
  ∃ id road, source.road? id = some road ∧ v ∈ road.junctions

/-- The source visits its own roads, and exactly once each that has a vertex to which a junction is
almost equal. -/
structure Visits (source : RoadSource K) : Prop where
  known : ∀ {p id road}, (id, road) ∈ source.near p → source.road? id = some road
  once : ∀ {cross : Junction K} {id road}, source.road? id = some road →
    (∃ v ∈ road.junctions, cross.almostEqual Point.tolerance v = true) →
      ((source.near cross.point).map Prod.fst).count id = 1

/-- Every vertex is almost equal to itself, and only to vertices that are the same node. -/
structure Distinct (source : RoadSource K) : Prop where
  close : ∀ {v}, source.IsVertex v → v.almostEqual Point.tolerance v = true
  same : ∀ {u v}, source.IsVertex u → source.IsVertex v →
    u.almostEqual Point.tolerance v = true → u.same v = true

/-- The edge goes along a segment of one of the roads, in a direction in which that may be taken. -/
def Carries (source : RoadSource K) (e : Edge K) : Prop :=
  ∃ id road, source.road? id = some road ∧ road.Carries source.mode id e

/-- The indexes of all segments are words. -/
def Indexable (source : RoadSource K) : Prop :=
  ∀ id road, source.road? id = some road → road.junctions.length ≤ UInt32.size + 1

/-- No real edge is listed twice. -/
theorem pairwise_edges {source : RoadSource K} (hvisits : source.Visits)
    (hindexable : source.Indexable) (cross : Junction K) (d : Direction) :
    (source.edges cross d).Pairwise fun x y => x.same y = false := by
  rw [edges, List.pairwise_flatMap]
  constructor
  · rintro ⟨id, road⟩ hnear
    exact RoadLine.pairwise_edges (hindexable id road (hvisits.known hnear))
  · rw [List.pairwise_iff_getElem]
    intro i j hi hj hlt x hx y hy
    have hnear := List.getElem_mem hi
    generalize hat : (source.near cross.point)[i] = entry at hx hnear
    generalize hat' : (source.near cross.point)[j] = entry' at hy
    obtain ⟨id, road⟩ := entry
    obtain ⟨id', road'⟩ := entry'
    obtain ⟨k, a, b, ahead, ha, hb, -, hclose, rfl⟩ := RoadLine.mem_edges_iff.mp hx
    obtain ⟨k', a', b', ahead', -, -, -, -, rfl⟩ := RoadLine.mem_edges_iff.mp hy
    rw [Bool.eq_false_iff]
    intro hsame
    have hfeature := ((Edge.same_iff _ _).mp hsame).1
    rw [RoadLine.feature_relisted_along, RoadLine.feature_relisted_along] at hfeature
    obtain rfl := Option.some.inj hfeature
    have honce := hvisits.once (hvisits.known hnear) ⟨_, RoadLine.listedAt_along_mem ha hb, hclose⟩
    have hplaces := List.pairwise_iff_getElem.mp (pairwise_of_count_eq_one honce) i j
      (by simpa using hi) (by simpa using hj) hlt
    exact hplaces (by simp [hat]) (by simp [hat'])

variable {source : RoadSource Coordinate} {u : Junction Coordinate} {e : Edge Coordinate}
  {d : Direction}

/-- At a vertex those edges are listed that go along a segment and have the vertex for their end. -/
theorem among_edges_iff (hvisits : source.Visits) (hdistinct : source.Distinct)
    (hu : source.IsVertex u) (hat : (e.listedAt d).same u = true) :
    e.Among (source.edges u d) ↔ source.Carries e := by
  constructor
  · rintro ⟨listed, hlisted, hsame⟩
    obtain ⟨⟨id, road⟩, hnear, hlisted⟩ := List.mem_flatMap.mp hlisted
    obtain ⟨i, a, b, ahead, ha, hb, hway, hclose, rfl⟩ := RoadLine.mem_edges_iff.mp hlisted
    have hroad := hvisits.known hnear
    have hend := hdistinct.same hu ⟨id, road, hroad, RoadLine.listedAt_along_mem ha hb⟩ hclose
    exact ⟨id, road, hroad, i, a, b, ahead, ha, hb, hway, Edge.same_of_relisted hsame hend⟩
  · rintro ⟨id, road, hroad, i, a, b, ahead, ha, hb, hway, hsame⟩
    have hend : (Edge.along id i ahead a b).listedAt d ∈ road.junctions :=
      RoadLine.listedAt_along_mem ha hb
    have hpoint : u.point = ((Edge.along id i ahead a b).listedAt d).point :=
      Junction.point_eq_of_same
        (Junction.same_trans (Junction.same_symm hat) (Edge.same_listedAt hsame d))
    have hclose : u.almostEqual Point.tolerance ((Edge.along id i ahead a b).listedAt d) = true := by
      rw [Junction.almostEqual, hpoint]
      exact hdistinct.close ⟨id, road, hroad, hend⟩
    have honce := hvisits.once hroad ⟨_, hend, hclose⟩
    obtain ⟨⟨id', road'⟩, hnear, rfl⟩ :=
      List.mem_map.mp (List.count_pos_iff.mp (honce ▸ Nat.one_pos))
    obtain rfl := Option.some.inj ((hvisits.known hnear).symm.trans hroad)
    refine ⟨_, List.mem_flatMap.mpr ⟨(id', road'), hnear, ?_⟩, Edge.same_relisted hsame hat⟩
    exact RoadLine.mem_edges_iff.mpr ⟨i, a, b, ahead, ha, hb, hway, hclose, rfl⟩

/-- On a road that may be taken back the way back of an edge goes along the same segment. -/
theorem Carries.reverse (h : source.Carries e) {id : FeatureId} {road : RoadLine Coordinate}
    (hfeature : e.feature = some id) (hroad : source.road? id = some road)
    (htwoWay : road.IsTwoWay source.mode) : source.Carries e.reverse := by
  obtain ⟨id', road', hroad', i, a, b, ahead, ha, hb, -, hsame⟩ := h
  have hid : some id = some id' := hfeature.symm.trans ((Edge.same_iff _ _).mp hsame).1
  obtain rfl := Option.some.inj hid
  obtain rfl := Option.some.inj (hroad.symm.trans hroad')
  refine ⟨id, road, hroad, i, a, b, !ahead, ha, hb, .inr htwoWay, ?_⟩
  rw [← Edge.reverse_along]
  exact Edge.same_reverse hsame

end RoadSource

namespace Overlay

/-- Real edges at the vertices of roads that a source visits. An edge from one vertex to another is
listed among the edges out of the first just if it is listed among the edges into the second, and just
if it goes along a segment of a road: ahead, or back where the road may be taken back.  There the way
back is listed as well.  No edge is listed twice. -/
theorem regularEdges_iff (g : Overlay Coordinate) (hvisits : g.source.Visits)
    (hdistinct : g.source.Distinct) {u v : Junction Coordinate} (hu : g.source.IsVertex u)
    (hv : g.source.IsVertex v) :
    (∀ e : Edge Coordinate, e.start.same u = true → e.stop.same v = true →
      (e.Among (g.regularEdges u .outgoing) ↔ e.Among (g.regularEdges v .ingoing))
      ∧ (e.Among (g.regularEdges u .outgoing) ↔ ∃ id road i a b,
        g.source.road? id = some road ∧ road.junctions[i]? = some a
          ∧ road.junctions[i + 1]? = some b
          ∧ (e.same (.along id i true a b) = true
            ∨ e.same (.along id i false a b) = true ∧ road.IsTwoWay g.source.mode))
      ∧ ∀ id road, e.feature = some id → g.source.road? id = some road →
        road.IsTwoWay g.source.mode → e.Among (g.regularEdges u .outgoing) →
          e.reverse.Among (g.regularEdges v .outgoing))
    ∧ (g.source.Indexable → ∀ d, (g.regularEdges u d).Pairwise fun x y => x.same y = false) := by
  refine ⟨fun e hstart hstop => ?_, fun hindexable d => ?_⟩
  · have hout : e.Among (g.regularEdges u .outgoing) ↔ g.source.Carries e :=
      RoadSource.among_edges_iff hvisits hdistinct hu hstart
    have hin : e.Among (g.regularEdges v .ingoing) ↔ g.source.Carries e :=
      RoadSource.among_edges_iff hvisits hdistinct hv hstop
    refine ⟨hout.trans hin.symm, hout.trans ?_, fun id road hfeature hroad htwoWay he => ?_⟩
    · constructor
      · rintro ⟨id, road, hroad, i, a, b, ahead, ha, hb, hway, hsame⟩
        cases ahead with
        | true => exact ⟨id, road, i, a, b, hroad, ha, hb, .inl hsame⟩
        | false =>
          have htwoWay : road.IsTwoWay g.source.mode := hway.resolve_left Bool.false_ne_true
          exact ⟨id, road, i, a, b, hroad, ha, hb, .inr ⟨hsame, htwoWay⟩⟩
      · rintro ⟨id, road, i, a, b, hroad, ha, hb, hsame | ⟨hsame, htwoWay⟩⟩
        · exact ⟨id, road, hroad, i, a, b, true, ha, hb, .inl rfl, hsame⟩
        · exact ⟨id, road, hroad, i, a, b, false, ha, hb, .inr htwoWay, hsame⟩
    · have hback := (hout.mp he).reverse hfeature hroad htwoWay
      have hat : (e.reverse.listedAt .outgoing).same v = true := hstop
      exact (RoadSource.among_edges_iff hvisits hdistinct hv hat).mpr hback
  · exact RoadSource.pairwise_edges hvisits hindexable u d

end Overlay

/-! ## A roundabout -/

namespace Roadbook

variable {index : StretchIndex K}

theorem indexable_source {book : Roadbook index}
    (h : ∀ entry ∈ book.roads.toList, entry.2.junctions.length ≤ UInt32.size + 1) :
    book.source.Indexable :=
  fun _ _ hroad => h _ (Std.TreeMap.mem_toList_iff_getElem?_eq_some.mpr hroad)

/-- The roads as a source that visits all of them for every point, in increasing order. -/
def unfiltered (book : Roadbook index) : RoadSource K :=
  { book.source with near := fun _ => book.roads.toList }

theorem visits_unfiltered (book : Roadbook index) : book.unfiltered.Visits where
  known h := Std.TreeMap.mem_toList_iff_getElem?_eq_some.mp h
  once {cross id road} hroad _ := by
    show (book.roads.toList.map Prod.fst).count id = 1
    rw [Std.TreeMap.map_fst_toList_eq_keys]
    refine List.count_eq_one_of_mem Std.TreeMap.nodup_keys ?_
    rw [Std.TreeMap.mem_keys, Std.TreeMap.mem_iff_isSome_getElem?]
    exact Option.isSome_of_eq_some hroad

end Roadbook

namespace Roundabout

def north : Junction Coordinate := ⟨⟨0.5, 1.0⟩, 12⟩

def west : Junction Coordinate := ⟨⟨0.0, 0.0⟩, 10⟩

def east : Junction Coordinate := ⟨⟨1.0, 0.0⟩, 11⟩

def farm : Junction Coordinate := ⟨⟨2.0, 0.0⟩, 0⟩

/-- A circle that is one-way and comes back to where it starts, and a lane that is not. -/
def book : Roadbook (StretchIndex.bundles Coordinate) :=
  (({ mode := .obeyOneWay, maxSpeed := 90.0 } : Roadbook (StretchIndex.bundles Coordinate)).add 1
    ⟨[north, west, east, north], 30.0, false⟩).add 2 ⟨[east, farm], 20.0, true⟩

def graph : Overlay Coordinate := { source := book.unfiltered }

theorem toList_roads : book.roads.toList = [(1, ⟨[north, west, east, north], 30.0, false⟩),
    (2, ⟨[east, farm], 20.0, true⟩)] := rfl

theorem mem_of_isVertex {v : Junction Coordinate} (h : book.unfiltered.IsVertex v) :
    v ∈ [north, west, east, farm] := by
  obtain ⟨id, road, hroad, hv⟩ := h
  have hentry : (id, road) ∈ book.roads.toList :=
    Std.TreeMap.mem_toList_iff_getElem?_eq_some.mpr hroad
  rw [toList_roads] at hentry
  simp only [List.mem_cons, List.not_mem_nil, or_false, Prod.mk.injEq] at hentry
  have hcircle : [north, west, east, north] ⊆ [north, west, east, farm] := by simp
  have hlane : [east, farm] ⊆ [north, west, east, farm] := by simp
  rcases hentry with ⟨-, rfl⟩ | ⟨-, rfl⟩
  · exact hcircle hv
  · exact hlane hv

theorem distinct : book.unfiltered.Distinct where
  close {v} hv := by
    have hclose : ∀ v ∈ [north, west, east, farm], v.almostEqual Point.tolerance v = true := by
      decide +kernel
    exact hclose v (mem_of_isVertex hv)
  same {u v} hu hv := by
    have hsame : ∀ u ∈ [north, west, east, farm], ∀ v ∈ [north, west, east, farm],
        u.almostEqual Point.tolerance v = true → u.same v = true := by
      decide +kernel
    exact hsame u (mem_of_isVertex hu) v (mem_of_isVertex hv)

theorem indexable : book.unfiltered.Indexable :=
  @Roadbook.indexable_source _ _ _ book (by rw [toList_roads]; decide)

/-- The lane leads out of the circle and back into it. -/
theorem lane_from_both_ends :
    let lane := Edge.along 2 0 true east farm
    (graph.source.Visits ∧ graph.source.Distinct ∧ graph.source.Indexable
      ∧ graph.source.IsVertex east ∧ graph.source.IsVertex farm)
    ∧ (lane.Among (graph.regularEdges east .outgoing)
      ∧ lane.Among (graph.regularEdges farm .ingoing)
      ∧ lane.reverse.Among (graph.regularEdges farm .outgoing))
    ∧ ∀ d, (graph.regularEdges east d).Pairwise fun x y => x.same y = false := by
  intro lane
  have hvisits : graph.source.Visits := book.visits_unfiltered
  have heast : graph.source.IsVertex east := ⟨2, ⟨[east, farm], 20.0, true⟩, rfl, by simp⟩
  have hfarm : graph.source.IsVertex farm := ⟨2, ⟨[east, farm], 20.0, true⟩, rfl, by simp⟩
  obtain ⟨hedges, honce⟩ := graph.regularEdges_iff hvisits distinct heast hfarm
  obtain ⟨hends, hcarried, hback⟩ := hedges lane east.same_refl farm.same_refl
  have hout : lane.Among (graph.regularEdges east .outgoing) :=
    hcarried.mpr ⟨2, ⟨[east, farm], 20.0, true⟩, 0, east, farm, rfl, rfl, rfl, .inl lane.same_refl⟩
  exact ⟨⟨hvisits, distinct, indexable, heast, hfarm⟩,
    ⟨hout, hends.mp hout, hback 2 ⟨[east, farm], 20.0, true⟩ rfl rfl (.inl rfl) hout⟩,
    honce indexable⟩

end Roundabout

end Crossroads

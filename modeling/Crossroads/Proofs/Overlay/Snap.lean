import Crossroads.Overlay.Roadbook
import Crossroads.Proofs.Overlay.Bundle
import Crossroads.Proofs.Overlay.Fakes

/-!
# What snapping connects

A junction is snapped to an edge `AB` by the fake edges of one vicinity, the edge with a point `P`
on it.  If `P` is close to an end of the edge, no half of `AB` or `BA` is entered, so what can be
reached is what could be reached from the junction or from `P` without any fake edge.

* `Overlay.reaches_addFakes_of_endsNear` — what the two links between the junction and `P` add.
* `Overlay.ties_addFakes_iff` — when the ends of the edge and the junction reach each other.
-/

namespace Crossroads

/-! ## Junctions by their points -/

namespace Junction

theorem point_eq_of_same {a b : Junction Coordinate} (h : a.same b = true) : a.point = b.point := by
  rw [same_iff, compare, Point.compare, compareLex_eq_eq, Point.byLongitude, Point.byLatitude,
    Coordinate.order_eq_iff, Coordinate.order_eq_iff] at h
  obtain ⟨⟨ax, ay⟩, _⟩ := a
  obtain ⟨⟨bx, bY⟩, _⟩ := b
  obtain ⟨rfl, rfl⟩ := h
  rfl

/-- Being almost equal goes both ways. -/
theorem almostEqual_comm (eps : Coordinate) (a b : Junction Coordinate) :
    a.almostEqual eps b = b.almostEqual eps a := by
  rw [almostEqual, almostEqual, Point.almostEqual, Point.almostEqual,
    decide_eq_decide.mpr (Coordinate.magnitude_sub_lt_comm a.point.x b.point.x eps),
    decide_eq_decide.mpr (Coordinate.magnitude_sub_lt_comm a.point.y b.point.y eps)]

end Junction

variable {K : Type} [Scalar K]

/-! ## Where real edges lead -/

namespace RoadLine

/-- The ends of the edges out of a junction depend on its point only. -/
theorem stops_edges (mode : Mode) {a b : Junction K} (h : a.point = b.point) (id : FeatureId)
    (road : RoadLine K) : (road.edges mode .outgoing a id).map Edge.stop
      = (road.edges mode .outgoing b id).map Edge.stop := by
  have hedge : ∀ index other ahead, (edge mode .outgoing id road a index other ahead).map Edge.stop
      = (edge mode .outgoing id road b index other ahead).map Edge.stop := by
    intro index other ahead
    simp only [edge]
    split <;> rfl
  rw [edges, edges, List.map_flatMap, List.map_flatMap]
  congr 1
  funext ⟨vertex, i⟩
  have hclose : a.almostEqual Point.tolerance vertex = b.almostEqual Point.tolerance vertex := by
    rw [Junction.almostEqual, Junction.almostEqual, h]
  simp only [hclose]
  split
  · rw [List.map_append, List.map_append]
    congr 1
    · split
      · exact hedge _ _ _
      · rfl
    · split
      · rfl
      · split
        · exact hedge _ _ _
        · rfl
  · rfl

/-- Real edges out of a junction end at vertices of their road. -/
theorem stop_mem_of_mem_edges {mode : Mode} {cross : Junction K} {id : FeatureId}
    {road : RoadLine K} {e : Edge K} (h : e ∈ road.edges mode .outgoing cross id) :
    e.stop ∈ road.junctions := by
  have hedge : ∀ {index i : Nat} {other : Junction K} {ahead : Bool},
      road.junctions[i]? = some other →
        e ∈ edge mode .outgoing id road cross index other ahead → e.stop ∈ road.junctions := by
    intro index i other ahead hother he
    simp only [edge] at he
    split at he
    · rw [List.mem_singleton.mp he]
      exact List.mem_of_getElem? hother
    · cases he
  rw [edges, List.mem_flatMap] at h
  obtain ⟨⟨vertex, i⟩, -, he⟩ := h
  simp only at he
  split at he
  · rcases List.mem_append.mp he with hnext | hprevious
    · split at hnext
      · rename_i next hat
        exact hedge hat hnext
      · cases hnext
    · split at hprevious
      · cases hprevious
      · split at hprevious
        · rename_i previous hat
          exact hedge hat hprevious
        · cases hprevious
  · cases he

end RoadLine

/-! ## Following edges -/

namespace Overlay

/-- Following edges leads from a junction to another: each next edge is one out of the end of the
edge before, and junctions are compared exactly. -/
inductive Reaches (g : Overlay K) : Junction K → Junction K → Prop
  | here {u v : Junction K} (same : u.same v = true) : Reaches g u v
  | onward {u v : Junction K} {e : Edge K} (out : e ∈ g.edges u .outgoing)
      (rest : Reaches g e.stop v) : Reaches g u v

/-- A junction and the two ends of an edge reach each other. -/
def Ties (g : Overlay K) (j : Junction K) (e : Edge K) : Prop :=
  g.Reaches j e.start ∧ g.Reaches j e.stop ∧ g.Reaches e.start j ∧ g.Reaches e.stop j

variable {g : Overlay Coordinate} {u v w : Junction Coordinate}

/-- The ends of the edges out of a junction depend on its point only. -/
theorem exists_edge_of_same {e : Edge Coordinate} (hsame : u.same v = true)
    (he : e ∈ g.edges u .outgoing) : ∃ e' ∈ g.edges v .outgoing, e'.stop = e.stop := by
  rcases List.mem_append.mp he with hreal | hfake
  · obtain ⟨⟨id, road⟩, hroad, he⟩ := List.mem_flatMap.mp hreal
    have hpoint : u.point = v.point := Junction.point_eq_of_same hsame
    have hstop : e.stop ∈ (road.edges g.source.mode .outgoing u id).map Edge.stop :=
      List.mem_map_of_mem he
    rw [RoadLine.stops_edges g.source.mode hpoint] at hstop
    obtain ⟨e', he', heq⟩ := List.mem_map.mp hstop
    rw [hpoint] at hroad
    exact ⟨e', List.mem_append_left _ (List.mem_flatMap.mpr ⟨(id, road), hroad, he'⟩), heq⟩
  · refine ⟨e, List.mem_append_right _ ?_, rfl⟩
    rw [fakeEdges, Fakes.edges] at hfake ⊢
    rw [← Std.TreeMap.getD_congr ((Junction.same_iff u v).mp hsame)]
    exact hfake

theorem Reaches.of_same_left (h : g.Reaches u w) (hsame : u.same v = true) : g.Reaches v w := by
  cases h with
  | here same => exact .here (Junction.same_trans (Junction.same_symm hsame) same)
  | onward out rest =>
    obtain ⟨e', he', hstop⟩ := exists_edge_of_same hsame out
    exact .onward he' (hstop ▸ rest)

theorem Reaches.trans (huv : g.Reaches u v) (hvw : g.Reaches v w) : g.Reaches u w := by
  induction huv with
  | here same => exact hvw.of_same_left (Junction.same_symm same)
  | onward out _ ih => exact .onward out (ih hvw)

end Overlay

/-! ## Snapping -/

namespace Edge

/-- A point of an edge is close to one of its ends. -/
def EndsNear (e : Edge K) (p : Junction K) : Prop :=
  e.start.almostEqual Point.tolerance p = true ∨ p.almostEqual Point.tolerance e.stop = true

/-- A point is close to an end of an edge whichever way the edge is taken. -/
theorem endsNear_reverse (e : Edge Coordinate) (p : Junction Coordinate) :
    e.reverse.EndsNear p ↔ e.EndsNear p := by
  rw [EndsNear, EndsNear, reverse, Junction.almostEqual_comm _ e.stop,
    Junction.almostEqual_comm _ p e.start]
  exact or_comm

end Edge

namespace Fakes

theorem split_of_endsNear {e : Edge K} {p : Junction K} (h : e.EndsNear p) :
    split (.standard K) p e = [] := by
  rw [split, if_pos]
  rcases h with hstart | hstop
  · exact Bool.or_eq_true_iff.mpr (.inl hstart)
  · exact Bool.or_eq_true_iff.mpr (.inr hstop)

theorem split_of_not_endsNear {e : Edge K} {p : Junction K} (h : ¬ e.EndsNear p) :
    split (.standard K) p e = [.fake e.start p e.isReal, .fake p e.stop e.isReal] :=
  split_of_far (Bool.eq_false_iff.mpr fun hstart => h (.inl hstart))
    (Bool.eq_false_iff.mpr fun hstop => h (.inr hstop))

/-- Close to an end nothing but the links between the junction and the point is entered. -/
theorem arising_of_endsNear (j : Junction Coordinate) {ab : Edge Coordinate}
    {p : Junction Coordinate} (h : ab.EndsNear p) :
    arising (.standard Coordinate) {} j ab p = [.fake j p false, .fake p j false] := by
  rw [arising, split_of_endsNear h, split_of_endsNear ((ab.endsNear_reverse p).mpr h),
    splits_empty]
  rfl

end Fakes

/-- The road graph over a source, without fake edges. -/
def RoadSource.plain (source : RoadSource K) : Overlay K := { source := source }

namespace Overlay

variable {source : RoadSource Coordinate} {j p u v : Junction Coordinate} {ab : Edge Coordinate}

theorem edges_plain (direction : Direction) :
    source.plain.edges u direction = source.edges u direction := by
  cases direction with
  | outgoing => exact List.append_nil _
  | ingoing => exact List.append_nil _

/-- What was reached without fake edges is still reached. -/
theorem Reaches.addFakes (h : source.plain.Reaches u v) :
    (source.plain.addFakes j [(ab, p)]).Reaches u v := by
  induction h with
  | here same => exact .here same
  | onward out _ ih =>
    rw [edges_plain] at out
    exact .onward (List.mem_append_left _ out) ih

/-- Each edge that the vicinity brings can be followed. -/
theorem reaches_of_mem_arising {e : Edge Coordinate}
    (h : e ∈ Fakes.arising (.standard Coordinate) {} j ab p) :
    (source.plain.addFakes j [(ab, p)]).Reaches e.start e.stop := by
  obtain ⟨kept, hkept, hsame⟩ := Fakes.exists_mem_add_of_mem_arising h e.start.same_refl
  exact .onward (List.mem_append_right _ hkept) (.here (Junction.same_symm hsame))

/-- The junction and the point of the vicinity reach each other. -/
theorem reaches_link : (source.plain.addFakes j [(ab, p)]).Reaches j p
    ∧ (source.plain.addFakes j [(ab, p)]).Reaches p j := by
  constructor
  · have hlink : Edge.fake j p false ∈ Fakes.arising (.standard Coordinate) {} j ab p := by
      simp [Fakes.arising]
    exact reaches_of_mem_arising hlink
  · have hlink : Edge.fake p j false ∈ Fakes.arising (.standard Coordinate) {} j ab p := by
      simp [Fakes.arising]
    exact reaches_of_mem_arising hlink

/-- Close to an end of the edge, the vicinity joins what leads to the junction or the point with
what the junction or the point leads to, and does nothing else. -/
theorem reaches_addFakes_of_endsNear (h : ab.EndsNear p) :
    (source.plain.addFakes j [(ab, p)]).Reaches u v ↔ source.plain.Reaches u v ∨
      (source.plain.Reaches u j ∨ source.plain.Reaches u p)
        ∧ (source.plain.Reaches j v ∨ source.plain.Reaches p v) := by
  constructor
  · intro hreach
    induction hreach with
    | here same => exact .inl (.here same)
    | @onward u v e out _ ih =>
      rcases List.mem_append.mp out with hreal | hfake
      · have hout : e ∈ source.plain.edges u .outgoing := List.mem_append_left _ hreal
        rcases ih with hrest | ⟨hin, hrest⟩
        · exact .inl (.onward hout hrest)
        · exact .inr ⟨hin.imp (.onward hout) (.onward hout), hrest⟩
      · -- a link: its start is the junction or the point, and its end is the other one
        obtain ⟨harises, hstart⟩ := Fakes.mem_arising_of_mem_add hfake
        rw [show source.plain.nearness = .standard Coordinate from rfl,
          Fakes.arising_of_endsNear j h, List.mem_pair] at harises
        have hhub : (source.plain.Reaches u j ∨ source.plain.Reaches u p)
            ∧ (source.plain.Reaches e.stop v →
              source.plain.Reaches j v ∨ source.plain.Reaches p v) := by
          rcases harises with rfl | rfl
          · exact ⟨.inl (.here (Junction.same_symm hstart)), .inr⟩
          · exact ⟨.inr (.here (Junction.same_symm hstart)), .inl⟩
        rcases ih with hrest | ⟨-, hrest⟩
        · exact .inr ⟨hhub.1, hhub.2 hrest⟩
        · exact .inr ⟨hhub.1, hrest⟩
  · rintro (hplain | ⟨hin, hout⟩)
    · exact hplain.addFakes
    · have hj : (source.plain.addFakes j [(ab, p)]).Reaches u j := by
        rcases hin with hin | hin
        · exact hin.addFakes
        · exact hin.addFakes.trans reaches_link.2
      have hv : (source.plain.addFakes j [(ab, p)]).Reaches j v := by
        rcases hout with hout | hout
        · exact hout.addFakes
        · exact reaches_link.1.trans hout.addFakes
      exact hj.trans hv

/-- Close to an end of the edge, it takes real edges to tie the junction to the ends. -/
theorem ties_iff_of_endsNear (h : ab.EndsNear p) :
    (source.plain.addFakes j [(ab, p)]).Ties j ab ↔
      (source.plain.Reaches j ab.start ∨ source.plain.Reaches p ab.start)
        ∧ (source.plain.Reaches j ab.stop ∨ source.plain.Reaches p ab.stop)
        ∧ (source.plain.Reaches ab.start j ∨ source.plain.Reaches ab.start p)
        ∧ (source.plain.Reaches ab.stop j ∨ source.plain.Reaches ab.stop p) := by
  have hleave (v : Junction Coordinate) : (source.plain.addFakes j [(ab, p)]).Reaches j v
      ↔ source.plain.Reaches j v ∨ source.plain.Reaches p v := by
    rw [reaches_addFakes_of_endsNear h]
    exact ⟨fun hv => hv.elim .inl And.right, fun hv => .inr ⟨.inl (.here j.same_refl), hv⟩⟩
  have harrive (u : Junction Coordinate) : (source.plain.addFakes j [(ab, p)]).Reaches u j
      ↔ source.plain.Reaches u j ∨ source.plain.Reaches u p := by
    rw [reaches_addFakes_of_endsNear h]
    exact ⟨fun hu => hu.elim .inl And.left, fun hu => .inr ⟨hu, .inl (.here j.same_refl)⟩⟩
  rw [Ties, hleave, hleave, harrive, harrive]

/-- Away from the ends of the edge, the halves of both directions lead from its ends to the point
and on. -/
theorem ties_of_not_endsNear (h : ¬ ab.EndsNear p) :
    (source.plain.addFakes j [(ab, p)]).Ties j ab := by
  have hback : ¬ ab.reverse.EndsNear p := (ab.endsNear_reverse p).not.mpr h
  have half {e : Edge Coordinate} (he : e ∈ Fakes.split (.standard Coordinate) p ab
      ∨ e ∈ Fakes.split (.standard Coordinate) p ab.reverse) :
      (source.plain.addFakes j [(ab, p)]).Reaches e.start e.stop := by
    apply reaches_of_mem_arising
    rw [Fakes.arising]
    rcases he with he | he
    · simp [he]
    · simp [he]
  rw [Fakes.split_of_not_endsNear h, Fakes.split_of_not_endsNear hback] at half
  have hstart := half (.inl List.mem_cons_self)
  have hstop := half (.inl (List.mem_cons_of_mem _ List.mem_cons_self))
  have hstart' := half (.inr (List.mem_cons_of_mem _ List.mem_cons_self))
  have hstop' := half (.inr List.mem_cons_self)
  exact ⟨reaches_link.1.trans hstart', reaches_link.1.trans hstop,
    hstart.trans reaches_link.2, hstop'.trans reaches_link.2⟩

end Overlay

/-! ## Vertices -/

namespace Roadbook

variable {index : StretchIndex K}

/-- A junction is a vertex of one of the roads. -/
def IsVertex (book : Roadbook index) (v : Junction K) : Prop :=
  ∃ entry ∈ book.roads.toList, ∃ vertex ∈ entry.2.junctions, vertex.same v = true

theorem IsVertex.of_same {book : Roadbook index} {u v : Junction K} (h : book.IsVertex u)
    (hsame : u.same v = true) : book.IsVertex v := by
  obtain ⟨entry, hentry, vertex, hvertex, hu⟩ := h
  exact ⟨entry, hentry, vertex, hvertex, Junction.same_trans hu hsame⟩

/-- Real edges end at vertices. -/
theorem isVertex_stop {book : Roadbook index} {u : Junction K} {e : Edge K}
    (h : e ∈ book.source.edges u .outgoing) : book.IsVertex e.stop := by
  obtain ⟨⟨id, road⟩, hroad, he⟩ := List.mem_flatMap.mp h
  have hentry : (id, road) ∈ book.roads.toList := (List.mem_filter.mp hroad).1
  exact ⟨(id, road), hentry, e.stop, RoadLine.stop_mem_of_mem_edges he, e.stop.same_refl⟩

/-- Where real edges lead is a vertex, or it is where they started. -/
theorem isVertex_of_reaches {index : StretchIndex Coordinate} {book : Roadbook index}
    {u v : Junction Coordinate} (h : book.source.plain.Reaches u v) :
    u.same v = true ∨ book.IsVertex v := by
  induction h with
  | here same => exact .inl same
  | onward out _ ih =>
    rw [Overlay.edges_plain] at out
    rcases ih with hsame | hvertex
    · exact .inr ((isVertex_stop out).of_same hsame)
    · exact .inr hvertex

/-- The edge along a stretch starts at a vertex. -/
theorem isVertex_of_edge? {book : Roadbook index} {s : Stretch K} {e : Edge K}
    (h : book.edge? s = some e) : book.IsVertex e.start := by
  obtain ⟨road, hroad, hends⟩ := Option.bind_eq_some_iff.mp h
  obtain ⟨start, hstart, hends⟩ := Option.bind_eq_some_iff.mp hends
  obtain ⟨stop, -, heq⟩ := Option.bind_eq_some_iff.mp hends
  obtain rfl := Option.some.inj heq
  have hentry := Std.TreeMap.mem_toList_iff_getElem?_eq_some.mpr hroad
  exact ⟨_, hentry, start, List.mem_of_getElem? hstart, start.same_refl⟩

/-- The edges closest to a point start at vertices. -/
theorem isVertex_of_mem_closest {book : Roadbook index} {q : Point K} {count : Nat} {e : Edge K}
    {p : Junction K} (h : (e, p) ∈ book.closest q count) : book.IsVertex e.start := by
  obtain ⟨s, -, hfound⟩ := List.mem_filterMap.mp (List.mem_of_mem_take h)
  obtain ⟨e', hedge, heq⟩ := Option.map_eq_some_iff.mp hfound
  obtain ⟨rfl, -⟩ := Prod.mk.inj heq
  exact isVertex_of_edge? hedge

end Roadbook

namespace Overlay

/-- Snapping a junction to one of the edges closest to it.  Away from the ends of the edge, the
junction and the ends reach each other.  Close to an end they do exactly if the real edges lead all
four ways between an end and the junction or the point of the edge.  That takes a road that goes
through one of the latter. -/
theorem ties_addFakes_iff {index : StretchIndex Coordinate} (book : Roadbook index)
    (j : Junction Coordinate) (count : Nat) {ab : Edge Coordinate} {p : Junction Coordinate}
    (h : (ab, p) ∈ book.closest j.point count) :
    let plain := book.source.plain
    let snapped := plain.addFakes j [(ab, p)]
    (snapped.Ties j ab ↔ ¬ ab.EndsNear p ∨
      (plain.Reaches j ab.start ∨ plain.Reaches p ab.start)
        ∧ (plain.Reaches j ab.stop ∨ plain.Reaches p ab.stop)
        ∧ (plain.Reaches ab.start j ∨ plain.Reaches ab.start p)
        ∧ (plain.Reaches ab.stop j ∨ plain.Reaches ab.stop p))
      ∧ (¬ book.IsVertex j → ¬ book.IsVertex p → (snapped.Ties j ab ↔ ¬ ab.EndsNear p)) := by
  intro plain snapped
  have hvertex : book.IsVertex ab.start := Roadbook.isVertex_of_mem_closest h
  refine ⟨?_, fun hj hp => ⟨fun hties hnear => ?_, ties_of_not_endsNear⟩⟩
  · by_cases hnear : ab.EndsNear p
    · rw [ties_iff_of_endsNear hnear]
      exact ⟨.inr, fun h => h.resolve_left fun hfar => hfar hnear⟩
    · exact ⟨fun _ => .inl hnear, fun _ => ties_of_not_endsNear hnear⟩
  · -- the way from the start of the edge would end at the junction or at the point
    rcases ((ties_iff_of_endsNear hnear).mp hties).2.2.1 with hway | hway
    · rcases Roadbook.isVertex_of_reaches hway with hsame | hend
      · exact hj (hvertex.of_same hsame)
      · exact hj hend
    · rcases Roadbook.isVertex_of_reaches hway with hsame | hend
      · exact hp (hvertex.of_same hsame)
      · exact hp hend

end Overlay

/-! ## A street with a house -/

namespace Street

/-- One road, a degree along the equator. -/
def book : Roadbook (StretchIndex.bundles Coordinate) :=
  ({ mode := .obeyOneWay, maxSpeed := 90.0 } : Roadbook (StretchIndex.bundles Coordinate)).add 1
    ⟨[⟨⟨0.0, 0.0⟩, 0⟩, ⟨⟨1.0, 0.0⟩, 0⟩], 50.0, true⟩

def line : Stretch Coordinate := ⟨⟨0.0, 0.0⟩, ⟨1.0, 0.0⟩, 1, 0⟩

def edge : Edge Coordinate :=
  { feature := some 1, start := ⟨⟨0.0, 0.0⟩, 0⟩, stop := ⟨⟨1.0, 0.0⟩, 0⟩ }

/-- A junction right north of the start of the street, but for a little. -/
def house : Junction Coordinate := ⟨⟨5e-7, 1.0⟩, 0⟩

/-- The point of the street that is nearest to the house. -/
def door : Junction Coordinate := ⟨⟨5e-7, 0.0⟩, 0⟩

set_option maxRecDepth 4000 in
theorem project_house : line.project house.point = door.point := by
  rfl

theorem closest_house : book.closest house.point 1 = [(edge, door)] := by
  have hmeasured : Bundle.isMeasured book.stretches = true := by decide +kernel
  have hedge : book.edge? line = some edge := rfl
  have hnearest : (StretchIndex.bundles Coordinate).nearest book.stretches house.point = [line] := by
    refine (Bundle.nearest_eq hmeasured house.point).trans ?_
    rw [show Bundle.stretches book.stretches = [line] from rfl, List.mergeSort_singleton]
  rw [Roadbook.closest, hnearest]
  simp only [List.filterMap_cons, List.filterMap_nil, Roadbook.found?, hedge, Option.map_some,
    List.take_succ_cons, List.take_nil, project_house]
  rfl

theorem not_isVertex {v : Junction Coordinate}
    (h : ([⟨⟨0.0, 0.0⟩, 0⟩, ⟨⟨1.0, 0.0⟩, 0⟩] : List (Junction Coordinate)).all
      fun vertex => !vertex.same v) : ¬ book.IsVertex v := by
  rintro ⟨entry, hentry, vertex, hvertex, hsame⟩
  have hroads : book.roads.toList
      = [(1, ⟨[⟨⟨0.0, 0.0⟩, 0⟩, ⟨⟨1.0, 0.0⟩, 0⟩], 50.0, true⟩)] := rfl
  rw [hroads, List.mem_singleton] at hentry
  subst hentry
  have hdiffers := List.all_eq_true.mp h vertex hvertex
  rw [hsame] at hdiffers
  cases hdiffers

/-- Snapping the house to the street leaves an end of the street without a way to it. -/
theorem not_ties_house :
    ¬ (book.source.plain.addFakes house [(edge, door)]).Ties house edge := by
  have hclosest : (edge, door) ∈ book.closest house.point 1 := by
    rw [closest_house]
    exact List.mem_singleton_self _
  have hties := (Overlay.ties_addFakes_iff book house 1 hclosest).2 (not_isVertex rfl)
    (not_isVertex rfl)
  have hnear : edge.EndsNear door := .inl rfl
  exact fun h => hties.mp h hnear

end Street

end Crossroads

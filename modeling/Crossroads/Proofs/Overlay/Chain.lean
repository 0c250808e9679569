import Crossroads.Proofs.Overlay.Session
import Mathlib.Data.List.Pairwise
import Mathlib.Data.List.Triplewise

/-!
# Several points on one edge

Junctions are connected to points of one real edge, in any order and by any number of calls.  The
first of two points is tied to both ends of the edge; the second lies between the first one and one
of the ends (`Nearness.Orders.cuts`), so it splits the fake edge between them.  In the end all
points and the ends are joined with each other (`Overlay.run_chained`).
-/

namespace Crossroads

/-! ## Points along an edge -/

namespace Nearness

variable {K : Type} {n : Nearness K} {u v p q : Junction K}

/-- Neither junction counts as equal to the other. -/
def Apart (n : Nearness K) (u v : Junction K) : Prop :=
  n.almostEqual u.point v.point = false ∧ n.almostEqual v.point u.point = false

/-- A junction lies between two others, whichever comes first. -/
def Between (n : Nearness K) (u p v : Junction K) : Prop :=
  n.onSegment p.point u.point v.point = true ∧ n.onSegment p.point v.point u.point = true

instance : Decidable (n.Apart u v) := inferInstanceAs (Decidable (_ ∧ _))

instance : Decidable (n.Between u p v) := inferInstanceAs (Decidable (_ ∧ _))

/-- A junction lies between two others and apart from both. -/
def Cuts (n : Nearness K) (p u v : Junction K) : Prop :=
  n.Between u p v ∧ n.Apart u p ∧ n.Apart p v

/-- The junctions follow each other on a line, each apart from all others. -/
structure Orders (n : Nearness K) (line : List (Junction K)) : Prop where
  apart : line.Pairwise n.Apart
  between : line.Triplewise n.Between

theorem Apart.symm (h : n.Apart u v) : n.Apart v u := ⟨h.2, h.1⟩

theorem Cuts.symm (h : n.Cuts p u v) : n.Cuts p v u :=
  ⟨⟨h.1.2, h.1.1⟩, h.2.2.symm, h.2.1.symm⟩

end Nearness

/-- An edge with points on it, from one end to the other. -/
def Edge.line {K : Type} (ab : Edge K) (points : List (Junction K)) : List (Junction K) :=
  ab.start :: (points ++ [ab.stop])

namespace Nearness.Orders

variable {K : Type} {n : Nearness K} {ab : Edge K} {points : List (Junction K)} {p q : Junction K}

theorem apart_start (h : n.Orders (ab.line points)) (hp : p ∈ points) : n.Apart ab.start p :=
  (List.pairwise_cons.mp h.apart).1 p (List.mem_append_left _ hp)

theorem apart_stop (h : n.Orders (ab.line points)) (hp : p ∈ points) : n.Apart p ab.stop := by
  obtain ⟨-, hrest⟩ := List.pairwise_cons.mp h.apart
  exact (List.pairwise_append.mp hrest).2.2 p hp _ (List.mem_singleton_self _)

/-- Of two points on an edge, the first lies between the start and the second, and the second between
the first and the end. -/
theorem pairwise_cuts (h : n.Orders (ab.line points)) :
    points.Pairwise fun u v => n.Cuts u ab.start v ∧ n.Cuts v u ab.stop := by
  obtain ⟨hstart, hrest⟩ := List.triplewise_cons.mp h.between
  obtain ⟨-, -, -, hstop⟩ := List.triplewise_append.mp hrest
  have hstart := (List.pairwise_append.mp hstart).1
  have hstop := hstop ab.stop (List.mem_singleton_self _)
  have hapart := (List.pairwise_append.mp (List.pairwise_cons.mp h.apart).2).1
  refine (hstart.and (hstop.and hapart)).imp_of_mem fun hu hv hbetween => ?_
  obtain ⟨hu', hv', happ⟩ := hbetween
  exact ⟨⟨hu', h.apart_start hu, happ⟩, ⟨hv', happ, h.apart_stop hv⟩⟩

/-- Of two points on an edge, each lies between an end and the other one. -/
theorem cuts (h : n.Orders (ab.line points)) (hp : p ∈ points) (hq : q ∈ points) (hpq : p ≠ q) :
    n.Cuts q ab.start p ∨ n.Cuts q p ab.stop := by
  have hboth : points.Pairwise fun u v => (n.Cuts v ab.start u ∨ n.Cuts v u ab.stop)
      ∧ (n.Cuts u ab.start v ∨ n.Cuts u v ab.stop) :=
    h.pairwise_cuts.imp fun hcuts => ⟨.inr hcuts.2, .inl hcuts.1⟩
  have : Std.Symm fun u v => (n.Cuts v ab.start u ∨ n.Cuts v u ab.stop)
      ∧ (n.Cuts u ab.start v ∨ n.Cuts u v ab.stop) := ⟨fun _ _ => And.symm⟩
  exact (hboth.forall hp hq hpq).1

end Nearness.Orders

/-! ## Joined junctions -/

namespace Fakes

/-- Two junctions have a fake edge between them both ways, each listed at both its ends. -/
def Joins {K : Type} [Scalar K] (fakes : Fakes K) (partOfReal : Bool) (u v : Junction K) : Prop :=
  ∀ d, fakes.Lists d (.fake u v partOfReal) ∧ fakes.Lists d (.fake v u partOfReal)

section

variable {K : Type} [Scalar K] {n : Nearness K} {fakes : Fakes K} {partOfReal : Bool}
  {j p u v : Junction K} {e : Edge K}

theorem Joins.symm (h : fakes.Joins partOfReal u v) : fakes.Joins partOfReal v u :=
  fun d => (h d).symm

/-- A vicinity takes no fake edge away. -/
theorem Joins.addVicinity (h : fakes.Joins partOfReal u v) (j : Junction K)
    (vicinity : Edge K × Junction K) :
    (addVicinity n j fakes vicinity).Joins partOfReal u v :=
  fun d => ⟨(lists_addVicinity_iff n j vicinity).mpr (.inl (h d).1),
    (lists_addVicinity_iff n j vicinity).mpr (.inl (h d).2)⟩

theorem joins_of_mem_arising (h : .fake u v partOfReal ∈ arising n fakes j e p)
    (h' : .fake v u partOfReal ∈ arising n fakes j e p) :
    (addVicinity n j fakes (e, p)).Joins partOfReal u v :=
  fun _ => ⟨(lists_addVicinity_iff n j (e, p)).mpr (.inr ⟨_, h, Edge.same_refl _⟩),
    (lists_addVicinity_iff n j (e, p)).mpr (.inr ⟨_, h', Edge.same_refl _⟩)⟩

theorem joins_add_iff {vicinities : List (Edge K × Junction K)} :
    (add n fakes j vicinities).Joins partOfReal u v ↔
      (vicinities.foldl (Fakes.addVicinity n j) fakes).Joins partOfReal u v := by
  simp only [Joins, lists_add_iff]

/-- Each vicinity joins its junction and its point. -/
theorem joins_link : (addVicinity n j fakes (e, p)).Joins false j p :=
  joins_of_mem_arising (mem_arising_iff.mpr (.inr (.inl (.inl rfl))))
    (mem_arising_iff.mpr (.inr (.inl (.inr rfl))))

/-- A point apart from the ends of a real edge is joined with both. -/
theorem joins_ends (hreal : e.isFake = false) (hstart : n.Apart e.start p)
    (hstop : n.Apart p e.stop) : (addVicinity n j fakes (e, p)).Joins true e.start p
      ∧ (addVicinity n j fakes (e, p)).Joins true p e.stop := by
  have hisReal : e.isReal = true := by rw [Edge.isReal, hreal, Bool.not_false, Bool.true_or]
  have hisReal' : e.reverse.isReal = true := hisReal
  have hahead {half : Edge K} (h : half = .fake e.start p true ∨ half = .fake p e.stop true) :
      half ∈ arising n fakes j e p :=
    mem_arising_iff.mpr (.inl (.inl (mem_split_iff.mpr ⟨⟨hstart.1, hstop.1⟩, hisReal ▸ h⟩)))
  have hback {half : Edge K} (h : half = .fake e.stop p true ∨ half = .fake p e.start true) :
      half ∈ arising n fakes j e p :=
    mem_arising_iff.mpr (.inl (.inr (mem_split_iff.mpr ⟨⟨hstop.2, hstart.2⟩, hisReal' ▸ h⟩)))
  constructor
  · exact joins_of_mem_arising (hahead (.inl rfl)) (hback (.inr rfl))
  · exact joins_of_mem_arising (hahead (.inr rfl)) (hback (.inl rfl))

end

variable {n : Nearness Coordinate} {fakes : Fakes Coordinate} {j p u v : Junction Coordinate}
  {e : Edge Coordinate}

/-- The parts of a fake edge that passes through the point of a vicinity are listed. -/
theorem lists_of_cuts (hcuts : n.Cuts p u v) (h : fakes.Lists .outgoing (.fake u v true))
    (d : Direction) : (addVicinity n j fakes (e, p)).Lists d (.fake u p true)
      ∧ (addVicinity n j fakes (e, p)).Lists d (.fake p v true) := by
  obtain ⟨uv, huv, hsame⟩ := h
  obtain ⟨-, -, hpart, -, hstart, hstop⟩ := (Edge.same_iff _ _).mp hsame
  have hu : u.point = uv.start.point := Junction.point_eq_of_same hstart
  have hv : v.point = uv.stop.point := Junction.point_eq_of_same hstop
  obtain ⟨⟨hon, -⟩, ⟨hapart, -⟩, ⟨hapart', -⟩⟩ := hcuts
  rw [hu, hv] at hon
  rw [hu] at hapart
  rw [hv] at hapart'
  have hreal : uv.isReal = true := by
    rw [Edge.isReal, ← hpart]
    exact Bool.or_true _
  have hparts {part : Edge Coordinate}
      (h : part = .fake uv.start p true ∨ part = .fake p uv.stop true) :
      part ∈ arising n fakes j e p := by
    have hpart : part ∈ split n p uv := mem_split_iff.mpr ⟨⟨hapart, hapart'⟩, hreal ▸ h⟩
    exact mem_arising_iff.mpr (.inr (.inr ⟨_, _, uv, huv, hon, hpart⟩))
  rw [lists_addVicinity_iff, lists_addVicinity_iff]
  exact ⟨.inr ⟨_, hparts (.inl rfl), Edge.same_fake hstart p.same_refl true⟩,
    .inr ⟨_, hparts (.inr rfl), Edge.same_fake p.same_refl hstop true⟩⟩

/-- A point between two joined junctions is joined with both. -/
theorem Joins.cut (h : fakes.Joins true u v) (hcuts : n.Cuts p u v) :
    (Fakes.addVicinity n j fakes (e, p)).Joins true u p
      ∧ (Fakes.addVicinity n j fakes (e, p)).Joins true p v := by
  have hahead := lists_of_cuts (j := j) (e := e) hcuts (h .outgoing).1
  have hback := lists_of_cuts (j := j) (e := e) hcuts.symm (h .outgoing).2
  exact ⟨fun d => ⟨(hahead d).1, (hback d).2⟩, fun d => ⟨(hahead d).2, (hback d).1⟩⟩

/-! ## After each vicinity -/

/-- A vicinity of a junction. -/
structure Snap (K : Type) where
  junction : Junction K
  edge : Edge K
  point : Junction K

/-- A snap is to a point of an edge, whichever way the edge is taken. -/
def Snap.Meets (s : Snap Coordinate) (ab : Edge Coordinate) (p : Junction Coordinate) : Prop :=
  (s.edge = ab ∨ s.edge = ab.reverse) ∧ s.point = p

/-- What is joined after a number of snaps, among them some to points of an edge. -/
structure Chained (ab : Edge Coordinate) (points : List (Junction Coordinate))
    (fakes : Fakes Coordinate) (snaps : List (Snap Coordinate)) : Prop where
  linked : ∀ s ∈ snaps, fakes.Joins false s.junction s.point
  ends : ∀ p ∈ points, ∀ s ∈ snaps, s.Meets ab p →
    fakes.Joins true ab.start p ∧ fakes.Joins true p ab.stop
  inner : ∀ p ∈ points, ∀ q ∈ points, p ≠ q → ∀ s ∈ snaps, s.Meets ab p → ∀ s' ∈ snaps,
    s'.Meets ab q → fakes.Joins true p q

namespace Chained

variable {ab : Edge Coordinate} {points : List (Junction Coordinate)} {snaps : List (Snap Coordinate)}

theorem nil : Chained ab points fakes [] where
  linked _ h := nomatch h
  ends _ _ _ h := nomatch h
  inner _ _ _ _ _ _ h := nomatch h

/-- A new point of the edge is joined with the ends. -/
theorem ends_addVicinity (horder : n.Orders (ab.line points)) (hreal : ab.isFake = false)
    (hp : p ∈ points) {s : Snap Coordinate} (hs : s.Meets ab p) :
    (addVicinity n s.junction fakes (s.edge, s.point)).Joins true ab.start p
      ∧ (addVicinity n s.junction fakes (s.edge, s.point)).Joins true p ab.stop := by
  obtain ⟨hedge, rfl⟩ := hs
  have hstart := horder.apart_start hp
  have hstop := horder.apart_stop hp
  rcases hedge with hedge | hedge
  · rw [hedge]
    exact joins_ends hreal hstart hstop
  · rw [hedge]
    have hends : _ ∧ (Fakes.addVicinity n s.junction fakes (ab.reverse, s.point)).Joins true
        s.point ab.start := joins_ends hreal hstop.symm hstart.symm
    exact ⟨hends.2.symm, hends.1.symm⟩

/-- A new point of the edge is joined with each point that is joined with the ends. -/
theorem inner_addVicinity (horder : n.Orders (ab.line points)) (hp : p ∈ points) (hq : v ∈ points)
    (hpq : p ≠ v) (hends : fakes.Joins true ab.start p ∧ fakes.Joins true p ab.stop)
    {s : Snap Coordinate} (hs : s.point = v) :
    (addVicinity n s.junction fakes (s.edge, s.point)).Joins true p v := by
  subst hs
  rcases horder.cuts hp hq hpq with hcuts | hcuts
  · exact (hends.1.cut hcuts).2.symm
  · exact (hends.2.cut hcuts).1

theorem addVicinity (h : Chained ab points fakes snaps) (horder : n.Orders (ab.line points))
    (hreal : ab.isFake = false) (s : Snap Coordinate) : Chained ab points
      (Fakes.addVicinity n s.junction fakes (s.edge, s.point)) (snaps ++ [s]) where
  linked s' hs' := by
    rcases List.mem_append.mp hs' with hold | hnew
    · exact (h.linked s' hold).addVicinity _ _
    · rw [List.mem_singleton.mp hnew]
      exact joins_link
  ends p hp s' hs' hmeets := by
    rcases List.mem_append.mp hs' with hold | hnew
    · obtain ⟨hstart, hstop⟩ := h.ends p hp s' hold hmeets
      exact ⟨hstart.addVicinity _ _, hstop.addVicinity _ _⟩
    · rw [List.mem_singleton.mp hnew] at hmeets
      exact ends_addVicinity horder hreal hp hmeets
  inner p hp q hq hpq s' hs' hmeets s'' hs'' hmeets' := by
    rcases List.mem_append.mp hs' with hold | hnew
    · rcases List.mem_append.mp hs'' with hold' | hnew'
      · exact (h.inner p hp q hq hpq s' hold hmeets s'' hold' hmeets').addVicinity _ _
      · rw [List.mem_singleton.mp hnew'] at hmeets'
        exact inner_addVicinity horder hp hq hpq (h.ends p hp s' hold hmeets) hmeets'.2
    · rw [List.mem_singleton.mp hnew] at hmeets
      rcases List.mem_append.mp hs'' with hold' | hnew'
      · -- the roles are exchanged: it is the second point that has been there
        have hends := h.ends q hq s'' hold' hmeets'
        exact (inner_addVicinity horder hq hp hpq.symm hends hmeets.2).symm
      · rw [List.mem_singleton.mp hnew'] at hmeets'
        exact absurd (hmeets.2.symm.trans hmeets'.2) hpq

theorem vicinities (h : Chained ab points fakes snaps) (horder : n.Orders (ab.line points))
    (hreal : ab.isFake = false) (j : Junction Coordinate)
    (vicinities : List (Edge Coordinate × Junction Coordinate)) : Chained ab points
      (vicinities.foldl (Fakes.addVicinity n j) fakes)
      (snaps ++ vicinities.map fun v => ⟨j, v.1, v.2⟩) := by
  induction vicinities generalizing fakes snaps with
  | nil => rwa [List.map_nil, List.append_nil]
  | cons v vicinities ih =>
    rw [List.map_cons, List.append_cons]
    exact ih (h.addVicinity horder hreal ⟨j, v.1, v.2⟩)

theorem add (h : Chained ab points fakes snaps) (horder : n.Orders (ab.line points))
    (hreal : ab.isFake = false) (j : Junction Coordinate)
    (vicinities : List (Edge Coordinate × Junction Coordinate)) : Chained ab points
      (Fakes.add n fakes j vicinities) (snaps ++ vicinities.map fun v => ⟨j, v.1, v.2⟩) := by
  obtain ⟨hlinked, hends, hinner⟩ := h.vicinities horder hreal j vicinities
  constructor
  · intro s hs
    exact joins_add_iff.mpr (hlinked s hs)
  · intro p hp s hs hmeets
    obtain ⟨hstart, hstop⟩ := hends p hp s hs hmeets
    exact ⟨joins_add_iff.mpr hstart, joins_add_iff.mpr hstop⟩
  · intro p hp q hq hpq s hs hmeets s' hs' hmeets'
    exact joins_add_iff.mpr (hinner p hp q hq hpq s hs hmeets s' hs' hmeets')

end Chained

end Fakes

/-! ## After each call -/

namespace Overlay

variable {ab : Edge Coordinate} {points : List (Junction Coordinate)}

theorem chained_run (calls : List (Junction Coordinate × List (Edge Coordinate × Junction Coordinate)))
    {g : Overlay Coordinate} {snaps : List (Fakes.Snap Coordinate)}
    (h : Fakes.Chained ab points g.fakes snaps) (horder : g.nearness.Orders (ab.line points))
    (hreal : ab.isFake = false) :
    Fakes.Chained ab points (g.run (calls.map fun call => .add call.1 call.2)).fakes
      (snaps ++ calls.flatMap fun call => call.2.map fun v => ⟨call.1, v.1, v.2⟩) := by
  induction calls generalizing g snaps with
  | nil => rwa [List.flatMap_nil, List.append_nil]
  | cons call calls ih =>
    rw [List.flatMap_cons, ← List.append_assoc]
    exact ih (g := g.addFakes call.1 call.2) (h.add horder hreal call.1 call.2) horder

/-- Junctions are connected to vicinities, whatever fake edges there are.  If some points follow each
other on a real edge, and each of them is in a vicinity with the edge or its reverse, then after all
calls the points and the ends of the edge are joined with each other by parts of it, except for the
two ends.  Each junction is joined with the points of its vicinities. -/
theorem run_chained (g : Overlay Coordinate)
    (calls : List (Junction Coordinate × List (Edge Coordinate × Junction Coordinate)))
    (hreal : ab.isFake = false) (horder : g.nearness.Orders (ab.line points))
    (hcalls : ∀ p ∈ points, ∃ call ∈ calls, (ab, p) ∈ call.2 ∨ (ab.reverse, p) ∈ call.2) :
    let fakes := (g.run (calls.map fun call => .add call.1 call.2)).fakes
    (∀ x ∈ ab.line points, ∀ y ∈ ab.line points, x ≠ y → x ∈ points ∨ y ∈ points →
      fakes.Joins true x y)
      ∧ ∀ call ∈ calls, ∀ v ∈ call.2, fakes.Joins false call.1 v.2 := by
  intro fakes
  obtain ⟨hlinked, hends, hinner⟩ := chained_run calls .nil horder hreal
  rw [List.nil_append] at hlinked hends hinner
  have hmet : ∀ p ∈ points, ∃ s ∈ calls.flatMap fun call => call.2.map fun v =>
      (⟨call.1, v.1, v.2⟩ : Fakes.Snap Coordinate), s.Meets ab p := by
    intro p hp
    obtain ⟨call, hcall, hmem⟩ := hcalls p hp
    rcases hmem with hmem | hmem
    · exact ⟨_, List.mem_flatMap.mpr ⟨call, hcall, List.mem_map_of_mem hmem⟩, .inl rfl, rfl⟩
    · exact ⟨_, List.mem_flatMap.mpr ⟨call, hcall, List.mem_map_of_mem hmem⟩, .inr rfl, rfl⟩
  have hpoint : ∀ x ∈ points, ∀ y ∈ ab.line points, x ≠ y → fakes.Joins true x y := by
    intro x hx y hy hxy
    obtain ⟨s, hs, hmeets⟩ := hmet x hx
    obtain ⟨hstart, hstop⟩ := hends x hx s hs hmeets
    rcases List.mem_cons.mp hy with rfl | hy
    · exact hstart.symm
    · rcases List.mem_append.mp hy with hy | hy
      · obtain ⟨s', hs', hmeets'⟩ := hmet y hy
        exact hinner x hx y hy hxy s hs hmeets s' hs' hmeets'
      · rw [List.mem_singleton.mp hy]
        exact hstop
  refine ⟨fun x hx y hy hxy hpoints => ?_, fun call hcall v hv => ?_⟩
  · rcases hpoints with hx' | hy'
    · exact hpoint x hx' y hy hxy
    · exact (hpoint y hy' x hx hxy.symm).symm
  · exact hlinked _ (List.mem_flatMap.mpr ⟨call, hcall, List.mem_map_of_mem hv⟩)

end Overlay

/-! ## Two houses -/

namespace Street

/-- A second house, and its door further on along the street. -/
def east : Junction Coordinate × Junction Coordinate := (⟨⟨0.5, 0.1⟩, 0⟩, ⟨⟨0.5, 0.0⟩, 0⟩)

theorem orders_doors : (Nearness.standard Coordinate).Orders (edge.line [west.2, east.2]) where
  apart := by decide +kernel
  between := .cons (by decide +kernel) (.cons (by decide +kernel) (.cons (by decide +kernel)
    (.cons (by decide +kernel) .nil)))

/-- The house further on is connected first, to the street the other way. -/
def calls : List (Junction Coordinate × List (Edge Coordinate × Junction Coordinate)) :=
  [(east.1, [(edge.reverse, east.2)]), (west.1, [(edge, west.2)])]

theorem joins_doors :
    let fakes := (book.source.plain.run (calls.map fun call => .add call.1 call.2)).fakes
    fakes.Joins true west.2 east.2 ∧ fakes.Joins false west.1 west.2 := by
  intro fakes
  have hcalls : ∀ p ∈ [west.2, east.2], ∃ call ∈ calls,
      (edge, p) ∈ call.2 ∨ (edge.reverse, p) ∈ call.2 := by
    intro p hp
    rcases List.mem_pair.mp hp with rfl | rfl
    · exact ⟨_, List.mem_cons_of_mem _ List.mem_cons_self, .inl List.mem_cons_self⟩
    · exact ⟨_, List.mem_cons_self, .inr List.mem_cons_self⟩
  obtain ⟨hjoined, hlinked⟩ := Overlay.run_chained book.source.plain calls rfl orders_doors hcalls
  have hdoors : west.2 ≠ east.2 := fun h =>
    absurd (congrArg (·.point.x.bits) h) (by decide +kernel)
  constructor
  · have hwest : west.2 ∈ [west.2, east.2] := List.mem_cons_self
    have heast : east.2 ∈ [west.2, east.2] := List.mem_cons_of_mem _ List.mem_cons_self
    have hinner {p : Junction Coordinate} (hp : p ∈ [west.2, east.2]) :
        p ∈ edge.line [west.2, east.2] := List.mem_cons_of_mem _ (List.mem_append_left _ hp)
    exact hjoined _ (hinner hwest) _ (hinner heast) hdoors (.inl hwest)
  · exact hlinked (west.1, [(edge, west.2)]) (List.mem_cons_of_mem _ List.mem_cons_self)
      (edge, west.2) List.mem_cons_self

end Street

end Crossroads

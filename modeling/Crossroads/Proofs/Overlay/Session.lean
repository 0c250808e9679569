import Crossroads.Proofs.Overlay.Snap

/-!
# Fake edges over a session

In a session junctions are connected to vicinities, again and again, and fake edges are dropped.
Whatever the vicinities are, the fake edges stay `Coherent`: an arc is listed at its start just when
it is listed at its end, and no list is empty.  They also stay mirrored, as long as it makes no
difference to which points lie on an edge that the edge is turned around
(`Nearness.SymmetricOn`).

* `Overlay.run_coherent` — what holds after each call of a session.
-/

namespace Crossroads

variable {K : Type} [Scalar K]

/-! ## Sessions -/

namespace Overlay

/-- A call of a session. -/
inductive Use (K : Type) where
  | add (j : Junction K) (vicinities : List (Edge K × Junction K))
  | reset

/-- The road graph after a call. -/
def use (g : Overlay K) : Use K → Overlay K
  | .add j vicinities => g.addFakes j vicinities
  | .reset => g.reset

/-- The road graph after one call after another. -/
def run (g : Overlay K) (uses : List (Use K)) : Overlay K := uses.foldl use g

/-- The points that a call names. -/
def Use.points : Use K → List (Point K)
  | .add j vicinities =>
    j.point :: vicinities.flatMap fun v => [v.1.start.point, v.1.stop.point, v.2.point]
  | .reset => []

/-- What holds before a session and is kept by each of its calls holds after it. -/
theorem run_induction (P : Overlay K → Prop) {g : Overlay K} {uses : List (Use K)} (h : P g)
    (keeps : ∀ g, P g → ∀ u ∈ uses, P (g.use u)) : P (g.run uses) := by
  induction uses generalizing g with
  | nil => exact h
  | cons u uses ih =>
    refine ih (keeps g h u List.mem_cons_self) fun g hg u' hu' => ?_
    exact keeps g hg u' (List.mem_cons_of_mem _ hu')

theorem source_use (g : Overlay K) (u : Use K) : (g.use u).source = g.source := by
  cases u <;> rfl

theorem nearness_use (g : Overlay K) (u : Use K) : (g.use u).nearness = g.nearness := by
  cases u <;> rfl

/-- A session changes neither the roads nor what counts as near. -/
theorem source_run (g : Overlay K) (uses : List (Use K)) : (g.run uses).source = g.source :=
  run_induction (·.source = g.source) rfl fun g' h u _ => (source_use g' u).trans h

end Overlay

/-- Among these points it makes no difference which way distances are taken and edges are turned. -/
structure Nearness.SymmetricOn (n : Nearness K) (points : List (Point K)) : Prop where
  almostEqual : ∀ a ∈ points, ∀ b ∈ points, n.almostEqual a b = n.almostEqual b a
  onSegment : ∀ p ∈ points, ∀ a ∈ points, ∀ b ∈ points, n.onSegment p a b = n.onSegment p b a

namespace Fakes

/-! ## Coherence -/

/-- Each edge is fake and listed at its end, arcs are listed at both ends or at none, and every
junction in a table has an edge. -/
structure Coherent (fakes : Fakes K) : Prop where
  fake : ∀ d u, ∀ e ∈ fakes.edges u d, e = .fake e.start e.stop e.partOfReal
  place : ∀ d u, ∀ e ∈ fakes.edges u d, (e.listedAt d).same u = true
  paired : ∀ e, fakes.Lists .outgoing e ↔ fakes.Lists .ingoing e
  inhabited : ∀ d (u : Junction K) edges, (fakes.table d)[u]? = some edges → edges ≠ []

theorem edges_empty (u : Junction K) (d : Direction) : ({} : Fakes K).edges u d = [] := by
  cases d <;> rfl

theorem coherent_empty : ({} : Fakes K).Coherent where
  fake d u e he := by
    rw [edges_empty] at he
    cases he
  place d u e he := by
    rw [edges_empty] at he
    cases he
  paired e := by
    rw [Lists, Lists, edges_empty, edges_empty]
  inhabited d u edges hedges := by
    cases d <;> cases hedges

omit [Scalar K] in
/-- The halves of an edge are fake. -/
theorem fake_of_mem_split {n : Nearness K} {p : Junction K} {ab e : Edge K}
    (h : e ∈ split n p ab) : e = .fake e.start e.stop e.partOfReal := by
  obtain ⟨-, rfl | rfl⟩ := mem_split_iff.mp h
  · rfl
  · rfl

theorem fake_of_mem_arising {n : Nearness K} {fakes : Fakes K} {j p : Junction K} {ab e : Edge K}
    (h : e ∈ arising n fakes j ab p) : e = .fake e.start e.stop e.partOfReal := by
  rcases mem_arising_iff.mp h with (hahead | hback) | (hlink | hlink) | ⟨d, u, uv, -, -, he⟩
  · exact fake_of_mem_split hahead
  · exact fake_of_mem_split hback
  · rw [hlink]
    rfl
  · rw [hlink]
    rfl
  · exact fake_of_mem_split he

/-- No list of a table becomes empty. -/
theorem ne_nil_foldl_enter (edges : List (Edge K)) {fakes : Fakes K} {d : Direction}
    (h : ∀ (u : Junction K) list, (fakes.table d)[u]? = some list → list ≠ []) (u : Junction K)
    (list : List (Edge K)) (hlist : ((edges.foldl enter fakes).table d)[u]? = some list) :
    list ≠ [] := by
  induction edges generalizing fakes with
  | nil => exact h u list hlist
  | cons e edges ih =>
    refine ih ?_ hlist
    intro u list hlist
    rw [table_enter, append, Std.TreeMap.getElem?_insert] at hlist
    split at hlist
    · rw [← Option.some.inj hlist]
      exact List.append_ne_nil_of_right_ne_nil _ (List.cons_ne_nil _ _)
    · exact h u list hlist

namespace Coherent

variable {fakes : Fakes K}

/-- An edge that is listed anywhere is listed at both its ends. -/
theorem lists (h : fakes.Coherent) {u : Junction K} {d : Direction} {e : Edge K}
    (he : e ∈ fakes.edges u d) (d' : Direction) : fakes.Lists d' e := by
  have hlists : fakes.Lists d e := lists_of_mem he (h.place d u e he)
  cases d with
  | outgoing => cases d' with
    | outgoing => exact hlists
    | ingoing => exact (h.paired e).mp hlists
  | ingoing => cases d' with
    | outgoing => exact (h.paired e).mpr hlists
    | ingoing => exact hlists

theorem foldl_enter (h : fakes.Coherent) {edges : List (Edge K)}
    (hedges : ∀ e ∈ edges, e = .fake e.start e.stop e.partOfReal) :
    (edges.foldl Fakes.enter fakes).Coherent where
  fake d u e he := by
    rw [edges_foldl_enter] at he
    rcases List.mem_append.mp he with hold | hnew
    · exact h.fake d u e hold
    · exact hedges e (List.mem_filter.mp hnew).1
  place d u e he := by
    rw [edges_foldl_enter] at he
    rcases List.mem_append.mp he with hold | hnew
    · exact h.place d u e hold
    · exact (List.mem_filter.mp hnew).2
  paired e := by rw [lists_foldl_enter_iff, lists_foldl_enter_iff, h.paired]
  inhabited d := ne_nil_foldl_enter edges (h.inhabited d)

theorem vicinities (h : fakes.Coherent) (n : Nearness K) (j : Junction K)
    (vicinities : List (Edge K × Junction K)) :
    (vicinities.foldl (addVicinity n j) fakes).Coherent := by
  induction vicinities generalizing fakes with
  | nil => exact h
  | cons v vicinities ih => exact ih (h.foldl_enter fun _ => fake_of_mem_arising)

theorem add (h : fakes.Coherent) (n : Nearness K) (j : Junction K)
    (vicinities : List (Edge K × Junction K)) : (Fakes.add n fakes j vicinities).Coherent := by
  have hentered := h.vicinities n j vicinities
  constructor
  · intro d u e he
    rw [edges_add] at he
    exact hentered.fake d u e (mem_of_mem_tidy he)
  · intro d u e he
    rw [edges_add] at he
    exact hentered.place d u e (mem_of_mem_tidy he)
  · intro e
    rw [lists_add_iff, lists_add_iff, hentered.paired]
  · intro d u edges hedges
    rw [table_add, getElem?_map_values, Option.map_eq_some_iff] at hedges
    obtain ⟨edges', hedges', rfl⟩ := hedges
    obtain ⟨e, he⟩ := List.exists_mem_of_ne_nil _ (hentered.inhabited d u edges' hedges')
    obtain ⟨kept, hkept, -⟩ := exists_same_mem_tidy he
    exact List.ne_nil_of_mem hkept

end Coherent

/-! ## Strict order -/

/-- The edges of each list are in strict order. -/
def Ordered (fakes : Fakes K) : Prop := ∀ d (u : Junction K) edges,
  (fakes.table d)[u]? = some edges → edges.Pairwise fun a b => Edge.compare a b = .lt

theorem ordered_empty : ({} : Fakes K).Ordered := by
  intro d u edges hedges
  cases d <;> cases hedges

/-- Whatever was there, the lists are in strict order after each call. -/
theorem ordered_add (n : Nearness K) (fakes : Fakes K) (j : Junction K)
    (vicinities : List (Edge K × Junction K)) : (add n fakes j vicinities).Ordered := by
  intro d u edges hedges
  rw [table_add, getElem?_map_values, Option.map_eq_some_iff] at hedges
  obtain ⟨edges', -, rfl⟩ := hedges
  exact pairwise_tidy edges'

end Fakes

/-! ## The way back -/

namespace Edge

/-- The fake edge the other way. -/
def back (e : Edge K) : Edge K := .fake e.stop e.start e.partOfReal

theorem same_back {a b : Edge K} (h : a.same b = true) : a.back.same b.back = true := by
  obtain ⟨-, -, hpart, -, hstart, hstop⟩ := (same_iff a b).mp h
  rw [back, back, hpart]
  exact same_fake hstop hstart _

end Edge

namespace Fakes

variable {n : Nearness Coordinate} {points : List (Point Coordinate)}

/-- The halves of an edge, the other way, are those of the edge the other way. -/
theorem exists_back_mem_split (hn : n.SymmetricOn points) {p : Junction Coordinate}
    {ab e : Edge Coordinate} (h : e ∈ split n p ab) (hp : p.point ∈ points)
    (hstart : ab.start.point ∈ points) (hstop : ab.stop.point ∈ points) (ba : Edge Coordinate)
    (hturned : ab.start.same ba.stop = true) (hturned' : ab.stop.same ba.start = true)
    (hreal : ba.isReal = ab.isReal) : ∃ e' ∈ split n p ba, e.back.same e' = true := by
  obtain ⟨⟨hfar, hfar'⟩, he⟩ := mem_split_iff.mp h
  rw [hn.almostEqual _ hstart _ hp, Junction.point_eq_of_same hturned] at hfar
  rw [hn.almostEqual _ hp _ hstop, Junction.point_eq_of_same hturned'] at hfar'
  rw [split_of_far hfar' hfar, hreal]
  rcases he with rfl | rfl
  · exact ⟨_, List.mem_cons_of_mem _ List.mem_cons_self, Edge.same_fake p.same_refl hturned _⟩
  · exact ⟨_, List.mem_cons_self, Edge.same_fake hturned' p.same_refl _⟩

/-- All edges lie among the points, and with each arc the way back is listed. -/
structure Mirrored (fakes : Fakes Coordinate) (points : List (Point Coordinate)) : Prop where
  within : ∀ d u, ∀ e ∈ fakes.edges u d, e.start.point ∈ points ∧ e.stop.point ∈ points
  back : ∀ e, fakes.Lists .outgoing e → fakes.Lists .outgoing e.back

theorem mirrored_empty (points : List (Point Coordinate)) :
    ({} : Fakes Coordinate).Mirrored points where
  within d u e he := by
    rw [edges_empty] at he
    cases he
  back e he := by
    obtain ⟨kept, hkept, -⟩ := he
    rw [edges_empty] at hkept
    cases hkept

variable {fakes : Fakes Coordinate} {j p : Junction Coordinate} {ab e : Edge Coordinate}

/-- What a vicinity brings lies among the points that it names and those that were there. -/
theorem within_of_mem_arising (h : fakes.Mirrored points) (hj : j.point ∈ points)
    (hp : p.point ∈ points) (hstart : ab.start.point ∈ points) (hstop : ab.stop.point ∈ points)
    (he : e ∈ arising n fakes j ab p) : e.start.point ∈ points ∧ e.stop.point ∈ points := by
  have hsplit {uv : Edge Coordinate} (hstart : uv.start.point ∈ points)
      (hstop : uv.stop.point ∈ points) (he : e ∈ split n p uv) :
      e.start.point ∈ points ∧ e.stop.point ∈ points := by
    obtain ⟨-, rfl | rfl⟩ := mem_split_iff.mp he
    · exact ⟨hstart, hp⟩
    · exact ⟨hp, hstop⟩
  rcases mem_arising_iff.mp he with (hahead | hback) | (rfl | rfl) | ⟨d, u, uv, huv, -, he⟩
  · exact hsplit hstart hstop hahead
  · exact hsplit hstop hstart hback
  · exact ⟨hj, hp⟩
  · exact ⟨hp, hj⟩
  · exact hsplit (h.within d u uv huv).1 (h.within d u uv huv).2 he

/-- A vicinity brings the way back of each edge that it brings. -/
theorem exists_back_mem_arising (hn : n.SymmetricOn points) (hc : fakes.Coherent)
    (h : fakes.Mirrored points) (hp : p.point ∈ points) (hstart : ab.start.point ∈ points)
    (hstop : ab.stop.point ∈ points) (he : e ∈ arising n fakes j ab p) :
    ∃ e' ∈ arising n fakes j ab p, e.back.same e' = true := by
  simp only [mem_arising_iff] at he ⊢
  rcases he with (hahead | hback) | (rfl | rfl) | ⟨d, u, uv, huv, hon, he⟩
  · obtain ⟨e', he', hsame⟩ := exists_back_mem_split hn hahead hp hstart hstop ab.reverse
      ab.start.same_refl ab.stop.same_refl rfl
    exact ⟨e', .inl (.inr he'), hsame⟩
  · obtain ⟨e', he', hsame⟩ := exists_back_mem_split hn hback hp hstop hstart ab
      ab.stop.same_refl ab.start.same_refl rfl
    exact ⟨e', .inl (.inl he'), hsame⟩
  · exact ⟨_, .inr (.inl (.inr rfl)), Edge.same_refl _⟩
  · exact ⟨_, .inr (.inl (.inl rfl)), Edge.same_refl _⟩
  · -- the way back of the edge that is split is listed, and it passes through the point as well
    obtain ⟨hu, hv⟩ := h.within d u uv huv
    obtain ⟨vu, hvu, hsame⟩ := h.back uv (hc.lists huv .outgoing)
    obtain ⟨hfeature, -, hpart, -, hturned', hturned⟩ := (Edge.same_iff _ _).mp hsame
    have hreal : vu.isReal = uv.isReal := by
      rw [hc.fake d u uv huv, Edge.isReal, Edge.isReal, Edge.isFake, ← hfeature, ← hpart]
      rfl
    have hon' : n.onSegment p.point vu.start.point vu.stop.point = true := by
      rw [← Junction.point_eq_of_same hturned, ← Junction.point_eq_of_same hturned']
      exact (hn.onSegment _ hp _ hv _ hu).trans hon
    obtain ⟨e', he', hsame⟩ := exists_back_mem_split hn he hp hu hv vu hturned hturned' hreal
    exact ⟨e', .inr (.inr ⟨.outgoing, _, vu, hvu, hon', he'⟩), hsame⟩

namespace Mirrored

theorem addVicinity (h : fakes.Mirrored points) (hc : fakes.Coherent) (hn : n.SymmetricOn points)
    (hj : j.point ∈ points) (hp : p.point ∈ points) (hstart : ab.start.point ∈ points)
    (hstop : ab.stop.point ∈ points) : (addVicinity n j fakes (ab, p)).Mirrored points where
  within d u e he := by
    rw [Fakes.addVicinity, edges_foldl_enter] at he
    rcases List.mem_append.mp he with hold | hnew
    · exact h.within d u e hold
    · exact within_of_mem_arising h hj hp hstart hstop (List.mem_filter.mp hnew).1
  back e he := by
    rw [lists_addVicinity_iff] at he ⊢
    rcases he with hold | ⟨e', he', hsame⟩
    · exact .inl (h.back e hold)
    · obtain ⟨e'', he'', hsame'⟩ := exists_back_mem_arising hn hc h hp hstart hstop he'
      exact .inr ⟨e'', he'', Edge.same_trans (Edge.same_back hsame) hsame'⟩

theorem vicinities (h : fakes.Mirrored points) (hc : fakes.Coherent) (hn : n.SymmetricOn points)
    {vicinities : List (Edge Coordinate × Junction Coordinate)}
    (hpoints : (Overlay.Use.add j vicinities).points ⊆ points) :
    (vicinities.foldl (Fakes.addVicinity n j) fakes).Mirrored points := by
  induction vicinities generalizing fakes with
  | nil => exact h
  | cons v vicinities ih =>
    simp only [Overlay.Use.points, List.flatMap_cons, List.cons_subset, List.append_subset] at hpoints
    obtain ⟨hj, ⟨hstart, hstop, hp, -⟩, hrest⟩ := hpoints
    exact ih (h.addVicinity hc hn hj hp hstart hstop) (hc.foldl_enter fun _ => fake_of_mem_arising)
      (List.cons_subset.mpr ⟨hj, hrest⟩)

theorem add (h : fakes.Mirrored points) (hc : fakes.Coherent) (hn : n.SymmetricOn points)
    {vicinities : List (Edge Coordinate × Junction Coordinate)}
    (hpoints : (Overlay.Use.add j vicinities).points ⊆ points) :
    (Fakes.add n fakes j vicinities).Mirrored points := by
  have hentered := h.vicinities hc hn hpoints
  constructor
  · intro d u e he
    rw [edges_add] at he
    exact hentered.within d u e (mem_of_mem_tidy he)
  · intro e he
    rw [lists_add_iff] at he ⊢
    exact hentered.back e he

end Mirrored

end Fakes

/-! ## After each call -/

namespace Overlay

theorem coherent_use {g : Overlay K} (h : g.fakes.Coherent) (u : Use K) :
    (g.use u).fakes.Coherent := by
  cases u with
  | add j vicinities => exact h.add g.nearness j vicinities
  | reset => exact Fakes.coherent_empty

theorem ordered_use (g : Overlay K) (u : Use K) : (g.use u).fakes.Ordered := by
  cases u with
  | add j vicinities => exact Fakes.ordered_add g.nearness g.fakes j vicinities
  | reset => exact Fakes.ordered_empty

theorem mirrored_use {g : Overlay Coordinate} {points : List (Point Coordinate)}
    (h : g.fakes.Mirrored points) (hc : g.fakes.Coherent) (hn : g.nearness.SymmetricOn points)
    {u : Use Coordinate} (hu : u.points ⊆ points) : (g.use u).fakes.Mirrored points := by
  cases u with
  | add j vicinities => exact h.add hc hn hu
  | reset => exact Fakes.mirrored_empty points

theorem mirrored_run {g : Overlay Coordinate} {points : List (Point Coordinate)}
    {uses : List (Use Coordinate)} (h : g.fakes.Mirrored points) (hc : g.fakes.Coherent)
    (hn : g.nearness.SymmetricOn points) (huses : uses.flatMap Use.points ⊆ points) :
    (g.run uses).fakes.Mirrored points := by
  induction uses generalizing g with
  | nil => exact h
  | cons u uses ih =>
    rw [List.flatMap_cons, List.append_subset] at huses
    exact ih (mirrored_use h hc hn huses.1) (coherent_use hc u) (nearness_use g u ▸ hn) huses.2

/-- Without fake edges there are no junctions in the table either. -/
theorem hasFakes_iff {g : Overlay K} (h : g.fakes.Coherent) :
    g.hasFakes = true ↔ ∃ d u, g.fakeEdges u d ≠ [] := by
  rw [hasFakes, Fakes.isEmpty, Bool.not_eq_true', Std.TreeMap.isEmpty_eq_false_iff_exists_mem]
  constructor
  · rintro ⟨u, hu⟩
    obtain ⟨edges, hedges⟩ := Option.isSome_iff_exists.mp (Std.TreeMap.mem_iff_isSome_getElem?.mp hu)
    refine ⟨.outgoing, u, ?_⟩
    rw [fakeEdges, Fakes.edges, Std.TreeMap.getD_eq_getD_getElem?, hedges]
    exact h.inhabited .outgoing u edges hedges
  · rintro ⟨d, u, hedges⟩
    obtain ⟨e, he⟩ := List.exists_mem_of_ne_nil _ hedges
    obtain ⟨kept, hkept, -⟩ := h.lists he .outgoing
    rw [Fakes.edges_eq, Std.TreeMap.getD_eq_getD_getElem?] at hkept
    refine ⟨e.start, Std.TreeMap.mem_iff_isSome_getElem?.mpr ?_⟩
    cases hat : g.fakes.outgoing[e.start]? with
    | some edges => rfl
    | none =>
      rw [show (g.fakes.table .outgoing)[e.listedAt .outgoing]? = none from hat] at hkept
      cases hkept

/-- What holds after each call of a session that starts without fake edges.  Each fake edge is
listed where it starts and where it ends, in lists that are not empty and in strict order; the way
back is listed too, if nearness is symmetric among the points of the session.  Real edges stay as
they are, and only they are left after a reset. -/
theorem run_coherent (source : RoadSource Coordinate) (n : Nearness Coordinate)
    (uses : List (Use Coordinate)) :
    let g := run { source := source, nearness := n } uses
    (∀ u, ∀ e ∈ g.fakeEdges u .outgoing, e.isFake = true ∧ e.start.same u = true)
      ∧ (∀ u, ∀ e ∈ g.fakeEdges u .ingoing, e.isFake = true ∧ e.stop.same u = true)
      ∧ (∀ e, g.fakes.Lists .outgoing e ↔ g.fakes.Lists .ingoing e)
      ∧ (∀ d (u : Junction Coordinate) edges, (g.fakes.table d)[u]? = some edges →
        edges ≠ [] ∧ edges.Pairwise fun a b => Edge.compare a b = .lt)
      ∧ (n.SymmetricOn (uses.flatMap Use.points) → ∀ d u, ∀ e ∈ g.fakeEdges u d, ∀ d',
        g.fakes.Lists d' (.fake e.stop e.start e.partOfReal))
      ∧ (g.hasFakes = true ↔ ∃ d u, g.fakeEdges u d ≠ [])
      ∧ (∀ u d, g.regularEdges u d = source.edges u d)
      ∧ ∀ u d, (g.use .reset).edges u d = source.edges u d := by
  intro g
  have hsource : g.source = source := source_run _ uses
  have hcoherent : g.fakes.Coherent :=
    run_induction (·.fakes.Coherent) Fakes.coherent_empty fun _ h u _ => coherent_use h u
  have hordered : g.fakes.Ordered :=
    run_induction (·.fakes.Ordered) Fakes.ordered_empty fun g _ u _ => ordered_use g u
  have hregular (u d) : g.regularEdges u d = source.edges u d := by rw [regularEdges, hsource]
  refine ⟨fun u e he => ⟨?_, hcoherent.place .outgoing u e he⟩,
    fun u e he => ⟨?_, hcoherent.place .ingoing u e he⟩, hcoherent.paired,
    fun d u edges hedges => ⟨hcoherent.inhabited d u edges hedges, hordered d u edges hedges⟩,
    fun hn d u e he d' => ?_, hasFakes_iff hcoherent, hregular, fun u d => ?_⟩
  · rw [hcoherent.fake .outgoing u e he]
    rfl
  · rw [hcoherent.fake .ingoing u e he]
    rfl
  · have hmirrored : g.fakes.Mirrored (uses.flatMap Use.points) :=
      mirrored_run (Fakes.mirrored_empty _) Fakes.coherent_empty hn (List.Subset.refl _)
    have hback := hmirrored.back e (hcoherent.lists he .outgoing)
    cases d' with
    | outgoing => exact hback
    | ingoing => exact (hcoherent.paired _).mp hback
  · rw [edges, fakeEdges, use, reset, Fakes.edges_empty, List.append_nil]
    exact hregular u d

end Overlay

/-! ## A street with two houses -/

namespace Street

/-- A house north of the street, and its door on the street. -/
def west : Junction Coordinate × Junction Coordinate := (⟨⟨0.25, 0.1⟩, 0⟩, ⟨⟨0.25, 0.0⟩, 0⟩)

/-- The house is connected after a reset. -/
def session : List (Overlay.Use Coordinate) := [.reset, .add west.1 [(edge, west.2)]]

theorem symmetricOn_session :
    (Nearness.standard Coordinate).SymmetricOn (session.flatMap Overlay.Use.points) where
  almostEqual := by decide +kernel
  onSegment := by decide +kernel

/-- After the session some edge is fake, and each one has its way back. -/
theorem lists_back_session :
    let g := Overlay.run { source := book.source } session
    g.hasFakes = true ∧ ∀ d u, ∀ e ∈ g.fakeEdges u d, ∀ d',
      g.fakes.Lists d' (.fake e.stop e.start e.partOfReal) := by
  intro g
  obtain ⟨-, -, -, -, hback, hfakes, -, -⟩ :=
    Overlay.run_coherent book.source (.standard Coordinate) session
  refine ⟨hfakes.mpr ⟨.outgoing, west.1, ?_⟩, hback symmetricOn_session⟩
  have hlink : Edge.fake west.1 west.2 false ∈
      Fakes.arising (.standard Coordinate) {} west.1 edge west.2 := by
    simp [Fakes.arising]
  obtain ⟨kept, hkept, -⟩ := Fakes.exists_mem_add_of_mem_arising hlink west.1.same_refl
  exact List.ne_nil_of_mem hkept

end Street

end Crossroads

import Crossroads.Proofs.Overlay.Chain

/-!
# Connecting a junction once more

A junction is connected to a vicinity, an edge with a point, and then to the same vicinity once more.
The second call splits what passes through the point, and by then that includes the edges of the
first call.  Each of these has the point for an end, so it has no parts (`Fakes.split_of_ends`); the
parts of all others were there before.  So the second call brings nothing new
(`Fakes.mem_arising_of_again`).

* `Overlay.fakeEdges_addFakes_again` — the fake edges at each junction stay the same arcs.
-/

namespace Crossroads

variable {K : Type} [Scalar K]

namespace Edge

/-- In strict order, edges are known by the arcs among them. -/
theorem forall₂_same_of_pairwise {l m : List (Edge K)}
    (hl : l.Pairwise fun a b => compare a b = .lt) (hm : m.Pairwise fun a b => compare a b = .lt)
    (hlm : ∀ a ∈ l, ∃ b ∈ m, a.same b = true) (hml : ∀ b ∈ m, ∃ a ∈ l, b.same a = true) :
    List.Forall₂ (fun a b => a.same b = true) l m := by
  simp only [same, beq_iff_eq] at hlm hml ⊢
  induction l generalizing m with
  | nil =>
    cases m with
    | nil => exact .nil
    | cons b m =>
      obtain ⟨a, ha, -⟩ := hml b List.mem_cons_self
      cases ha
  | cons a l ih =>
    cases m with
    | nil =>
      obtain ⟨b, hb, -⟩ := hlm a List.mem_cons_self
      cases hb
    | cons b m =>
      obtain ⟨hal, hl⟩ := List.pairwise_cons.mp hl
      obtain ⟨hbm, hm⟩ := List.pairwise_cons.mp hm
      -- neither list starts before the other
      have hhead : compare a b = .eq := by
        obtain ⟨b', hb', hab'⟩ := hlm a List.mem_cons_self
        obtain ⟨a', ha', hba'⟩ := hml b List.mem_cons_self
        rcases List.mem_cons.mp hb' with rfl | hb'
        · exact hab'
        · rcases List.mem_cons.mp ha' with rfl | ha'
          · exact Std.OrientedCmp.eq_symm hba'
          · have hlt : compare b a = .lt :=
              Std.TransCmp.lt_of_lt_of_eq (hbm b' hb') (Std.OrientedCmp.eq_symm hab')
            have hgt : compare a b = .lt :=
              Std.TransCmp.lt_of_lt_of_eq (hal a' ha') (Std.OrientedCmp.eq_symm hba')
            rw [Std.OrientedCmp.gt_of_lt hlt] at hgt
            cases hgt
      refine .cons hhead (ih hl hm (fun e he => ?_) fun e he => ?_)
      · obtain ⟨e', he', hee'⟩ := hlm e (List.mem_cons_of_mem _ he)
        rcases List.mem_cons.mp he' with rfl | he'
        · have hlt := Std.TransCmp.lt_of_lt_of_eq (hal e he) hee'
          rw [hhead] at hlt
          cases hlt
        · exact ⟨e', he', hee'⟩
      · obtain ⟨e', he', hee'⟩ := hml e (List.mem_cons_of_mem _ he)
        rcases List.mem_cons.mp he' with rfl | he'
        · have hlt := Std.TransCmp.lt_of_lt_of_eq (hbm e he) hee'
          rw [Std.OrientedCmp.eq_symm hhead] at hlt
          cases hlt
        · exact ⟨e', he', hee'⟩

end Edge

namespace Fakes

variable {n : Nearness K} {fakes : Fakes K} {j p : Junction K} {ab e : Edge K}

omit [Scalar K] in
/-- An edge from the point or to it has no parts. -/
theorem split_of_ends (hp : n.almostEqual p.point p.point = true) (h : e.start = p ∨ e.stop = p) :
    split n p e = [] := by
  rw [split, if_pos]
  rcases h with rfl | rfl
  · exact Bool.or_eq_true_iff.mpr (.inl hp)
  · exact Bool.or_eq_true_iff.mpr (.inr hp)

/-- Whatever a vicinity brings starts or ends at its point. -/
theorem ends_of_mem_arising (h : e ∈ arising n fakes j ab p) : e.start = p ∨ e.stop = p := by
  have hsplit {uv : Edge K} (he : e ∈ split n p uv) : e.start = p ∨ e.stop = p := by
    obtain ⟨-, rfl | rfl⟩ := mem_split_iff.mp he
    · exact .inr rfl
    · exact .inl rfl
  rcases mem_arising_iff.mp h with (hahead | hback) | (rfl | rfl) | ⟨d, u, uv, -, -, he⟩
  · exact hsplit hahead
  · exact hsplit hback
  · exact .inr rfl
  · exact .inl rfl
  · exact hsplit he

/-- After a vicinity is connected, each list holds what it held and what the vicinity brings. -/
theorem edges_add_vicinity (n : Nearness K) (fakes : Fakes K) (j p u : Junction K) (ab : Edge K)
    (d : Direction) : (add n fakes j [(ab, p)]).edges u d
      = tidy (fakes.edges u d ++ (arising n fakes j ab p).filter fun e => (e.listedAt d).same u) := by
  rw [edges_add, List.foldl_cons, List.foldl_nil, addVicinity, edges_foldl_enter]

/-- What a vicinity brings the second time, it brought the first time. -/
theorem mem_arising_of_again (hp : n.almostEqual p.point p.point = true)
    (h : e ∈ arising n (add n fakes j [(ab, p)]) j ab p) : e ∈ arising n fakes j ab p := by
  rcases mem_arising_iff.mp h with hhalf | hlink | ⟨d, u, uv, huv, hon, he⟩
  · exact mem_arising_iff.mpr (.inl hhalf)
  · exact mem_arising_iff.mpr (.inr (.inl hlink))
  · rw [edges_add_vicinity] at huv
    rcases List.mem_append.mp (mem_of_mem_tidy huv) with hold | hnew
    · exact mem_arising_iff.mpr (.inr (.inr ⟨d, u, uv, hold, hon, he⟩))
    · rw [split_of_ends hp (ends_of_mem_arising (List.mem_filter.mp hnew).1)] at he
      cases he

end Fakes

namespace Overlay

/-- Whatever fake edges there are, and whichever points count as equal or as lying on an edge: if the
point of a vicinity is equal to itself, then connecting a junction to the vicinity once more leaves
the same arcs at every junction, in the same order. -/
theorem fakeEdges_addFakes_again (g : Overlay K) (j : Junction K) (ab : Edge K) (p : Junction K)
    (hp : g.nearness.almostEqual p.point p.point = true) (u : Junction K) (d : Direction) :
    List.Forall₂ (fun a b => a.same b = true)
      (((g.addFakes j [(ab, p)]).addFakes j [(ab, p)]).fakeEdges u d)
      ((g.addFakes j [(ab, p)]).fakeEdges u d) := by
  let once := g.fakes.add g.nearness j [(ab, p)]
  show List.Forall₂ _ ((once.add g.nearness j [(ab, p)]).edges u d) (once.edges u d)
  have hagain := once.edges_add_vicinity g.nearness j p u ab d
  have honce := g.fakes.edges_add_vicinity g.nearness j p u ab d
  refine Edge.forall₂_same_of_pairwise ?_ ?_ (fun e he => ?_) fun e he => ?_
  · rw [hagain]
    exact Fakes.pairwise_tidy _
  · rw [honce]
    exact Fakes.pairwise_tidy _
  · rw [hagain] at he
    rcases List.mem_append.mp (Fakes.mem_of_mem_tidy he) with hold | hnew
    · exact ⟨e, hold, e.same_refl⟩
    · obtain ⟨harises, hat⟩ := List.mem_filter.mp hnew
      rw [honce]
      exact Fakes.exists_same_mem_tidy (List.mem_append_right _
        (List.mem_filter.mpr ⟨Fakes.mem_arising_of_again hp harises, hat⟩))
  · rw [hagain]
    exact Fakes.exists_same_mem_tidy (List.mem_append_left _ he)

end Overlay

namespace Street

/-- Both houses are connected, and the one in the west once more. -/
theorem west_again :
    let g := book.source.plain.run (calls.map fun call => .add call.1 call.2)
    let twice := g.addFakes west.1 [(edge, west.2)]
    twice.fakeEdges west.1 .outgoing ≠ [] ∧
      List.Forall₂ (fun a b => a.same b = true) (twice.fakeEdges west.1 .outgoing)
        (g.fakeEdges west.1 .outgoing) := by
  intro g twice
  have hnear : (Nearness.standard Coordinate).almostEqual west.2.point west.2.point = true := by
    decide +kernel
  constructor
  · have hlink : Edge.fake west.1 west.2 false ∈
        (Fakes.arising (.standard Coordinate) g.fakes west.1 edge west.2).filter fun e =>
          (e.listedAt .outgoing).same west.1 :=
      List.mem_filter.mpr ⟨Fakes.mem_arising_iff.mpr (.inr (.inl (.inl rfl))), west.1.same_refl⟩
    obtain ⟨kept, hkept, -⟩ := Fakes.exists_same_mem_tidy
      (List.mem_append_right (g.fakes.edges west.1 .outgoing) hlink)
    rw [← Fakes.edges_add_vicinity] at hkept
    exact List.ne_nil_of_mem hkept
  · exact Overlay.fakeEdges_addFakes_again
      (book.source.plain.addFakes east.1 [(edge.reverse, east.2)]) west.1 edge west.2 hnear west.1
      .outgoing

end Street

end Crossroads

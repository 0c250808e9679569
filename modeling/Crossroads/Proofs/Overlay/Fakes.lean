import Crossroads.Overlay.Fakes
import Crossroads.Proofs.Tables

/-!
# What fake edges are entered

Putting the fake edges of a junction in order and leaving out repeats loses no arc.  So fake edges
`List` an arc after a vicinity just when they did before or the vicinity brings it
(`lists_addVicinity_iff`, `lists_add_iff`), which is said by `mem_arising_iff`; the edges of each
list come in strict order (`pairwise_tidy`).

Where there were no fake edges, those out of a junction are the ones that the vicinities bring
(`mem_arising_of_mem_add`, `exists_mem_add_of_mem_arising`).
-/

namespace Crossroads

variable {K : Type} [Scalar K]

namespace Junction

theorem same_iff (a b : Junction K) : a.same b = true ↔ compare a b = .eq := by
  rw [same, beq_iff_eq]

theorem same_refl (a : Junction K) : a.same a = true := by
  rw [same_iff]
  exact Std.ReflCmp.compare_self

theorem same_symm {a b : Junction K} (h : a.same b = true) : b.same a = true := by
  rw [same_iff] at h ⊢
  exact Std.OrientedCmp.eq_symm h

theorem same_trans {a b c : Junction K} (hab : a.same b = true) (hbc : b.same c = true) :
    a.same c = true := by
  rw [same_iff] at hab hbc ⊢
  exact Std.TransCmp.eq_trans hab hbc

end Junction

namespace Edge

theorem same_refl (e : Edge K) : e.same e = true := by
  rw [same, beq_iff_eq]
  exact Std.ReflCmp.compare_self

theorem same_trans {a b c : Edge K} (hab : a.same b = true) (hbc : b.same c = true) :
    a.same c = true := by
  rw [same, beq_iff_eq] at hab hbc ⊢
  exact Std.TransCmp.eq_trans hab hbc

theorem same_symm {a b : Edge K} (h : a.same b = true) : b.same a = true := by
  rw [same, beq_iff_eq] at h ⊢
  exact Std.OrientedCmp.eq_symm h

theorem same_iff (a b : Edge K) : a.same b = true ↔ a.feature = b.feature ∧ a.forward = b.forward
    ∧ a.partOfReal = b.partOfReal ∧ a.index = b.index ∧ a.start.same b.start = true
    ∧ a.stop.same b.stop = true := by
  rw [same, beq_iff_eq, Junction.same_iff, Junction.same_iff]
  simp only [compare, compareLex_eq_eq, compareOn, byStart, byStop, Std.LawfulEqOrd.compare_eq_iff_eq]

/-- The same arc has the same ends. -/
theorem same_stop {a b : Edge K} (h : a.same b = true) : a.stop.same b.stop = true :=
  ((same_iff a b).mp h).2.2.2.2.2

/-- The junction at which an edge is listed. -/
def listedAt : Direction → Edge K → Junction K
  | .outgoing, e => e.start
  | .ingoing, e => e.stop

theorem same_listedAt {a b : Edge K} (h : a.same b = true) (d : Direction) :
    (a.listedAt d).same (b.listedAt d) = true := by
  cases d with
  | outgoing => exact ((same_iff a b).mp h).2.2.2.2.1
  | ingoing => exact same_stop h

/-- The parts of the edge are parts of a real one. -/
def isReal (e : Edge K) : Bool := !e.isFake || e.partOfReal

theorem same_fake {a a' b b' : Junction K} (ha : a.same a' = true) (hb : b.same b' = true)
    (partOfReal : Bool) : (fake a b partOfReal).same (fake a' b' partOfReal) = true :=
  (same_iff _ _).mpr ⟨rfl, rfl, rfl, rfl, ha, hb⟩

end Edge

namespace Fakes

/-! ## Order without repeats -/

theorem mem_of_mem_dropRepeats {e : Edge K} {edges : List (Edge K)} (h : e ∈ dropRepeats edges) :
    e ∈ edges := by
  induction edges with
  | nil => exact h
  | cons first rest ih =>
    rw [dropRepeats] at h
    split at h
    · rename_i heq
      rw [List.mem_singleton.mp h]
      exact List.mem_cons_self
    · rename_i next later heq
      rw [heq] at ih
      split at h
      · rcases List.mem_cons.mp h with rfl | hlater
        · exact List.mem_cons_self
        · exact List.mem_cons_of_mem _ (ih (List.mem_cons_of_mem _ hlater))
      · rcases List.mem_cons.mp h with rfl | hnext
        · exact List.mem_cons_self
        · exact List.mem_cons_of_mem _ (ih hnext)

/-- An edge is dropped only if one is kept that is the same. -/
theorem exists_same_mem_dropRepeats {e : Edge K} {edges : List (Edge K)} (h : e ∈ edges) :
    ∃ kept ∈ dropRepeats edges, e.same kept = true := by
  induction edges with
  | nil => cases h
  | cons first rest ih =>
    rw [dropRepeats]
    split
    · rename_i heq
      rw [heq] at ih
      rcases List.mem_cons.mp h with rfl | hrest
      · exact ⟨e, List.mem_cons_self, e.same_refl⟩
      · obtain ⟨kept, hkept, -⟩ := ih hrest
        cases hkept
    · rename_i next later heq
      rw [heq] at ih
      split
      · rename_i hsame
        rcases List.mem_cons.mp h with rfl | hrest
        · exact ⟨e, List.mem_cons_self, e.same_refl⟩
        · obtain ⟨kept, hkept, hekept⟩ := ih hrest
          rcases List.mem_cons.mp hkept with rfl | hlater
          · exact ⟨first, List.mem_cons_self, Edge.same_trans hekept (Edge.same_symm hsame)⟩
          · exact ⟨kept, List.mem_cons_of_mem _ hlater, hekept⟩
      · rcases List.mem_cons.mp h with rfl | hrest
        · exact ⟨e, List.mem_cons_self, e.same_refl⟩
        · obtain ⟨kept, hkept, hekept⟩ := ih hrest
          exact ⟨kept, List.mem_cons_of_mem _ hkept, hekept⟩

theorem mem_of_mem_tidy {e : Edge K} {edges : List (Edge K)} (h : e ∈ tidy edges) : e ∈ edges :=
  List.mem_mergeSort.mp (mem_of_mem_dropRepeats h)

theorem exists_same_mem_tidy {e : Edge K} {edges : List (Edge K)} (h : e ∈ edges) :
    ∃ kept ∈ tidy edges, e.same kept = true :=
  exists_same_mem_dropRepeats (List.mem_mergeSort.mpr h)

/-- Sorted edges are in strict order once repeats are dropped. -/
theorem pairwise_dropRepeats {edges : List (Edge K)}
    (h : edges.Pairwise fun a b => (Edge.compare a b).isLE = true) :
    (dropRepeats edges).Pairwise fun a b => Edge.compare a b = .lt := by
  induction edges with
  | nil => exact List.Pairwise.nil
  | cons first rest ih =>
    obtain ⟨hfirst, hrest⟩ := List.pairwise_cons.mp h
    rw [dropRepeats]
    split
    · exact List.pairwise_singleton _ _
    · rename_i next later heq
      have hstrict := ih hrest
      rw [heq] at hstrict
      obtain ⟨hnext, hlater⟩ := List.pairwise_cons.mp hstrict
      have hle : (Edge.compare first next).isLE = true :=
        hfirst next (mem_of_mem_dropRepeats (heq ▸ List.mem_cons_self))
      split
      · rename_i hsame
        rw [Edge.same, beq_iff_eq] at hsame
        refine List.pairwise_cons.mpr ⟨fun e he => ?_, hlater⟩
        exact Std.TransCmp.lt_of_eq_of_lt hsame (hnext e he)
      · rename_i hdiffers
        rw [Edge.same, beq_iff_eq] at hdiffers
        have hlt : Edge.compare first next = .lt := by
          cases hcompare : Edge.compare first next with
          | lt => rfl
          | eq => exact absurd hcompare hdiffers
          | gt =>
            rw [hcompare] at hle
            cases hle
        refine List.pairwise_cons.mpr ⟨fun e he => ?_, hstrict⟩
        rcases List.mem_cons.mp he with rfl | he
        · exact hlt
        · exact Std.TransCmp.lt_trans hlt (hnext e he)

theorem pairwise_tidy (edges : List (Edge K)) :
    (tidy edges).Pairwise fun a b => Edge.compare a b = .lt := by
  refine pairwise_dropRepeats (List.pairwise_mergeSort ?_ ?_ edges)
  · intro a b c hab hbc
    exact Std.TransCmp.isLE_trans hab hbc
  · intro a b
    have hswap : Edge.compare b a = (Edge.compare a b).swap := Std.OrientedCmp.eq_swap
    rw [Bool.or_eq_true, hswap]
    cases Edge.compare a b with
    | lt => exact .inl rfl
    | eq => exact .inl rfl
    | gt => exact .inr rfl

/-! ## Entering edges -/

/-- The lists of one direction. -/
def table (fakes : Fakes K) : Direction → EdgeTable K
  | .outgoing => fakes.outgoing
  | .ingoing => fakes.ingoing

theorem edges_eq (fakes : Fakes K) (u : Junction K) (d : Direction) :
    fakes.edges u d = (fakes.table d).getD u [] := by
  cases d <;> rfl

theorem edges_congr (fakes : Fakes K) {u v : Junction K} (h : u.same v = true) (d : Direction) :
    fakes.edges u d = fakes.edges v d := by
  rw [edges_eq, edges_eq]
  exact Std.TreeMap.getD_congr ((Junction.same_iff u v).mp h)

theorem table_enter (fakes : Fakes K) (e : Edge K) (d : Direction) :
    (fakes.enter e).table d = append (fakes.table d) (e.listedAt d) e := by
  cases d <;> rfl

theorem getD_append (table : EdgeTable K) (j u : Junction K) (e : Edge K) :
    (append table j e).getD u []
      = table.getD u [] ++ if Junction.compare j u = .eq then [e] else [] := by
  rw [append, Std.TreeMap.getD_insert]
  split
  · rename_i heq
    rw [Std.TreeMap.getD_congr heq]
  · rw [List.append_nil]

/-- The edges entered at a junction come after those that were there, in order. -/
theorem edges_foldl_enter (edges : List (Edge K)) (fakes : Fakes K) (u : Junction K)
    (d : Direction) : (edges.foldl enter fakes).edges u d
      = fakes.edges u d ++ edges.filter fun e => (e.listedAt d).same u := by
  induction edges generalizing fakes with
  | nil => exact (List.append_nil _).symm
  | cons e edges ih =>
    rw [List.foldl_cons, ih, edges_eq, table_enter, getD_append, ← edges_eq, List.append_assoc,
      List.filter_cons]
    by_cases heq : Junction.compare (e.listedAt d) u = .eq
    · simp [heq, Junction.same]
    · simp [heq, Junction.same]

theorem tidy_nil : tidy ([] : List (Edge K)) = [] := by rw [tidy, List.mergeSort_nil, dropRepeats]

theorem table_add (n : Nearness K) (fakes : Fakes K) (j : Junction K)
    (vicinities : List (Edge K × Junction K)) (d : Direction) : (add n fakes j vicinities).table d
      = ((vicinities.foldl (addVicinity n j) fakes).table d).map fun _ => tidy := by
  cases d <;> rfl

theorem edges_add (n : Nearness K) (fakes : Fakes K) (j u : Junction K)
    (vicinities : List (Edge K × Junction K)) (d : Direction) : (add n fakes j vicinities).edges u d
      = tidy ((vicinities.foldl (addVicinity n j) fakes).edges u d) := by
  rw [edges_eq, edges_eq, table_add, Std.TreeMap.getD_eq_getD_getElem?,
    Std.TreeMap.getD_eq_getD_getElem?, getElem?_map_values]
  cases ((vicinities.foldl (addVicinity n j) fakes).table d)[u]? with
  | none => exact tidy_nil.symm
  | some edges => rfl

/-! ## Halves -/

section Halves

omit [Scalar K]

variable {n : Nearness K} {p : Junction K} {ab e : Edge K}

theorem split_of_far (hstart : n.almostEqual ab.start.point p.point = false)
    (hstop : n.almostEqual p.point ab.stop.point = false) :
    split n p ab = [.fake ab.start p ab.isReal, .fake p ab.stop ab.isReal] := by
  rw [split, hstart, hstop]
  rfl

/-- An edge has halves at a point that is close to neither end. -/
theorem mem_split_iff : e ∈ split n p ab ↔
    (n.almostEqual ab.start.point p.point = false ∧ n.almostEqual p.point ab.stop.point = false) ∧
      (e = .fake ab.start p ab.isReal ∨ e = .fake p ab.stop ab.isReal) := by
  rw [← Bool.or_eq_false_iff]
  cases hnear : n.almostEqual ab.start.point p.point || n.almostEqual p.point ab.stop.point with
  | true =>
    rw [split, hnear]
    simp
  | false =>
    obtain ⟨hstart, hstop⟩ := Bool.or_eq_false_iff.mp hnear
    rw [split_of_far hstart hstop, List.mem_cons, List.mem_singleton, eq_self, true_and]

end Halves

/-! ## Listed arcs -/

/-- The edge, or one that is the same arc, is listed at its end. -/
def Lists (fakes : Fakes K) (d : Direction) (e : Edge K) : Prop :=
  ∃ kept ∈ fakes.edges (e.listedAt d) d, e.same kept = true

section Lists

variable {fakes : Fakes K} {d : Direction} {e e' : Edge K}

theorem lists_of_mem {u : Junction K} (h : e ∈ fakes.edges u d)
    (hu : (e.listedAt d).same u = true) : fakes.Lists d e := by
  rw [← edges_congr fakes hu] at h
  exact ⟨e, h, e.same_refl⟩

theorem lists_foldl_enter_iff (edges : List (Edge K)) :
    (edges.foldl enter fakes).Lists d e ↔
      fakes.Lists d e ∨ ∃ e' ∈ edges, e.same e' = true := by
  rw [Lists, edges_foldl_enter]
  constructor
  · rintro ⟨kept, hkept, hsame⟩
    rcases List.mem_append.mp hkept with hold | hnew
    · exact .inl ⟨kept, hold, hsame⟩
    · exact .inr ⟨kept, (List.mem_filter.mp hnew).1, hsame⟩
  · rintro (⟨kept, hkept, hsame⟩ | ⟨e', he', hsame⟩)
    · exact ⟨kept, List.mem_append_left _ hkept, hsame⟩
    · have hat := Junction.same_symm (Edge.same_listedAt hsame d)
      exact ⟨e', List.mem_append_right _ (List.mem_filter.mpr ⟨he', hat⟩), hsame⟩

/-- After a vicinity those arcs are listed that were, and those that it brings. -/
theorem lists_addVicinity_iff (n : Nearness K) (j : Junction K) (vicinity : Edge K × Junction K) :
    (addVicinity n j fakes vicinity).Lists d e ↔ fakes.Lists d e ∨
      ∃ e' ∈ arising n fakes j vicinity.1 vicinity.2, e.same e' = true :=
  lists_foldl_enter_iff _

/-- Tidying up changes nothing about which arcs are listed. -/
theorem lists_add_iff (n : Nearness K) (j : Junction K) (vicinities : List (Edge K × Junction K)) :
    (add n fakes j vicinities).Lists d e ↔
      (vicinities.foldl (addVicinity n j) fakes).Lists d e := by
  rw [Lists, Lists, edges_add]
  constructor
  · rintro ⟨kept, hkept, hsame⟩
    exact ⟨kept, mem_of_mem_tidy hkept, hsame⟩
  · rintro ⟨kept, hkept, hsame⟩
    obtain ⟨kept', hkept', hsame'⟩ := exists_same_mem_tidy hkept
    exact ⟨kept', hkept', Edge.same_trans hsame hsame'⟩

end Lists

/-- Fake edges are split where they pass through a point, whichever end they are listed at. -/
theorem mem_splits_iff {n : Nearness K} {fakes : Fakes K} {p : Junction K} {e : Edge K} :
    e ∈ splits n fakes p ↔ ∃ d u, ∃ uv ∈ fakes.edges u d,
      n.onSegment p.point uv.start.point uv.stop.point = true ∧ e ∈ split n p uv := by
  simp only [splits, List.mem_flatMap, List.mem_filter, List.flatten_append, List.mem_append,
    mem_flatten_values_iff]
  constructor
  · rintro ⟨uv, ⟨⟨u, hin⟩ | ⟨u, hout⟩, hon⟩, he⟩
    · exact ⟨.ingoing, u, uv, hin, hon, he⟩
    · exact ⟨.outgoing, u, uv, hout, hon, he⟩
  · rintro ⟨d, u, uv, huv, hon, he⟩
    cases d with
    | outgoing => exact ⟨uv, ⟨.inr ⟨u, huv⟩, hon⟩, he⟩
    | ingoing => exact ⟨uv, ⟨.inl ⟨u, huv⟩, hon⟩, he⟩

/-- A vicinity brings the halves of its edge both ways, the links between its junction and its point,
and the parts of the fake edges that pass through the point. -/
theorem mem_arising_iff {n : Nearness K} {fakes : Fakes K} {j p : Junction K} {ab e : Edge K} :
    e ∈ arising n fakes j ab p ↔ (e ∈ split n p ab ∨ e ∈ split n p ab.reverse)
      ∨ (e = .fake j p false ∨ e = .fake p j false)
      ∨ ∃ d u, ∃ uv ∈ fakes.edges u d,
        n.onSegment p.point uv.start.point uv.stop.point = true ∧ e ∈ split n p uv := by
  simp only [arising, List.mem_append, List.mem_cons, List.not_mem_nil, or_false, mem_splits_iff,
    or_assoc]

/-! ## Where there were no fake edges -/

/-- Nothing passes through a point where there are no fake edges. -/
theorem splits_empty (n : Nearness K) (p : Junction K) : splits n {} p = [] := rfl

/-- What one vicinity puts out of a junction where there were no fake edges. -/
theorem outgoing_add (n : Nearness K) (j u : Junction K) (ab : Edge K) (p : Junction K) :
    (add n {} j [(ab, p)]).edges u .outgoing
      = tidy ((arising n {} j ab p).filter fun e => e.start.same u) := by
  rw [edges_add, List.foldl_cons, List.foldl_nil, addVicinity, edges_foldl_enter]
  rfl

theorem mem_arising_of_mem_add {n : Nearness K} {j u : Junction K} {ab e : Edge K} {p : Junction K}
    (h : e ∈ (add n {} j [(ab, p)]).edges u .outgoing) :
    e ∈ arising n {} j ab p ∧ e.start.same u = true := by
  rw [outgoing_add] at h
  exact List.mem_filter.mp (mem_of_mem_tidy h)

theorem exists_mem_add_of_mem_arising {n : Nearness K} {j u : Junction K} {ab e : Edge K}
    {p : Junction K} (h : e ∈ arising n {} j ab p) (hu : e.start.same u = true) :
    ∃ kept ∈ (add n {} j [(ab, p)]).edges u .outgoing, e.stop.same kept.stop = true := by
  rw [outgoing_add]
  have hmem : e ∈ (arising n {} j ab p).filter fun e => e.start.same u :=
    List.mem_filter.mpr ⟨h, hu⟩
  obtain ⟨kept, hkept, hsame⟩ := exists_same_mem_tidy hmem
  exact ⟨kept, hkept, Edge.same_stop hsame⟩

end Fakes

end Crossroads

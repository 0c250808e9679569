import Crossroads.Proofs.Crossing.Leap
import Crossroads.Proofs.Crossing.Transition
import Mathlib.Data.List.ProdSigma

/-!
# Weights and their pairs

Segments can be registered with a connector at any time, before its table is filled or after.  A
`Connector.History` says which calls have made a connector what it is, and remembers for which enter
and which exit each weight of the last table was stored.

Enters and exits are only ever added behind the others (`Connector.History.Covered`), so the rows of
a table go on belonging to their enters.  Its columns do not: the table is read with the current
number of exits as its width, and an exit that is added makes every row but the first begin too late.

* `Connector.History.weight_eq_stored_iff` — when the weights are those that were stored for their
  pairs.
* `Harbour.weight_of_late_exit` — an exit that was registered late has the weight of another pair.
-/

namespace Crossroads

theorem lookup_of_mem {α β : Type} [BEq α] [LawfulBEq α] {table : List (α × β)}
    (hkeys : (table.map Prod.fst).Nodup) {a : α} {b : β} (h : (a, b) ∈ table) :
    table.lookup a = some b := by
  induction table with
  | nil => cases h
  | cons entry table ih =>
    obtain ⟨a', b'⟩ := entry
    obtain ⟨hfresh, hkeys⟩ := List.nodup_cons.mp hkeys
    rcases List.mem_cons.mp h with heq | hmem
    · obtain ⟨rfl, rfl⟩ := Prod.mk.inj heq
      exact List.lookup_cons_self
    · have hne : a ≠ a' := by
        rintro rfl
        exact hfresh (List.mem_map.mpr ⟨(a, b), hmem, rfl⟩)
      rw [List.lookup_cons, beq_false_of_ne hne]
      exact ih hkeys hmem

/-- What stands in a list without repetition and in its beginning stands there in the same place. -/
theorem lt_length_of_first {α : Type} {first list : List α} (hfirst : first <+: list)
    (hnodup : list.Nodup) {i : Nat} {a : α} (hi : list[i]? = some a) (hmem : a ∈ first) :
    i < first.length := by
  obtain ⟨k, hk, rfl⟩ := List.mem_iff_getElem.mp hmem
  have hsame : list[k]? = list[i]? := by
    rw [hi, List.prefix_iff_getElem?.mp hfirst k hk]
  have hlt : k < list.length := Nat.lt_of_lt_of_le hk hfirst.length_le
  rwa [← (List.getElem?_inj hlt hnodup).mp hsame]

section Wider

variable {weights : List Weight} {rows cols height width : Nat}

/-- Every row but the first begins further behind if rows are read as wider than they are. -/
theorem lt_of_wider {k : Nat} (hwidth : cols < width) (hk : cols ≤ k) (hpos : 0 < cols) :
    k < k / cols * width + k % cols := by
  have hrow : 1 ≤ k / cols := Nat.div_pos hk hpos
  have hwider : k / cols * (cols + 1) ≤ k / cols * width := Nat.mul_le_mul_left _ hwidth
  have hplace : k / cols * cols + k % cols = k := Nat.div_add_mod' k cols
  rw [Nat.mul_succ] at hwider
  omega

/-- Weights of `rows * cols` pairs, read as if there were `width` pairs in a row, are those of their
own pairs just if the width is right or no pair behind the first row has a weight. -/
theorem getD_wider_iff (hlength : weights.length = rows * cols) (hrows : rows ≤ height)
    (hcols : cols ≤ width) :
    (∀ i j, (if i < height ∧ j < width then weights.getD (i * width + j) Weight.none
        else Weight.none)
      = if i < rows ∧ j < cols then weights.getD (i * cols + j) Weight.none else Weight.none) ↔
    cols = width ∨ ∀ k, cols ≤ k → weights.getD k Weight.none = Weight.none := by
  have hbeyond : ∀ k, rows * cols ≤ k → weights.getD k Weight.none = Weight.none := fun k hk =>
    List.getD_eq_default _ _ (by omega)
  constructor
  · intro hread
    refine or_iff_not_imp_left.mpr fun hwidth => ?_
    -- backwards from the end of the table: a weight is read in a place further behind
    have hback : ∀ n k, rows * cols ≤ k + n → cols ≤ k →
        weights.getD k Weight.none = Weight.none := by
      intro n
      induction n with
      | zero => exact fun k hk _ => hbeyond k hk
      | succ n ih =>
        intro k hk hcol
        rcases Nat.lt_or_ge k (rows * cols) with hlt | hge
        · have hpos : 0 < cols := Nat.pos_of_ne_zero (by rintro rfl; simp at hlt)
          have hi : k / cols < rows := Nat.div_lt_of_lt_mul (by rwa [Nat.mul_comm])
          have hj : k % cols < cols := Nat.mod_lt _ hpos
          have hfurther : k < k / cols * width + k % cols := lt_of_wider (by omega) hcol hpos
          have hplace := hread (k / cols) (k % cols)
          rw [if_pos ⟨by omega, by omega⟩, if_pos ⟨hi, hj⟩, Nat.div_add_mod' k cols] at hplace
          rw [← hplace]
          exact ih (k / cols * width + k % cols) (by omega) (by omega)
        · exact hbeyond k hge
    exact fun k => hback (rows * cols) k (by omega)
  · intro hwide i j
    by_cases hread : i < height ∧ j < width
    · rw [if_pos hread]
      rcases hwide with rfl | hnone
      · by_cases hi : i < rows
        · rw [if_pos ⟨hi, hread.2⟩]
        · have hrow : rows * cols ≤ i * cols := Nat.mul_le_mul_right _ (by omega)
          rw [if_neg fun h => hi h.1]
          exact hbeyond _ (by omega)
      · cases i with
        | zero =>
          rw [Nat.zero_mul, Nat.zero_mul]
          by_cases hfirst : 0 < rows ∧ j < cols
          · rw [if_pos hfirst]
          · rw [if_neg hfirst]
            rcases Nat.eq_zero_or_pos rows with rfl | hpos
            · exact hbeyond _ (by omega)
            · exact hnone _ (by omega)
        | succ i =>
          have hread : width ≤ (i + 1) * width := Nat.le_mul_of_pos_left _ i.succ_pos
          have hstored : cols ≤ (i + 1) * cols := Nat.le_mul_of_pos_left _ i.succ_pos
          rw [hnone _ (by omega), hnone _ (by omega), ite_self]
    · rw [if_neg hread, if_neg fun h => hread ⟨by omega, by omega⟩]

end Wider

namespace Connector

/-! ## Calls -/

/-- Something that is done with a connector. -/
inductive Call where
  | gate (feature : FeatureId) (index : UInt32) (gate : Gate)
  | enter (s : Segment)
  | exit (s : Segment)
  | fill (weigh : Segment → Segment → Weight)
  | install (weights : List Weight)

/-- The connector after a call.  A table of the wrong size is refused. -/
def call (c : Connector) : Call → Connector
  | .gate feature index gate => c.addGate feature index gate
  | .enter s => c.addEnter s
  | .exit s => c.addExit s
  | .fill weigh => c.fill weigh
  | .install weights => (c.install? weights).getD c

/-- A weight with the enter and the exit that it is stored for. -/
abbrev Entry := (Segment × Segment) × Weight

/-- What a call stores, row after row, if it stores a table at all. -/
def storedBy? (c : Connector) : Call → Option (List Entry)
  | .fill weigh => some ((c.enters ×ˢ c.exits).map fun pair => (pair, weigh pair.1 pair.2))
  | .install weights =>
    if weights.length = c.enters.length * c.exits.length then
      some ((c.enters ×ˢ c.exits).zip weights)
    else none
  | _ => none

/-- A connector, and the table that was last stored in it. -/
structure History where
  connector : Connector := {}
  table : List Entry := []

namespace History

/-- One more call. -/
def call (h : History) (a : Call) : History where
  connector := h.connector.call a
  table := (h.connector.storedBy? a).getD h.table

/-- What calls make of a new connector. -/
def ofCalls (calls : List Call) : History := calls.foldl call {}

/-- The weight that was stored for the enter and the exit in a row and a column; none if nothing
was stored for them. -/
def stored (h : History) (i j : Nat) : Weight :=
  match h.connector.enters[i]?, h.connector.exits[j]? with
  | some enter, some exit => (h.table.lookup (enter, exit)).getD Weight.none
  | _, _ => Weight.none

end History

/-! ## What a table covers -/

/-- A connector with more segments registered, behind those that were there. -/
structure Extends (c c' : Connector) : Prop where
  ends : ∀ way, c.ends way <+: c'.ends way
  nodup : (∀ way, (c.ends way).Nodup) → ∀ way, (c'.ends way).Nodup
  weights : c'.weights = c.weights

theorem prefix_register (list : List Segment) (s : Segment) : list <+: register list s := by
  rw [register]
  split
  · exact List.prefix_refl _
  · exact List.prefix_append _ _

theorem extends_addEnd (c : Connector) (inward : Bool) (s : Segment) :
    c.Extends (c.addEnd inward s) where
  ends := by
    intro way
    rw [ends_addEnd]
    split
    · exact prefix_register _ _
    · exact List.prefix_refl _
  nodup := by
    intro hnodup way
    rw [ends_addEnd]
    split
    · exact nodup_register (hnodup way) _
    · exact hnodup way
  weights := c.weights_addEnd inward s

theorem extends_addGate (c : Connector) (feature : FeatureId) (index : UInt32) (gate : Gate) :
    c.Extends (c.addGate feature index gate) where
  ends := by
    intro way
    rw [ends_addGate]
    split
    · exact prefix_register _ _
    · split
      · exact List.prefix_refl _
      · exact prefix_register _ _
  nodup := by
    intro hnodup way
    rw [ends_addGate]
    split
    · exact nodup_register (hnodup way) _
    · split
      · exact hnodup way
      · exact nodup_register (hnodup way) _
  weights := c.weights_addGate feature index gate

namespace History

/-- The table is one of the first enters, `rows`, and the first exits, `cols`; the connector has its
weights, and lists no segment twice. -/
structure Covered (h : History) (rows cols : List Segment) : Prop where
  enters : rows <+: h.connector.enters
  exits : cols <+: h.connector.exits
  pairs : h.table.map Prod.fst = rows ×ˢ cols
  weights : h.table.map Prod.snd = h.connector.weights
  nodup : ∀ way, (h.connector.ends way).Nodup

namespace Covered

variable {h : History} {rows cols : List Segment}

theorem new : Covered {} [] [] where
  enters := List.nil_prefix
  exits := List.nil_prefix
  pairs := rfl
  weights := rfl
  nodup := by
    intro way
    cases way <;> exact List.nodup_nil

/-- Registering leaves the table as it is, and what it covers. -/
theorem extend (hcov : h.Covered rows cols) {c : Connector} (hext : h.connector.Extends c) :
    Covered ⟨c, h.table⟩ rows cols where
  enters := hcov.enters.trans (hext.ends true)
  exits := hcov.exits.trans (hext.ends false)
  pairs := hcov.pairs
  weights := hcov.weights.trans hext.weights.symm
  nodup := hext.nodup hcov.nodup

/-- A new table covers all enters and exits. -/
theorem store (hcov : h.Covered rows cols) {table : List Entry} {weights : List Weight}
    (hpairs : table.map Prod.fst = h.connector.enters ×ˢ h.connector.exits)
    (hweights : table.map Prod.snd = weights) :
    Covered ⟨{ h.connector with weights := weights }, table⟩ h.connector.enters
      h.connector.exits where
  enters := List.prefix_refl _
  exits := List.prefix_refl _
  pairs := hpairs
  weights := hweights
  nodup := hcov.nodup

/-- After a call the table covers what it did before, or all there is. -/
theorem call (hcov : h.Covered rows cols) (a : Call) :
    ∃ rows cols, (h.call a).Covered rows cols := by
  cases a with
  | gate feature index gate =>
    exact ⟨rows, cols, hcov.extend (h.connector.extends_addGate feature index gate)⟩
  | enter s => exact ⟨rows, cols, hcov.extend (h.connector.extends_addEnd true s)⟩
  | exit s => exact ⟨rows, cols, hcov.extend (h.connector.extends_addEnd false s)⟩
  | fill weigh =>
    have hcall : h.call (.fill weigh) = ⟨h.connector.fill weigh,
        (h.connector.enters ×ˢ h.connector.exits).map fun pair => (pair, weigh pair.1 pair.2)⟩ :=
      rfl
    rw [hcall]
    refine ⟨_, _, hcov.store ?_ ?_⟩
    · simp [List.map_map, Function.comp_def]
    · simp [List.map_map, Function.comp_def, tabulate, SProd.sprod, List.product, List.map_flatMap]
  | install weights =>
    by_cases hsize : weights.length = h.connector.enters.length * h.connector.exits.length
    · have hcall : h.call (.install weights) = ⟨{ h.connector with weights := weights },
          (h.connector.enters ×ˢ h.connector.exits).zip weights⟩ := by
        simp [History.call, Connector.call, storedBy?, install?, hsize]
      have hlength : (h.connector.enters ×ˢ h.connector.exits).length = weights.length := by
        rw [List.length_product, hsize]
      rw [hcall]
      exact ⟨_, _, hcov.store (List.map_fst_zip hlength.le) (List.map_snd_zip hlength.ge)⟩
    · have hcall : h.call (.install weights) = h := by
        simp [History.call, Connector.call, storedBy?, install?, hsize]
      rw [hcall]
      exact ⟨rows, cols, hcov⟩

/-! ## Reading the table -/

theorem nodup_keys (hcov : h.Covered rows cols) : (h.table.map Prod.fst).Nodup := by
  rw [hcov.pairs]
  exact ((hcov.nodup true).sublist hcov.enters.sublist).product
    ((hcov.nodup false).sublist hcov.exits.sublist)

theorem length_weights (hcov : h.Covered rows cols) :
    h.connector.weights.length = rows.length * cols.length := by
  rw [← hcov.weights, List.length_map, ← List.length_map (f := Prod.fst), hcov.pairs,
    List.length_product]

/-- The entry in a row and a column of the table. -/
theorem exists_entry (hcov : h.Covered rows cols) {i j : Nat} {enter exit : Segment}
    (hi : rows[i]? = some enter) (hj : cols[j]? = some exit) :
    ∃ weight, h.table[i * cols.length + j]? = some ((enter, exit), weight) ∧
      h.connector.weights[i * cols.length + j]? = some weight := by
  have hkey : (h.table.map Prod.fst)[i * cols.length + j]? = some (enter, exit) := by
    rw [hcov.pairs]
    exact getElem?_flatMap_map Prod.mk rows cols hi hj
  rw [List.getElem?_map, Option.map_eq_some_iff] at hkey
  obtain ⟨⟨pair, weight⟩, hentry, rfl⟩ := hkey
  refine ⟨weight, hentry, ?_⟩
  rw [← hcov.weights, List.getElem?_map, hentry]
  rfl

/-- The table has an entry for the pairs that it covers only. -/
theorem pair_mem (hcov : h.Covered rows cols) {entry : Entry} (hmem : entry ∈ h.table) :
    entry.1.1 ∈ rows ∧ entry.1.2 ∈ cols := by
  have hkey := List.mem_map_of_mem (f := Prod.fst) hmem
  rwa [hcov.pairs, List.mem_product] at hkey

/-- What was stored for a row and a column that the table covers stands in its place there. -/
theorem stored_eq (hcov : h.Covered rows cols) (i j : Nat) :
    h.stored i j = if i < rows.length ∧ j < cols.length then
      h.connector.weights.getD (i * cols.length + j) Weight.none else Weight.none := by
  by_cases hwithin : i < rows.length ∧ j < cols.length
  · obtain ⟨hi, hj⟩ := hwithin
    obtain ⟨weight, hentry, hweight⟩ :=
      hcov.exists_entry (List.getElem?_eq_getElem hi) (List.getElem?_eq_getElem hj)
    have hlookup := lookup_of_mem hcov.nodup_keys (List.mem_of_getElem? hentry)
    rw [if_pos ⟨hi, hj⟩, List.getD_eq_getElem?_getD, hweight, stored,
      List.prefix_iff_getElem?.mp hcov.enters i hi, List.prefix_iff_getElem?.mp hcov.exits j hj]
    show (h.table.lookup (rows[i], cols[j])).getD Weight.none = weight
    rw [hlookup, Option.getD_some]
  · rw [if_neg hwithin, stored]
    split
    · rename_i enter exit hi hj
      cases hlookup : h.table.lookup (enter, exit) with
      | none => rfl
      | some weight =>
        obtain ⟨before, after, htable, -⟩ := List.lookup_eq_some_iff.mp hlookup
        have hmem : ((enter, exit), weight) ∈ h.table := by simp [htable]
        obtain ⟨henter, hexit⟩ := hcov.pair_mem hmem
        exact absurd ⟨lt_length_of_first hcov.enters (hcov.nodup true) hi henter,
          lt_length_of_first hcov.exits (hcov.nodup false) hj hexit⟩ hwithin
    · rfl

/-- What is read in a row and a column. -/
theorem weight_eq (i j : Nat) : h.connector.weight i j
    = if i < h.connector.enters.length ∧ j < h.connector.exits.length then
        h.connector.weights.getD (i * h.connector.exits.length + j) Weight.none
      else Weight.none := by
  simp only [weight, Bool.and_eq_true, decide_eq_true_eq]

/-- Unless the table is empty, it is as wide as it is read just if it has an entry for every exit. -/
theorem length_eq_iff (hcov : h.Covered rows cols) (hrows : rows ≠ []) :
    cols.length = h.connector.exits.length ↔
      ∀ exit ∈ h.connector.exits, ∃ entry ∈ h.table, entry.1.2 = exit := by
  constructor
  · intro hlength exit hexit
    rw [← hcov.exits.eq_of_length hlength] at hexit
    obtain ⟨enter, henter⟩ := List.exists_mem_of_ne_nil rows hrows
    have hkey : (enter, exit) ∈ h.table.map Prod.fst := by
      rw [hcov.pairs]
      exact List.mem_product.mpr ⟨henter, hexit⟩
    obtain ⟨entry, hentry, hpair⟩ := List.mem_map.mp hkey
    exact ⟨entry, hentry, by rw [hpair]⟩
  · intro hall
    have hsubset : h.connector.exits ⊆ cols := by
      intro exit hexit
      obtain ⟨entry, hentry, rfl⟩ := hall exit hexit
      exact (hcov.pair_mem hentry).2
    exact Nat.le_antisymm hcov.exits.length_le ((hcov.nodup false).length_le_of_subset hsubset)

/-- Behind the first row stand the entries of all enters but the first. -/
theorem behind_iff (hcov : h.Covered rows cols) :
    (∀ k, cols.length ≤ k → h.connector.weights.getD k Weight.none = Weight.none) ↔
      ∀ entry ∈ h.table, entry.2 = Weight.none ∨ h.connector.enters.head? = some entry.1.1 := by
  constructor
  · intro hbehind entry hentry
    obtain ⟨k, hk⟩ := List.getElem?_of_mem hentry
    rcases Nat.lt_or_ge k cols.length with hfirst | hlater
    · right
      obtain ⟨enter, henter⟩ : ∃ enter, rows[0]? = some enter := by
        have hmem := (hcov.pair_mem hentry).1
        exact ⟨_, List.getElem?_eq_getElem (List.length_pos_of_mem hmem)⟩
      obtain ⟨weight, hat, -⟩ := hcov.exists_entry henter (List.getElem?_eq_getElem hfirst)
      rw [Nat.zero_mul, Nat.zero_add, hk] at hat
      obtain rfl := Option.some.inj hat
      obtain ⟨hpos, rfl⟩ := List.getElem?_eq_some_iff.mp henter
      rw [List.head?_eq_getElem?, List.prefix_iff_getElem?.mp hcov.enters 0 hpos]
    · left
      have hweight : h.connector.weights[k]? = some entry.2 := by
        rw [← hcov.weights, List.getElem?_map, hk]
        rfl
      have hnone := hbehind k hlater
      rwa [List.getD_eq_getElem?_getD, hweight, Option.getD_some] at hnone
  · intro hentries k hk
    rcases Nat.lt_or_ge k (rows.length * cols.length) with hlt | hge
    · have hpos : 0 < cols.length := Nat.pos_of_ne_zero fun hzero => by simp [hzero] at hlt
      have hi : k / cols.length < rows.length := Nat.div_lt_of_lt_mul (by rwa [Nat.mul_comm])
      have hj : k % cols.length < cols.length := Nat.mod_lt _ hpos
      obtain ⟨weight, hat, hweight⟩ :=
        hcov.exists_entry (List.getElem?_eq_getElem hi) (List.getElem?_eq_getElem hj)
      rw [Nat.div_add_mod'] at hat hweight
      rw [List.getD_eq_getElem?_getD, hweight, Option.getD_some]
      refine (hentries _ (List.mem_of_getElem? hat)).resolve_right fun hhead => ?_
      -- the first enter is not listed again further down
      have hsame : h.connector.enters[0]? = h.connector.enters[k / cols.length]? := by
        rw [← List.head?_eq_getElem?, hhead, List.prefix_iff_getElem?.mp hcov.enters _ hi]
      have hzero := (List.getElem?_inj
        (Nat.lt_of_lt_of_le (Nat.zero_lt_of_lt hi) hcov.enters.length_le) (hcov.nodup true)).mp hsame
      have hrow : 1 ≤ k / cols.length := Nat.div_pos hk hpos
      omega
    · exact List.getD_eq_default _ _ (by rw [hcov.length_weights]; exact hge)

end Covered

theorem exists_covered (calls : List Call) : ∃ rows cols, (ofCalls calls).Covered rows cols := by
  induction calls using List.reverseRecOn with
  | nil => exact ⟨[], [], .new⟩
  | append_singleton calls a ih =>
    obtain ⟨rows, cols, hcov⟩ := ih
    rw [ofCalls, List.foldl_append]
    exact hcov.call a

/-- **When weights stay with their pairs.**  Whatever has been done with a connector, the weight in
a row and a column is read from the last table with the current number of exits as its width.  All
pairs have the weights that were stored for them, and none if there are none, just if the table has
an entry for every exit, or has no weights but for the first enter. -/
theorem weight_eq_stored_iff (calls : List Call) :
    let h := ofCalls calls
    (∀ i j, i < h.connector.enters.length → j < h.connector.exits.length →
      h.connector.weight i j
        = (h.table[i * h.connector.exits.length + j]?.map Prod.snd).getD Weight.none) ∧
    ((∀ i j, h.connector.weight i j = h.stored i j) ↔
      (∀ exit ∈ h.connector.exits, ∃ entry ∈ h.table, entry.1.2 = exit) ∨
      ∀ entry ∈ h.table, entry.2 = Weight.none ∨ h.connector.enters.head? = some entry.1.1) := by
  intro h
  obtain ⟨rows, cols, hcov⟩ : ∃ rows cols, h.Covered rows cols := exists_covered calls
  constructor
  · intro i j hi hj
    rw [Covered.weight_eq, if_pos ⟨hi, hj⟩, ← hcov.weights, List.getD_eq_getElem?_getD,
      List.getElem?_map]
  have hread : (∀ i j, h.connector.weight i j = h.stored i j) ↔
      cols.length = h.connector.exits.length ∨
        ∀ k, cols.length ≤ k → h.connector.weights.getD k Weight.none = Weight.none := by
    rw [← getD_wider_iff hcov.length_weights hcov.enters.length_le hcov.exits.length_le]
    refine forall₂_congr fun i j => ?_
    rw [hcov.stored_eq, Covered.weight_eq]
  rw [hread, hcov.behind_iff]
  rcases eq_or_ne rows [] with hrows | hrows
  · have hempty : h.table = [] := by
      rw [← List.map_eq_nil_iff, hcov.pairs, hrows, List.nil_product]
    simp [hempty]
  · rw [hcov.length_eq_iff hrows]

end History

end Connector

/-! ## A harbour with two ways in -/

namespace Harbour

open Connector

def north : Segment := ⟨1, 0, true⟩

def south : Segment := ⟨2, 0, true⟩

def ferry : Segment := ⟨3, 0, true⟩

def tunnel : Segment := ⟨4, 0, true⟩

/-- The tunnel is registered after the table has been stored. -/
def calls : List Call :=
  [.enter north, .enter south, .exit ferry, .install [10, 20], .exit tunnel]

/-- The tunnel has the weight of the other enter to the ferry, which itself has none any more. -/
theorem weight_of_late_exit :
    let h := History.ofCalls calls
    (h.connector.weight 0 1 = 20 ∧ h.stored 0 1 = Weight.none) ∧
      (h.connector.weight 1 0 = Weight.none ∧ h.stored 1 0 = 20) ∧
      ¬ ∀ i j, h.connector.weight i j = h.stored i j := by
  intro h
  refine ⟨by decide, by decide, ?_⟩
  rw [(History.weight_eq_stored_iff calls).2]
  decide

end Harbour

end Crossroads

import Std.Data.DTreeMap.Internal.WF.Lemmas
import Std.Data.TreeMap.Lemmas

/-!
# What tables list
-/

namespace Crossroads

variable {α β : Type} {cmp : α → α → Ordering}

theorem values_eq_map_toList (table : Std.TreeMap α β cmp) :
    table.values = table.toList.map Prod.snd := by
  show table.inner.inner.values
    = (Std.DTreeMap.Internal.Impl.Const.toList table.inner.inner).map Prod.snd
  rw [Std.DTreeMap.Internal.Impl.values_eq_map_snd,
    Std.DTreeMap.Internal.Impl.Const.toList_eq_toListModel_map, List.map_map]
  rfl

/-- What a table of lists holds is in the list of some key. -/
theorem mem_flatten_values_iff [Std.TransCmp cmp] {table : Std.TreeMap α (List β) cmp} {b : β} :
    b ∈ table.values.flatten ↔ ∃ a, b ∈ table.getD a [] := by
  rw [values_eq_map_toList, List.mem_flatten]
  constructor
  · rintro ⟨list, hlist, hb⟩
    obtain ⟨⟨a, _⟩, hentry, rfl⟩ := List.mem_map.mp hlist
    have hat := (Std.TreeMap.mem_toList_iff_getKey?_eq_some_and_getElem?_eq_some.mp hentry).2
    refine ⟨a, ?_⟩
    rwa [Std.TreeMap.getD_eq_getD_getElem?, hat]
  · rintro ⟨a, hb⟩
    rw [Std.TreeMap.getD_eq_getD_getElem?] at hb
    cases hat : table[a]? with
    | none =>
      rw [hat] at hb
      cases hb
    | some list =>
      rw [hat] at hb
      obtain ⟨a', -, hentry⟩ :=
        Std.TreeMap.getElem?_eq_some_iff_exists_compare_eq_eq_and_mem_toList.mp hat
      exact ⟨list, List.mem_map.mpr ⟨(a', list), hentry, rfl⟩, hb⟩

/-- Changing the values of a table changes the value of each key. -/
theorem getElem?_map_values {γ : Type} [Std.TransCmp cmp] (table : Std.TreeMap α β cmp) (f : β → γ)
    (a : α) : (table.map fun _ => f)[a]? = table[a]?.map f := by
  rw [Std.TreeMap.getElem?_map', Option.pmap_eq_map]

end Crossroads

import Crossroads.Graph.Road
import Mathlib.Data.List.Induction
import Mathlib.Data.List.Nodup

/-!
# The roads of features

A map of roads holds what the last feature of each number gives.  If no two features have the same
number, that is what each feature gives (`RoadMap.road?_ofFeatures_eq_some_iff`).
-/

namespace Crossroads

/-- A feature as a road. -/
def Road.ofFeature (model : Model) (f : Feature) : Road :=
  ⟨f.points, model.speed f, model.isOneWay f⟩

theorem Road.ofFeature?_eq_some_iff {model : Model} {f : Feature} {road : Road} :
    Road.ofFeature? model f = some road
      ↔ model.isRoad f = true ∧ (Road.ofFeature model f).isValid = true
        ∧ Road.ofFeature model f = road := by
  rw [Road.ofFeature?]
  show (if (model.isRoad f && (Road.ofFeature model f).isValid) = true then
    some (Road.ofFeature model f) else none) = some road ↔ _
  rw [Option.ite_none_right_eq_some, Bool.and_eq_true, Option.some.injEq, and_assoc]

namespace RoadMap

variable {model : Model} {features : List Feature}

/-- A later feature replaces one of the same number. -/
theorem getElem?_ofFeatures (id : FeatureId) :
    (ofFeatures model features).roads[id]? = features.reverse.findSome? fun f =>
      if f.id = id then Road.ofFeature? model f else none := by
  induction features using List.reverseRecOn with
  | nil => exact Std.TreeMap.getElem?_emptyc
  | append_singleton features f ih =>
    rw [ofFeatures, List.foldl_append, List.foldl_cons, List.foldl_nil, ← ofFeatures,
      List.reverse_append, List.reverse_singleton, List.singleton_append, List.findSome?_cons]
    cases hroad : Road.ofFeature? model f with
    | none => simp [ih]
    | some road =>
      by_cases hid : f.id = id
      · simp [insert, hid]
      · simp [insert, Std.TreeMap.getElem?_insert, hid, ih]

/-- Features that can be told apart give their own roads. -/
theorem road?_ofFeatures_eq_some_iff (hdistinct : (features.map Feature.id).Nodup) {id : FeatureId}
    {road : Road} : (ofFeatures model features).road? id = some road
      ↔ ∃ f ∈ features, f.id = id ∧ Road.ofFeature? model f = some road := by
  rw [road?, Option.filter_eq_some_iff, getElem?_ofFeatures]
  constructor
  · rintro ⟨hsome, -⟩
    obtain ⟨f, hf, hroad⟩ := List.exists_of_findSome?_eq_some hsome
    split at hroad
    · exact ⟨f, List.mem_reverse.mp hf, ‹_›, hroad⟩
    · cases hroad
  · rintro ⟨f, hf, hid, hroad⟩
    obtain ⟨-, hvalid, rfl⟩ := Road.ofFeature?_eq_some_iff.mp hroad
    refine ⟨?_, hvalid⟩
    cases hfound : features.reverse.findSome? fun f =>
      if f.id = id then Road.ofFeature? model f else none with
    | none =>
      have hnone := List.findSome?_eq_none_iff.mp hfound f (List.mem_reverse.mpr hf)
      rw [if_pos hid, hroad] at hnone
      cases hnone
    | some road' =>
      obtain ⟨f', hf', hroad'⟩ := List.exists_of_findSome?_eq_some hfound
      split at hroad'
      · rename_i hid'
        obtain rfl : f = f' := List.inj_on_of_nodup_map hdistinct hf (List.mem_reverse.mp hf')
          (hid.trans hid'.symm)
        rw [← hroad', hroad]
      · cases hroad'

end RoadMap

end Crossroads

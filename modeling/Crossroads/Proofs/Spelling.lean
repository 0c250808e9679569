import Crossroads.Proofs.Coordinate
import Crossroads.Vehicle.Atlas
import Mathlib.Data.List.MinMax
import Mathlib.Order.WithBot

/-!
# The country that was meant

`suggest` goes through the known names once and keeps the best so far.  What it offers in the end is
told from the names alone: the first of the highest score, if any scores enough for a suggestion.
That is so whatever the measures of likeness are.

* `Spelling.foldl_better` — the best so far is the first name of the highest rank.
* `Atlas.rules_unlisted` — what is suggested for a country that is not listed.
* `Atlas.rules_uncapitalised` — a listed name that differs in case alone is not suggested.
-/

namespace Crossroads

namespace Spelling

open Text (Likeness)

/-! ## Ranks -/

/-- The score of a name for a word. -/
def fit (likeness : Likeness) (word : List Char) (name : String) : Float :=
  score likeness word (fold name)

/-- The name scores enough for a suggestion. -/
def Fits (likeness : Likeness) (word : List Char) (name : String) : Prop :=
  threshold ≤ fit likeness word name

instance (likeness : Likeness) (word : List Char) : DecidablePred (Fits likeness word) :=
  fun name => inferInstanceAs (Decidable (threshold ≤ fit likeness word name))

/-- The place of a name's score among numbers. -/
def place (likeness : Likeness) (word : List Char) (name : String) : ℤ ×ₗ ℤ ×ₗ ℤ :=
  (Coordinate.ofFloat (fit likeness word name)).place

/-- Names rank by their score; one that does not score enough for a suggestion ranks below all that
do. -/
def rank (likeness : Likeness) (word : List Char) (name : String) : WithBot (ℤ ×ₗ ℤ ×ₗ ℤ) :=
  if Fits likeness word name then place likeness word name else ⊥

section

variable {likeness : Likeness} {word : List Char} {name other : String}

/-- Scores that are enough are numbers. -/
theorem Fits.number (h : Fits likeness word name) :
    (Coordinate.ofFloat (fit likeness word name) == Coordinate.ofFloat (fit likeness word name))
      = true :=
  (Coordinate.beq_self_of_le ((Coordinate.ofFloat_le_ofFloat _ _).mpr h)).2

/-- What scores no less than enough scores enough. -/
theorem Fits.of_le (h : Fits likeness word name)
    (hle : fit likeness word name ≤ fit likeness word other) : Fits likeness word other := by
  rw [Fits, ← Coordinate.ofFloat_le_ofFloat] at h ⊢
  rw [← Coordinate.ofFloat_le_ofFloat] at hle
  exact Coordinate.le_trans h hle

theorem Fits.of_lt (h : Fits likeness word name)
    (hlt : fit likeness word name < fit likeness word other) : Fits likeness word other := by
  rw [← Coordinate.ofFloat_lt_ofFloat] at hlt
  exact h.of_le ((Coordinate.ofFloat_le_ofFloat _ _).mp (Coordinate.le_of_lt hlt))

theorem rank_of_fits (h : Fits likeness word name) :
    rank likeness word name = place likeness word name := if_pos h

theorem rank_of_not_fits (h : ¬ Fits likeness word name) : rank likeness word name = ⊥ := if_neg h

theorem rank_le_rank_iff (h : Fits likeness word name) :
    rank likeness word name ≤ rank likeness word other ↔
      fit likeness word name ≤ fit likeness word other := by
  by_cases hother : Fits likeness word other
  · rw [rank_of_fits h, rank_of_fits hother, WithBot.coe_le_coe, ← Coordinate.ofFloat_le_ofFloat,
      Coordinate.le_iff_place h.number hother.number]
    rfl
  · rw [rank_of_fits h, rank_of_not_fits hother, le_bot_iff]
    refine iff_of_false WithBot.coe_ne_bot ?_
    intro hle
    exact hother (h.of_le hle)

/-- For a name that scores enough, to rank above it is to score more. -/
theorem rank_lt_rank_iff (h : Fits likeness word name) :
    rank likeness word name < rank likeness word other ↔
      fit likeness word name < fit likeness word other := by
  by_cases hother : Fits likeness word other
  · rw [rank_of_fits h, rank_of_fits hother, WithBot.coe_lt_coe, ← Coordinate.ofFloat_lt_ofFloat,
      Coordinate.lt_iff_place h.number hother.number]
    rfl
  · rw [rank_of_not_fits hother]
    refine iff_of_false not_lt_bot ?_
    intro hlt
    exact hother (h.of_lt hlt)

end

/-! ## The best so far -/

/-- A name with its score, if that is enough for a suggestion. -/
def scored (likeness : Likeness) (word : List Char) (name : String) : Option (Float × String) :=
  if Fits likeness word name then some (fit likeness word name, name) else none

theorem better_none (likeness : Likeness) (word : List Char) (name : String) :
    better likeness word none name = scored likeness word name := by
  rw [better, scored, Bool.and_true]
  exact if_congr decide_eq_true_iff rfl rfl

theorem better_some (likeness : Likeness) (word : List Char) (top : Float) (best name : String) :
    better likeness word (some (top, best)) name
      = if Fits likeness word name ∧ top < fit likeness word name then
          some (fit likeness word name, name)
        else some (top, best) := by
  rw [better]
  refine if_congr ?_ rfl rfl
  rw [Bool.and_eq_true, decide_eq_true_iff, decide_eq_true_iff]
  rfl

/-- The best so far gives way to a name that ranks above it, and to no other. -/
theorem better_scored (likeness : Likeness) (word : List Char) (best name : String) :
    better likeness word (scored likeness word best) name
      = if rank likeness word best < rank likeness word name then scored likeness word name
        else scored likeness word best := by
  by_cases hbest : Fits likeness word best
  · have hscored : scored likeness word best = some (fit likeness word best, best) := if_pos hbest
    rw [if_congr (rank_lt_rank_iff hbest) rfl rfl, hscored, better_some]
    by_cases hlt : fit likeness word best < fit likeness word name
    · have hname := hbest.of_lt hlt
      rw [if_pos ⟨hname, hlt⟩, if_pos hlt, scored, if_pos hname]
    · rw [if_neg (hlt ·.2), if_neg hlt]
  · -- there is no best so far, and all that score enough rank above the bottom
    have hscored : scored likeness word best = none := if_neg hbest
    rw [rank_of_not_fits hbest, hscored, better_none]
    by_cases hname : Fits likeness word name
    · rw [rank_of_fits hname, if_pos (WithBot.bot_lt_coe _)]
    · rw [rank_of_not_fits hname, if_neg (lt_irrefl _), scored, if_neg hname]

/-- The best so far is the first name of the highest rank, if it scores enough.  In the induction the
name of the highest rank is known also while none scores enough, and then nothing is the best. -/
theorem foldl_better (likeness : Likeness) (word : List Char) (known : List String) :
    known.foldl (better likeness word) none
      = (known.argmax (rank likeness word)).bind (scored likeness word) := by
  induction known using List.reverseRecOn with
  | nil => rfl
  | append_singleton seen name ih =>
    rw [List.foldl_concat, ih, List.argmax_concat]
    cases seen.argmax (rank likeness word) with
    | none => exact better_none likeness word name
    | some best =>
      rw [Option.bind_some, better_scored]
      exact (apply_ite (Option.bind · (scored likeness word)) _ (some name) (some best)).symm

/-! ## Suggestions -/

/-- The name is the closest of the known ones: it scores enough for a suggestion, none scores more,
and it comes before the others that do not score less. -/
structure Closest (likeness : Likeness) (input : String) (known : List String) (name : String) :
    Prop where
  mem : name ∈ known
  enough : threshold ≤ score likeness (fold input) (fold name)
  highest : ∀ other ∈ known,
    ¬ score likeness (fold input) (fold name) < score likeness (fold input) (fold other)
  first : ∀ other ∈ known,
    score likeness (fold input) (fold name) ≤ score likeness (fold input) (fold other) →
    known.idxOf name ≤ known.idxOf other

section

variable {likeness : Likeness} {input : String} {known : List String}

/-- A name that is known up to case needs no correction. -/
theorem suggest_of_same (h : ∃ name ∈ known, fold name = fold input) :
    suggest likeness input known = none := by
  refine if_pos (List.any_eq_true.mpr ?_)
  obtain ⟨name, hname, hsame⟩ := h
  exact ⟨name, hname, beq_iff_eq.mpr hsame⟩

variable (h : ∀ name ∈ known, fold name ≠ fold input)

include h

theorem suggest_eq :
    suggest likeness input known
      = (known.argmax (rank likeness (fold input))).filter fun name =>
          decide (Fits likeness (fold input) name) := by
  have hnone : ¬ (known.any fun name => fold name == fold input) = true := by
    rw [List.any_eq_true]
    rintro ⟨name, hname, hsame⟩
    exact h name hname (beq_iff_eq.mp hsame)
  rw [suggest, if_neg hnone, foldl_better]
  cases known.argmax (rank likeness (fold input)) with
  | none => rfl
  | some best =>
    rw [Option.bind_some, Option.filter_some, if_congr decide_eq_true_iff rfl rfl]
    exact apply_ite (Option.map Prod.snd) _ (some (fit likeness (fold input) best, best)) none

theorem suggest_eq_some_iff (name : String) :
    suggest likeness input known = some name ↔ Closest likeness input known name := by
  rw [suggest_eq h, Option.filter_eq_some_iff, List.argmax_eq_some_iff, decide_eq_true_iff]
  constructor
  · rintro ⟨⟨hmem, hhighest, hfirst⟩, hfits⟩
    refine ⟨hmem, hfits, ?_, ?_⟩
    · intro other hother hlt
      exact (hhighest other hother).not_gt ((rank_lt_rank_iff hfits).mpr hlt)
    · intro other hother hle
      exact hfirst other hother ((rank_le_rank_iff hfits).mpr hle)
  · rintro ⟨hmem, hfits, hhighest, hfirst⟩
    refine ⟨⟨hmem, ?_, ?_⟩, hfits⟩
    · intro other hother
      rw [← not_lt, rank_lt_rank_iff hfits]
      exact hhighest other hother
    · intro other hother hle
      exact hfirst other hother ((rank_le_rank_iff hfits).mp hle)

theorem suggest_eq_none_iff :
    suggest likeness input known = none
      ↔ ∀ name ∈ known, ¬ threshold ≤ score likeness (fold input) (fold name) := by
  rw [suggest_eq h, Option.filter_eq_none_iff]
  constructor
  · -- whatever scores enough does not rank above the best, which then scores enough as well
    intro hnone name hname hfits
    obtain ⟨best, hbest⟩ : ∃ best, known.argmax (rank likeness (fold input)) = some best := by
      rw [← Option.ne_none_iff_exists', Ne, List.argmax_eq_none]
      exact List.ne_nil_of_mem hname
    have hle := (rank_le_rank_iff hfits).mp (List.le_of_mem_argmax hname hbest)
    exact hnone best hbest (decide_eq_true (Fits.of_le hfits hle))
  · intro hnone best hbest hfits
    exact hnone best (List.argmax_mem hbest) (of_decide_eq_true hfits)

end

end Spelling

namespace Atlas

/-! ## Countries that are not listed -/

theorem mem_known {a : Atlas} {country : String} : country ∈ a.known ↔ country ∈ a.countries :=
  Std.TreeMap.mem_keys

/-- Without a fallback there are no rules for a country that is not listed.  The fault suggests no
name if one of the listed differs from the country in case alone; otherwise it suggests the closest
of them, if any scores enough. -/
theorem rules_unlisted (a : Atlas) (country : String) (hfallback : a.fallback = none)
    (hcountry : country ∉ a.known) :
    ∃ suggestion,
      a.rules country
          = .error (.modelUnavailable country Vehicle.pedestrian.name suggestion) ∧
        ((∃ name ∈ a.known, Spelling.fold name = Spelling.fold country) → suggestion = none) ∧
        ((∀ name ∈ a.known, Spelling.fold name ≠ Spelling.fold country) →
          (∀ name, suggestion = some name ↔ Spelling.Closest a.likeness country a.known name) ∧
          (suggestion = none ↔ ∀ name ∈ a.known,
            ¬ Spelling.threshold
              ≤ Spelling.score a.likeness (Spelling.fold country) (Spelling.fold name))) := by
  have hmodels : a.models? country = none := by
    rw [models?, hfallback, Std.TreeMap.getElem?_eq_none (mem_known.not.mp hcountry)]
    rfl
  refine ⟨Spelling.suggest a.likeness country a.known, ?_, Spelling.suggest_of_same, ?_⟩
  · rw [rules, models, model, hmodels]
    rfl
  · intro h
    exact ⟨Spelling.suggest_eq_some_iff h, Spelling.suggest_eq_none_iff h⟩

/-- One country is listed. -/
def belgium : Atlas := empty.register "Belgium" Model.builtin

/-- With a letter missing the country is suggested. -/
theorem rules_misspelt :
    belgium.rules "Belgum" = .error (.modelUnavailable "Belgum" "pedestrian" (some "Belgium")) := by
  obtain ⟨suggestion, hrules, -, hother⟩ := rules_unlisted belgium "Belgum" rfl (by decide +kernel)
  have hcase : ∀ name ∈ belgium.known, Spelling.fold name ≠ Spelling.fold "Belgum" := by
    decide +kernel
  have hclosest : Spelling.Closest .standard "Belgum" belgium.known "Belgium" :=
    ⟨by decide +kernel, by decide +kernel, by decide +kernel, by decide +kernel⟩
  rw [hrules, ((hother hcase).1 "Belgium").mpr hclosest]
  rfl

/-- With a small letter for the capital no country is suggested, though one is meant. -/
theorem rules_uncapitalised :
    belgium.fallback = none ∧ "belgium" ∉ belgium.known ∧
      (∃ name ∈ belgium.known, Spelling.fold name = Spelling.fold "belgium") ∧
      belgium.rules "belgium" = .error (.modelUnavailable "belgium" "pedestrian" none) :=
  ⟨rfl, by decide +kernel, by decide +kernel, rfl⟩

end Atlas

end Crossroads

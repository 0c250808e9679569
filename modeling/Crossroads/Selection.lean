/-!
# Selection

`select` brings the item of a given rank to its place in a list: nothing in front of it comes after
it, and nothing behind it comes before it.

A short list is sorted for that.  A long one is parted by one of its items, and only the part that
has the place in it is looked at again.  Parting keeps all items (`length_part`) but not their order
within a part.
-/

namespace Crossroads.Selection

variable {α : Type} (before : α → α → Bool)

/-- The items in order; those of which none comes before the other stay as they are. -/
def sort (items : List α) : List α := items.mergeSort fun a b => !before b a

/-! ## Choosing an item to part by -/

/-- The place, out of three, that has the middle item. -/
def middle (items : List α) (i j k : Nat) : Nat :=
  match items[i]?, items[j]?, items[k]? with
  | some a, some b, some c =>
    let isLeast := before a b
    if isLeast == before a c then (if before b c == isLeast then j else k) else i
  | _, _, _ => i

/-- The place with the middle one of three samples, each of them taken from a stretch of this size.
-/
def sample (items : List α) (size i j k : Nat) : Nat :=
  if size < 8 then middle before items i j k
  else
    let part := size / 8
    let within (start : Nat) := sample items part start (start + 4 * part) (start + 7 * part)
    middle before items (within i) (within j) (within k)
termination_by size
decreasing_by all_goals omega

/-- The place of the item to part a list by. -/
def pivotPlace (items : List α) : Nat :=
  let size := items.length / 8
  sample before items size 0 (4 * size) (7 * size)

/-! ## Parting -/

/-- The item at a place and the others, the first of which has gone to that place. -/
def takeOut (place : Nat) : List α → Option (α × List α)
  | [] => none
  | first :: rest =>
    match place with
    | 0 => some (first, rest)
    | i + 1 => rest[i]?.map fun item => (item, rest.set i first)

/-- Deals one more item to the low or the high part; the first of the high part makes room for it
and goes to the end. -/
def deal (isLow : α → Bool) (parts : List α × List α) (item : α) : List α × List α :=
  match parts with
  | (low, []) => if isLow item then (low ++ [item], []) else (low, [item])
  | (low, first :: high) =>
    if isLow item then (low ++ [item], high ++ [first]) else (low, item :: (high ++ [first]))

/-- The low and the high part of a list, the first item dealt last. -/
def part (isLow : α → Bool) : List α → List α × List α
  | [] => ([], [])
  | first :: rest =>
    let (low, high) := (rest ++ [first]).foldl (deal isLow) ([], [])
    (low.getLast?.toList ++ low.dropLast, high)

theorem length_deal (isLow : α → Bool) (parts : List α × List α) (item : α) :
    (deal isLow parts item).1.length + (deal isLow parts item).2.length =
      parts.1.length + parts.2.length + 1 := by
  obtain ⟨low, high⟩ := parts
  cases high <;> simp only [deal] <;> split <;> simp <;> omega

theorem length_foldl_deal (isLow : α → Bool) (items : List α) (parts : List α × List α) :
    (items.foldl (deal isLow) parts).1.length + (items.foldl (deal isLow) parts).2.length =
      parts.1.length + parts.2.length + items.length := by
  induction items generalizing parts with
  | nil => simp
  | cons item rest ih =>
    rw [List.foldl_cons, ih, length_deal, List.length_cons]
    omega

/-- Parting loses nothing. -/
theorem length_part (isLow : α → Bool) (items : List α) :
    (part isLow items).1.length + (part isLow items).2.length = items.length := by
  cases items with
  | nil => rfl
  | cons first rest =>
    have h := length_foldl_deal isLow (rest ++ [first]) ([], [])
    simp only [part]
    generalize (rest ++ [first]).foldl (deal isLow) ([], []) = parts at h
    obtain ⟨low, high⟩ := parts
    rcases List.eq_nil_or_concat low with rfl | ⟨start, last, rfl⟩ <;> simp at h ⊢ <;> omega

theorem length_of_part {isLow : α → Bool} {items low high : List α}
    (h : part isLow items = (low, high)) : low.length + high.length = items.length := by
  rw [← length_part isLow items, h]

theorem length_takeOut {place : Nat} {items rest : List α} {item : α}
    (h : takeOut place items = some (item, rest)) : rest.length < items.length := by
  cases items with
  | nil => simp [takeOut] at h
  | cons first others =>
    cases place with
    | zero => simp_all [takeOut]
    | succ i =>
      simp only [takeOut, Option.map_eq_some_iff, Prod.mk.injEq] at h
      obtain ⟨_, _, _, rfl⟩ := h
      simp

/-! ## Selecting -/

/-- Selects from a list, no item of which comes before `floor`. -/
def selectAbove (place : Nat) (floor : Option α) (items : List α) : List α :=
  if items.length ≤ 16 then sort before items
  else
    match out : takeOut (pivotPlace before items) items with
    | none => items
    | some (pivot, rest) =>
      have := length_takeOut out
      if floor.any fun low => !before low pivot then
        match parts : part (fun item => !before pivot item) rest with
        | (low, high) =>
          have := length_of_part parts
          if place ≤ low.length then low ++ pivot :: high
          else low ++ pivot :: selectAbove (place - low.length - 1) none high
      else
        match parts : part (fun item => before item pivot) rest with
        | (low, high) =>
          have := length_of_part parts
          if place < low.length then selectAbove place floor low ++ pivot :: high
          else if place = low.length then low ++ pivot :: high
          else low ++ pivot :: selectAbove (place - low.length - 1) (some pivot) high
termination_by items.length
decreasing_by all_goals omega

/-- The place of the first item that comes before no other. -/
def lastPlace (items : List α) : Nat :=
  match items.zipIdx with
  | [] => 0
  | first :: rest =>
    (rest.foldl (fun best item => if before best.1 item.1 then item else best) first).2

/-- The list with the item of a rank in its place, all that come before it in front of it, and all
that come after it behind it. -/
def select (place : Nat) (items : List α) : List α :=
  if place + 1 = items.length then
    let greatest := lastPlace before items
    match items[greatest]?, items.getLast? with
    | some item, some last => (items.set greatest last).dropLast ++ [item]
    | _, _ => items
  else selectAbove before place none items

end Crossroads.Selection

/-!
# Keyed lists

A keyed list holds values under text keys in the order in which the keys first came.  Setting an old
key keeps its place; the look-up lemmas say that setting one key changes no other.
-/

namespace Scaffold

/-- Values under text keys, in order. -/
abbrev Keyed (α : Type) := List (String × α)

namespace Keyed

variable {α : Type}

/-- The value of a key. -/
def get? (keyed : Keyed α) (key : String) : Option α :=
  match keyed with
  | [] => none
  | (name, value) :: rest => if name == key then some value else get? rest key

/-- Set the value of a key: an old key keeps its place, a new one comes last. -/
def put (keyed : Keyed α) (key : String) (value : α) : Keyed α :=
  match keyed with
  | [] => [(key, value)]
  | (name, old) :: rest =>
      if name == key then (name, value) :: rest else (name, old) :: put rest key value

/-- The keys in order. -/
def keys (keyed : Keyed α) : List String :=
  keyed.map (·.1)

/-- A key has a value. -/
def has (keyed : Keyed α) (key : String) : Bool :=
  (get? keyed key).isSome

/-- Build a keyed list from pairs; of several values of one key the last one stays. -/
def ofList (pairs : List (String × α)) : Keyed α :=
  pairs.foldl (fun keyed pair => put keyed pair.1 pair.2) []

@[simp]
theorem get?_put_same (keyed : Keyed α) (key : String) (value : α) :
    get? (put keyed key value) key = some value := by
  induction keyed with
  | nil => simp [put, get?]
  | cons pair rest hypothesis =>
      obtain ⟨name, old⟩ := pair
      by_cases same : name = key
      · simp [put, get?, same]
      · simp [put, get?, same, hypothesis]

theorem get?_put_other {key other : String} (different : key ≠ other) (keyed : Keyed α)
    (value : α) : get? (put keyed key value) other = get? keyed other := by
  induction keyed with
  | nil => simp [put, get?, different]
  | cons pair rest hypothesis =>
      obtain ⟨name, old⟩ := pair
      by_cases same : name = key
      · subst same
        simp [put, get?, different]
      · simp [put, get?, same, hypothesis]

end Keyed

/-- The values of a list without those that came before, in order. -/
def distinct {α : Type} [BEq α] (values : List α) : List α :=
  go [] values
where
  /-- Keep the values that are not yet known. -/
  go (known : List α) : List α → List α
    | [] => []
    | value :: rest =>
        if known.contains value then go known rest else value :: go (value :: known) rest

end Scaffold

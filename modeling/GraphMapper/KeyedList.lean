/-!
# Keyed lists

Property maps, parameter tables and JSON objects are lists of entries by key. `put` keeps the keys
in ascending order and drops no entry but the one it replaces; `get?` reads the first entry under a
key, so that what a list holds under a key is defined for every list, in order or not.

Main statements: what `get?` finds after `put` and after `remove` (`get?_put`, `get?_remove`), and
that both keep ascending keys ascending (`put_ascending`, `remove_ascending`).
-/

namespace GraphMapper

/-- Entries by key. -/
abbrev KeyedList (α : Type) : Type := List (String × α)

namespace KeyedList

variable {α β : Type}

/-- The value of the first entry under `key`. -/
def get? : KeyedList α → String → Option α
  | [], _ => none
  | (k, v) :: rest, key => if k = key then some v else get? rest key

/-- Whether there is an entry under `key`. -/
def has (entries : KeyedList α) (key : String) : Bool :=
  (get? entries key).isSome

/-- Stores `value` under `key`: in the place of the entry that is there, or before the first entry
with a greater key. -/
def put : KeyedList α → String → α → KeyedList α
  | [], key, value => [(key, value)]
  | (k, v) :: rest, key, value =>
    if key = k then (key, value) :: rest
    else if key < k then (key, value) :: (k, v) :: rest
    else (k, v) :: put rest key value

/-- The entries under other keys than `key`. -/
def remove : KeyedList α → String → KeyedList α
  | [], _ => []
  | (k, v) :: rest, key => if k = key then remove rest key else (k, v) :: remove rest key

/-- The keys in order. -/
def keys (entries : KeyedList α) : List String :=
  entries.map (·.1)

/-- Changes every value and keeps every key. -/
def mapValues (f : α → β) (entries : KeyedList α) : KeyedList β :=
  entries.map fun entry => (entry.1, f entry.2)

/-- The entries of `pairs` in ascending order; of several under one key the last one counts. -/
def ofPairs (pairs : List (String × α)) : KeyedList α :=
  pairs.foldl (fun entries pair => put entries pair.1 pair.2) []

/-- The keys ascend strictly, so no key occurs twice. -/
def Ascending (entries : KeyedList α) : Prop :=
  entries.Pairwise fun a b => a.1 < b.1

/-- After `put`, the new value is found under its key and every other key finds what it did. -/
theorem get?_put (entries : KeyedList α) (key other : String) (value : α) :
    get? (put entries key value) other =
      if key = other then some value else get? entries other := by
  induction entries with
  | nil => simp [put, get?]
  | cons entry rest ih => grind [put, get?]

/-- After `remove`, nothing is under the key and every other key finds what it did. -/
theorem get?_remove (entries : KeyedList α) (key other : String) :
    get? (remove entries key) other = if key = other then none else get? entries other := by
  induction entries with
  | nil => simp [remove, get?]
  | cons entry rest ih => grind [remove, get?]

/-- An entry of the list after `put` is the new one or was there before. -/
theorem mem_put {entries : KeyedList α} {key : String} {value : α} {entry : String × α}
    (h : entry ∈ put entries key value) : entry = (key, value) ∨ entry ∈ entries := by
  induction entries with
  | nil => simp_all [put]
  | cons head rest ih => grind [put]

/-- `put` keeps ascending keys ascending. -/
theorem put_ascending {entries : KeyedList α} (h : Ascending entries) (key : String) (value : α) :
    Ascending (put entries key value) := by
  induction entries with
  | nil => simp [Ascending, put]
  | cons head rest ih =>
    obtain ⟨k, v⟩ := head
    simp only [Ascending, List.pairwise_cons] at h ih ⊢
    by_cases hk : key = k
    · subst hk
      simpa [put] using h
    · by_cases hlt : key < k
      · simp only [put, hk, hlt, if_true, if_false, List.pairwise_cons, List.mem_cons]
        refine ⟨?_, h⟩
        rintro entry (rfl | hmem)
        · exact hlt
        · exact String.lt_trans hlt (h.1 entry hmem)
      · simp only [put, hk, hlt, if_false, List.pairwise_cons]
        refine ⟨fun entry hmem => ?_, ih h.2⟩
        rcases mem_put hmem with rfl | hmem
        · exact Decidable.byContradiction fun hn =>
            hk (String.le_antisymm (String.not_lt.mp hn) (String.not_lt.mp hlt))
        · exact h.1 entry hmem

/-- What is left by `remove` was there before. -/
theorem mem_of_mem_remove {entries : KeyedList α} {key : String} {entry : String × α}
    (h : entry ∈ remove entries key) : entry ∈ entries := by
  induction entries with
  | nil => simp [remove] at h
  | cons head rest ih => grind [remove]

/-- `remove` keeps ascending keys ascending. -/
theorem remove_ascending {entries : KeyedList α} (h : Ascending entries) (key : String) :
    Ascending (remove entries key) := by
  induction entries with
  | nil => simp [Ascending, remove]
  | cons head rest ih =>
    simp only [Ascending, List.pairwise_cons] at h ih ⊢
    by_cases hk : head.1 = key
    · simpa [remove, hk] using ih h.2
    · simp only [remove, hk, if_false, List.pairwise_cons]
      exact ⟨fun entry hmem => h.1 entry (mem_of_mem_remove hmem), ih h.2⟩

end KeyedList

end GraphMapper

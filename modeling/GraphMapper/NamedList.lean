/-!
# Named lists

Lists of items with a name that keep the order in which the names came first: declarations in a
schema, columns in a row. `put` replaces the first item of the same name where it stands, or
appends.

Main statements: what `find?` finds after `put` (`find?_put`), and that names stay distinct
(`put_nodup`).
-/

namespace GraphMapper.NamedList

variable {α : Type}

/-- The first item of that name. -/
def find? (nameOf : α → String) (items : List α) (name : String) : Option α :=
  List.find? (fun item => nameOf item = name) items

/-- Replaces the first item of the same name, or appends the item. -/
def put (nameOf : α → String) (item : α) : List α → List α
  | [] => [item]
  | head :: rest =>
    if nameOf head = nameOf item then item :: rest else head :: put nameOf item rest

/-- What was put is found under its name, and every other name finds what it did. -/
theorem find?_put (nameOf : α → String) (item : α) (items : List α) (name : String) :
    find? nameOf (put nameOf item items) name =
      if nameOf item = name then some item else find? nameOf items name := by
  induction items with
  | nil => grind [put, find?]
  | cons head rest ih => grind [put, find?]

/-- The names after `put`: none is new if the item's name was there, and it comes last if not. -/
theorem map_put (nameOf : α → String) (item : α) (items : List α) :
    (put nameOf item items).map nameOf =
      if nameOf item ∈ items.map nameOf then items.map nameOf
      else items.map nameOf ++ [nameOf item] := by
  induction items with
  | nil => simp [put]
  | cons head rest ih =>
    by_cases h : nameOf head = nameOf item
    · simp [put, h]
    · have h' : nameOf item ≠ nameOf head := fun e => h e.symm
      by_cases hm : nameOf item ∈ rest.map nameOf
      · simp only [put, h, if_false, List.map_cons, ih, hm, if_true, List.mem_cons, or_true]
      · simp only [put, h, if_false, List.map_cons, ih, hm, List.mem_cons, h', or_self,
          List.cons_append]

/-- `put` keeps distinct names distinct. -/
theorem put_nodup {nameOf : α → String} {items : List α} (h : (items.map nameOf).Nodup)
    (item : α) : ((put nameOf item items).map nameOf).Nodup := by
  rw [map_put]
  split
  · exact h
  · next hm =>
    refine List.nodup_append.mpr ⟨h, by simp, ?_⟩
    intro a ha b hb hab
    rw [List.mem_singleton] at hb
    exact hm (hb ▸ hab ▸ ha)

end GraphMapper.NamedList

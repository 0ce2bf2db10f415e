import GraphMapper.Schema.Registry

/-!
# Declarations of a type

What is found under a declared name, and which properties are merge fields. A name declares at most
one property, so that whatever is declared is found under its name. What is found as the far end of
a relationship is a registered type.
-/

namespace GraphMapper

namespace NamedList

variable {α : Type} {nameOf : α → String}

/-- What is found under a name is in the list and has that name. -/
theorem of_find?_eq_some {items : List α} {name : String} {item : α}
    (h : find? nameOf items name = some item) : item ∈ items ∧ nameOf item = name :=
  ⟨List.mem_of_find?_eq_some h, by simpa using List.find?_some h⟩

/-- Where names are distinct, every item is found under its name. -/
theorem find?_of_mem {items : List α} {item : α} (hnodup : (items.map nameOf).Nodup)
    (hmem : item ∈ items) : find? nameOf items (nameOf item) = some item := by
  induction items with
  | nil => simp at hmem
  | cons head rest ih =>
    rw [List.map_cons, List.nodup_cons] at hnodup
    rcases List.mem_cons.mp hmem with rfl | hmem
    · simp [find?]
    · have hne : nameOf head ≠ nameOf item := fun e =>
        hnodup.1 (e ▸ List.mem_map_of_mem hmem)
      simpa [find?, hne] using ih hnodup.2 hmem

/-- A name under which nothing is found is the name of no item. -/
theorem find?_eq_none {items : List α} {name : String} :
    find? nameOf items name = none ↔ name ∉ items.map nameOf := by
  simp [find?]

/-- The names, and behind them those of the others that are new, in the order in which they come
first. -/
def followedBy (names others : List String) : List String :=
  names ++ (others.filter fun name => name ∉ names).eraseDups

/-- Items that are put one after the other leave the names in place, and new names follow. -/
theorem map_foldl_put (items others : List α) :
    (others.foldl (fun kept item => put nameOf item kept) items).map nameOf =
      followedBy (items.map nameOf) (others.map nameOf) := by
  induction others generalizing items with
  | nil => simp [followedBy]
  | cons item rest ih =>
    rw [List.foldl_cons, ih, map_put]
    by_cases hthere : nameOf item ∈ items.map nameOf
    · rw [if_pos hthere, followedBy, followedBy, List.map_cons, List.filter_cons,
        if_neg (by simpa using hthere)]
    · -- The names that are new beside this one are the new ones other than this one.
      have hnew : (rest.map nameOf).filter (fun name => name ∉ items.map nameOf ++ [nameOf item]) =
          ((rest.map nameOf).filter fun name => name ∉ items.map nameOf).filter
            fun name => !name == nameOf item := by
        rw [List.filter_filter]
        refine List.filter_congr fun name _ => ?_
        rw [Bool.beq_eq_decide_eq]
        simp [Bool.and_comm]
      rw [if_neg hthere, followedBy, followedBy, hnew, List.map_cons, List.filter_cons,
        if_pos (by simpa using hthere), List.eraseDups_cons, List.append_assoc,
        List.singleton_append]

example : followedBy ["name", "born"] ["email", "name", "email"] = ["name", "born", "email"] := by
  decide

/-- Of items that are put one after the other the last one of a name is found, and what was there
under the names of none. -/
theorem find?_foldl_put (items others : List α) (name : String) :
    find? nameOf (others.foldl (fun kept item => put nameOf item kept) items) name =
      (find? nameOf others.reverse name).or (find? nameOf items name) := by
  induction others generalizing items with
  | nil => rfl
  | cons item rest ih =>
    have hlast : find? nameOf (rest.reverse ++ [item]) name =
        (find? nameOf rest.reverse name).or (if nameOf item = name then some item else none) := by
      simp only [find?, List.find?_append, List.find?_singleton, decide_eq_true_eq]
    rw [List.foldl_cons, ih, find?_put, List.reverse_cons, hlast, Option.or_assoc]
    split <;> rfl

end NamedList

namespace EntityType

variable {model : EntityType} {p : Property} {key : String}

/-- A declared property is found under its name. -/
theorem property?_of_mem (h : p ∈ model.properties) : model.property? p.name = some p :=
  NamedList.find?_of_mem model.properties_nodup h

/-- What is found under a name is the property of that name. -/
theorem of_property?_eq_some (h : model.property? key = some p) :
    p ∈ model.properties ∧ p.name = key :=
  NamedList.of_find?_eq_some h

/-- Two declared properties with the same name are the same. -/
theorem eq_of_name_eq {q : Property} (hp : p ∈ model.properties) (hq : q ∈ model.properties)
    (hname : p.name = q.name) : p = q := by
  have hfound := property?_of_mem hp
  rw [hname, property?_of_mem hq] at hfound
  exact (Option.some.inj hfound).symm

/-- A declared relationship is found under its name. -/
theorem relationship?_of_mem {rel : Relationship} (h : rel ∈ model.relationships) :
    model.relationship? rel.name = some rel :=
  NamedList.find?_of_mem model.relationships_nodup h

/-- No relationship is found under the name of a property. -/
theorem relationship?_of_property (h : p ∈ model.properties) :
    model.relationship? p.name = none :=
  NamedList.find?_eq_none.mpr fun hkey => model.keys_disjoint p.name hkey (List.mem_map_of_mem h)

/-- A merge field is the name of a declared property. -/
theorem exists_property_of_mem_mergeFields (h : key ∈ model.mergeFields) :
    ∃ p ∈ model.properties, p.name = key := by
  unfold mergeFields primaryKey? uniqueKeys keysWhere at h
  rcases List.mem_append.mp h with h | h
  · obtain ⟨p, hp, rfl⟩ := Option.map_eq_some_iff.mp (Option.mem_toList.mp h)
    exact ⟨p, List.mem_of_find?_eq_some hp, rfl⟩
  · obtain ⟨p, hp, rfl⟩ := List.mem_map.mp h
    exact ⟨p, (List.mem_filter.mp hp).1, rfl⟩

end EntityType

/-- The type at the far end of a relationship is registered. -/
theorem mem_models_of_target? {registry : Registry} {rel : Relationship} {target : EntityType}
    (h : registry.target? rel = some target) : target ∈ registry.models := by
  obtain ⟨name, -, hfind⟩ := Option.bind_eq_some_iff.mp h
  exact (NamedList.of_find?_eq_some hfind).1

/-- The type that is looked up for the far end of a relationship is registered. -/
theorem mem_models_of_target {registry : Registry} {rel : Relationship} {target : EntityType}
    (h : registry.target rel = .ok (some target)) : target ∈ registry.models := by
  unfold Registry.target Registry.model at h
  split at h
  case h_1 name _ =>
    split at h
    case h_1 found hfind =>
      cases h
      exact (NamedList.of_find?_eq_some hfind).1
    case h_2 => cases h
  case h_2 => cases h

end GraphMapper

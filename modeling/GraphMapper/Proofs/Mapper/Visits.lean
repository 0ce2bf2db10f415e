import GraphMapper.Mapper.Preparation
import GraphMapper.Proofs.Mapper.Filling

/-!
# The bags that a preparation looks at

A preparation looks at one bag after the other: at a bag for a type with its defaults filled in,
then at what it has under the keys of relationships to registered types, in the order of their
declarations and item by item, and where a relationship is held at its own bag before its far node.
`visits` lists the bags in this order, each with the names of relationships, places in lists and
keys of far nodes that lead there, and `leadsTo_of_mem_visits` says that they do lead there from the
payload. What is listed does not depend on what is refused; only the defaults are drawn from the
supply, bag by bag.

`Visited.failures` says what is wrong with one bag by itself. Of a relationship's properties only
the first of each name counts, and none with the name of the key for the far node; where no two
names meet, these are all of its properties (`failures_link`).
-/

namespace GraphMapper

/-- What a preparation looks at: a bag for a type, and what it holds once defaults are filled in, or
the bag of a relationship that is held. -/
inductive Visited where
  | entity (model : EntityType) (bag filled : Bag)
  | link (rel : Relationship) (bag : Bag)

/-- What is looked at, and what leads there. -/
structure Visit where
  path : List String := []
  visited : Visited

/-- The failure of a property on what a bag holds for it: there is no value where one is needed, or
the value is not of the declared type. -/
def Property.failure? (p : Property) (needed : Bool) (bag : Bag) : Option FieldFailure :=
  match bag.present? p.name with
  | none => if needed then some ⟨p.name, .required⟩ else none
  | some value =>
    match coerce p.type value with
    | .ok _ => none
    | .error refusal => some ⟨p.name, refusal⟩

/-- The properties whose names are not taken, and of several with one name the first. -/
def firstNamed (taken : List String) : List Property → List Property
  | [] => []
  | p :: rest =>
    if p.name ∈ taken then firstNamed taken rest else p :: firstNamed (p.name :: taken) rest

/-- What is refused in a bag, in the order of the declarations. A new entity needs what is required;
of a relationship that is held nothing is needed, and its far node is no property of it. -/
def Visited.failures : Visited → List FieldFailure
  | .entity model _ filled => model.properties.filterMap fun p => p.failure? p.required filled
  | .link rel bag =>
    (firstNamed [rel.nodeKey] rel.properties).filterMap fun p => p.failure? false bag

/-- The visit as it is seen from further out. -/
def Visit.under (segments : List String) (visit : Visit) : Visit :=
  { visit with path := segments ++ visit.path }

/-- What is refused in a bag, each field by its path from the root of the payload. -/
def Visit.report (visit : Visit) : ValidationError :=
  ⟨visit.visited.failures.map fun failure =>
    { failure with path := Text.joined "." (visit.path ++ [failure.path]) }⟩

/-- The first bag in which something is refused. -/
def firstOffending? (visits : List Visit) : Option Visit :=
  visits.find? fun visit => !visit.visited.failures.isEmpty

/-- Visits that are made with defaults from the supply. -/
abbrev Visiting : Type := StateM Supply (List Visit)

/-- The visits as they are seen from further out. -/
def Visiting.under (segments : List String) (visiting : Visiting) : Visiting := do
  return (← visiting).map (Visit.under segments)

/-- The visits for each of several items. -/
def visitEach {α : Type} (visit : α → Visiting) : List α → Visiting
  | [] => pure []
  | item :: rest => do return (← visit item) ++ (← visitEach visit rest)

/-- The visits for the far node of a relationship that is held, if it is a bag. -/
def visitBehind (visitFar : Bag → Visiting) (rel : Relationship) (entries : Bag) : Visiting :=
  match KeyedList.get? entries rel.nodeKey with
  | some (.map far) => (visitFar far).under [rel.nodeKey]
  | _ => pure []

/-- The visits for an item of a relationship. What is no bag is not visited. -/
def visitItem (visitFar : Bag → Visiting) (rel : Relationship) : Value → Visiting
  | .map entries =>
    if rel.shape.isRelationship then do
      return { visited := .link rel entries } :: (← visitBehind visitFar rel entries)
    else visitFar entries
  | _ => pure []

/-- The visits for what is under the key of a relationship. -/
def visitRelated (visitFar : Bag → Visiting) (rel : Relationship) : Value → Visiting
  | .list items => visitEach (fun item : Value × Nat =>
      (visitItem visitFar rel item.1).under [rel.name, toString item.2]) items.zipIdx
  | value => (visitItem visitFar rel value).under [rel.name]

/-- The visits for what a bag has under the key of a relationship, if its target is registered. -/
def visitUnder (registry : Registry) (visitFar : EntityType → Bag → Visiting) (bag : Bag)
    (rel : Relationship) : Visiting :=
  match KeyedList.get? bag rel.name, registry.target? rel with
  | some value, some target => visitRelated (visitFar target) rel value
  | _, _ => pure []

/-- The visits for a payload and the bags in it, for so many levels. -/
def visits (registry : Registry) : Nat → EntityType → Bag → Visiting
  | 0, model, bag => do return [{ visited := .entity model bag (← fillDefaults model bag) }]
  | levels + 1, model, bag => do
    let filled ← fillDefaults model bag
    let below ← visitEach (visitUnder registry (visits registry levels) filled) model.relationships
    return { visited := .entity model bag filled } :: below

/-- The item that a bag has under the key of a relationship, or at some place in a list there. -/
inductive ItemAt (bag : Bag) (rel : Relationship) : List String → Value → Prop
  | single {value : Value} (h : KeyedList.get? bag rel.name = some value)
      (hitems : value.items? = none) : ItemAt bag rel [rel.name] value
  | listed {items : List Value} {index : Nat} {item : Value}
      (h : KeyedList.get? bag rel.name = some (.list items)) (hitem : items[index]? = some item) :
    ItemAt bag rel [rel.name, toString index] item

/-- Names of relationships, places in lists and keys of far nodes lead from a bag for a type, within
so many levels, to a bag for a type with its defaults filled in, or to that of a relationship. -/
inductive LeadsTo (registry : Registry) :
    Nat → EntityType → Bag → List String → Visited → Prop
  | here {levels : Nat} {model : EntityType} {bag : Bag} (supply : Supply) :
    LeadsTo registry levels model bag [] (.entity model bag ((fillDefaults model bag).run supply).1)
  | direct {levels : Nat} {model target : EntityType} {bag entries : Bag} {rel : Relationship}
      {segments rest : List String} {visited : Visited} (hrel : rel ∈ model.relationships)
      (htarget : registry.target? rel = some target) (hshape : rel.shape.isRelationship = false)
      (hitem : ItemAt bag rel segments (.map entries))
      (h : LeadsTo registry levels target entries rest visited) :
    LeadsTo registry (levels + 1) model bag (segments ++ rest) visited
  | held {levels : Nat} {model target : EntityType} {bag entries : Bag} {rel : Relationship}
      {segments : List String} (hrel : rel ∈ model.relationships)
      (htarget : registry.target? rel = some target) (hshape : rel.shape.isRelationship = true)
      (hitem : ItemAt bag rel segments (.map entries)) :
    LeadsTo registry (levels + 1) model bag segments (.link rel entries)
  | behind {levels : Nat} {model target : EntityType} {bag entries far : Bag} {rel : Relationship}
      {segments rest : List String} {visited : Visited} (hrel : rel ∈ model.relationships)
      (htarget : registry.target? rel = some target) (hshape : rel.shape.isRelationship = true)
      (hitem : ItemAt bag rel segments (.map entries))
      (hfar : KeyedList.get? entries rel.nodeKey = some (.map far))
      (h : LeadsTo registry levels target far rest visited) :
    LeadsTo registry (levels + 1) model bag (segments ++ rel.nodeKey :: rest) visited

variable {registry : Registry} {levels : Nat} {model : EntityType} {rel : Relationship} {bag : Bag}
  {visit : Visit} {supply : Supply}

/-- Of properties with different names that are not taken none is left out. -/
theorem firstNamed_eq_self {taken : List String} {properties : List Property}
    (hnodup : (properties.map Property.name).Nodup) (htaken : ∀ p ∈ properties, p.name ∉ taken) :
    firstNamed taken properties = properties := by
  induction properties generalizing taken with
  | nil => rfl
  | cons p rest ih =>
    rw [List.map_cons, List.nodup_cons] at hnodup
    rw [firstNamed, if_neg (htaken p List.mem_cons_self), ih hnodup.2 fun q hq => ?_]
    rw [List.mem_cons, not_or]
    exact ⟨fun hname => hnodup.1 (hname ▸ List.mem_map_of_mem hq),
      htaken q (List.mem_cons_of_mem p hq)⟩

/-- Where the names of a relationship's properties differ, also from the key of its far node, all
that is refused in its bag are the properties whose values are not of their types. -/
theorem failures_link (hnodup : (rel.properties.map Property.name).Nodup)
    (hnodeKey : rel.nodeKey ∉ rel.properties.map Property.name) (bag : Bag) :
    (Visited.link rel bag).failures = rel.properties.filterMap fun p => p.failure? false bag := by
  have hfirst : firstNamed [rel.nodeKey] rel.properties = rel.properties := by
    refine firstNamed_eq_self hnodup fun p hp hname => hnodeKey ?_
    rw [← List.mem_singleton.mp hname]
    exact List.mem_map_of_mem hp
  rw [Visited.failures, hfirst]

/-- What is visited for several items is visited for one of them. -/
theorem exists_of_mem_visitEach {α : Type} {visitOne : α → Visiting} {items : List α}
    (h : visit ∈ ((visitEach visitOne items).run supply).1) :
    ∃ item ∈ items, ∃ supply, visit ∈ ((visitOne item).run supply).1 := by
  induction items generalizing supply with
  | nil => cases h
  | cons item rest ih =>
    rcases List.mem_append.mp h with h | h
    · exact ⟨item, List.mem_cons_self, supply, h⟩
    · obtain ⟨other, hother, hvisit⟩ := ih h
      exact ⟨other, List.mem_cons_of_mem _ hother, hvisit⟩

/-- What is seen from further out was seen from further in. -/
theorem exists_of_mem_under {segments : List String} {visiting : Visiting}
    (h : visit ∈ ((visiting.under segments).run supply).1) :
    ∃ inner ∈ (visiting.run supply).1, inner.under segments = visit :=
  List.mem_map.mp h

/-- What a bag has under the key of a relationship is still there once defaults are filled in,
unless the note of what was filled in stands there, which is a list of texts. -/
theorem get?_fillDefaults (hrel : rel ∈ model.relationships) (bag : Bag) (supply : Supply) :
    KeyedList.get? ((fillDefaults model bag).run supply).1 rel.name = KeyedList.get? bag rel.name ∨
      ∃ names : List String, KeyedList.get? ((fillDefaults model bag).run supply).1 rel.name =
        some (.list (names.map .string)) := by
  -- Defaults are for properties, which have other names than relationships.
  have happlied : KeyedList.get? ((applyDefaults model bag).run supply).1 rel.name =
      KeyedList.get? bag rel.name :=
    get?_foldlM_applyDefault (model.keys_disjoint _ (List.mem_map_of_mem hrel)) supply
  obtain ⟨names, hfilled⟩ : ∃ names, ((fillDefaults model bag).run supply).1 =
      markDefaulted ((applyDefaults model bag).run supply).1 names := ⟨_, rfl⟩
  rw [hfilled]
  by_cases hnote : names = [] ∨ rel.name ≠ defaultedKey
  · exact .inl ((get?_markDefaulted_other hnote).trans happlied)
  · simp only [not_or, Decidable.not_not] at hnote
    rw [hnote.2]
    exact .inr ⟨names, get?_markDefaulted_note hnote.1⟩

section

variable {target : EntityType} {visitFar : Bag → Visiting} {segments : List String} {item : Value}
  (hrel : rel ∈ model.relationships) (htarget : registry.target? rel = some target)
  (hfar : ∀ {entries supply visit}, visit ∈ ((visitFar entries).run supply).1 →
    LeadsTo registry levels target entries visit.path visit.visited)

include hrel htarget hfar

/-- What is visited for an item is led to by way of the item. -/
theorem leadsTo_of_mem_visitItem (hitem : ItemAt bag rel segments item)
    (h : visit ∈ ((visitItem visitFar rel item).run supply).1) :
    LeadsTo registry (levels + 1) model bag (segments ++ visit.path) visit.visited := by
  cases item with
  | map entries =>
    rw [visitItem] at h
    split at h
    case isTrue hshape =>
      rcases List.mem_cons.mp h with rfl | h
      · rw [List.append_nil]
        exact .held hrel htarget hshape hitem
      · change visit ∈ ((visitBehind visitFar rel entries).run supply).1 at h
        unfold visitBehind at h
        split at h
        case h_1 far hnode =>
          obtain ⟨inner, hinner, rfl⟩ := exists_of_mem_under h
          exact .behind hrel htarget hshape hitem hnode (hfar hinner)
        case h_2 => cases h
    case isFalse hshape =>
      exact .direct hrel htarget (Bool.eq_false_iff.mpr hshape) hitem (hfar h)
  | _ => cases h

/-- What is visited for what is under the key of a relationship is led to from the bag. -/
theorem leadsTo_of_mem_visitRelated {value : Value}
    (hvalue : KeyedList.get? bag rel.name = some value)
    (h : visit ∈ ((visitRelated visitFar rel value).run supply).1) :
    LeadsTo registry (levels + 1) model bag visit.path visit.visited := by
  unfold visitRelated at h
  split at h
  case h_1 items =>
    obtain ⟨⟨item, index⟩, hmem, supply, h⟩ := exists_of_mem_visitEach h
    obtain ⟨inner, hinner, rfl⟩ := exists_of_mem_under h
    have hitem : items[index]? = some item := List.mk_mem_zipIdx_iff_getElem?.mp hmem
    exact leadsTo_of_mem_visitItem hrel htarget hfar (.listed hvalue hitem) hinner
  case h_2 hlist =>
    obtain ⟨inner, hinner, rfl⟩ := exists_of_mem_under h
    refine leadsTo_of_mem_visitItem hrel htarget hfar (.single hvalue ?_) hinner
    cases value with
    | list items => exact absurd rfl (hlist items)
    | _ => rfl

end

/-- Texts are not visited. -/
theorem not_mem_visitRelated_texts {visitFar : Bag → Visiting} {names : List String} :
    visit ∉ ((visitRelated visitFar rel (.list (names.map .string))).run supply).1 := by
  intro h
  obtain ⟨⟨item, index⟩, hmem, supply, h⟩ := exists_of_mem_visitEach h
  obtain ⟨inner, hinner, -⟩ := exists_of_mem_under h
  obtain ⟨name, -, rfl⟩ := List.mem_map.mp (List.fst_mem_of_mem_zipIdx hmem)
  cases hinner

/-- A payload is visited first, and then what it has under the keys of relationships, with what is
left of the supply. -/
theorem run_visits_succ {filled : Bag} {rest : Supply}
    (h : (fillDefaults model bag).run supply = (filled, rest)) :
    (visits registry (levels + 1) model bag).run supply =
      ({ visited := .entity model bag filled } ::
          ((visitEach (visitUnder registry (visits registry levels) filled)
            model.relationships).run rest).1,
        ((visitEach (visitUnder registry (visits registry levels) filled)
          model.relationships).run rest).2) := by
  rw [visits, StateT.run_bind, h]
  rfl

/-- Whatever is visited is led to from the payload. -/
theorem leadsTo_of_mem_visits
    (h : visit ∈ ((visits registry levels model bag).run supply).1) :
    LeadsTo registry levels model bag visit.path visit.visited := by
  induction levels generalizing model bag supply visit with
  | zero =>
    obtain rfl := List.mem_singleton.mp h
    exact .here supply
  | succ levels ih =>
    have hhere := @LeadsTo.here registry (levels + 1) model bag supply
    have hkept := fun {rel} (hrel : rel ∈ model.relationships) => get?_fillDefaults hrel bag supply
    cases hfilled : (fillDefaults model bag).run supply with
    | mk filled rest =>
      rw [hfilled] at hhere hkept
      rw [run_visits_succ hfilled] at h
      rcases List.mem_cons.mp h with rfl | h
      · exact hhere
      · -- The visits go on in the filled bag, while the path leads on from the given one: they
        -- differ under the key of a relationship only by a note, in which nothing is visited.
        obtain ⟨rel, hrel, later, h⟩ := exists_of_mem_visitEach h
        unfold visitUnder at h
        split at h
        case h_1 value target hvalue htarget =>
          rcases hkept hrel with hkept | ⟨names, hnote⟩
          · exact leadsTo_of_mem_visitRelated hrel htarget ih (hkept.symm.trans hvalue) h
          · rw [hvalue] at hnote
            cases hnote
            exact absurd h not_mem_visitRelated_texts
        case h_2 => cases h

end GraphMapper

import GraphMapper.Schema.Error
import GraphMapper.Schema.Relationship

/-!
# Entity types

An entity type declares the properties and the relationships of the nodes that carry exactly its
labels. A type is drafted declaration by declaration, a later one replacing an earlier one of the
same name, and then built; building refuses a key that names a property and a relationship, and a
second primary key. What it accepts is part of `EntityType`, so that it holds of every type.
-/

namespace GraphMapper

/-- The labels in ascending order, each once. -/
def insertLabel (label : String) : List String → List String
  | [] => [label]
  | head :: rest =>
    if label = head then head :: rest
    else if label < head then label :: head :: rest
    else head :: insertLabel label rest

/-- A list of labels as a set: in ascending order, each once. -/
def labelSet (labels : List String) : List String :=
  labels.foldr insertLabel []

/-- A label is in the list after `insertLabel` if it is the new one or was there. -/
theorem mem_insertLabel {label other : String} {labels : List String} :
    other ∈ insertLabel label labels ↔ other = label ∨ other ∈ labels := by
  induction labels with
  | nil => simp [insertLabel]
  | cons head rest ih => grind [insertLabel]

/-- `insertLabel` keeps ascending labels ascending. -/
theorem insertLabel_ascending {label : String} {labels : List String}
    (h : labels.Pairwise (· < ·)) : (insertLabel label labels).Pairwise (· < ·) := by
  induction labels with
  | nil => simp [insertLabel]
  | cons head rest ih =>
    have h' := List.pairwise_cons.mp h
    by_cases he : label = head
    · simpa [insertLabel, he] using h
    · by_cases hlt : label < head
      · simp only [insertLabel, he, hlt, if_true, if_false]
        refine List.pairwise_cons.mpr ⟨fun b hb => ?_, h⟩
        rcases List.mem_cons.mp hb with rfl | hb
        · exact hlt
        · exact String.lt_trans hlt (h'.1 b hb)
      · simp only [insertLabel, he, hlt, if_false]
        refine List.pairwise_cons.mpr ⟨fun b hb => ?_, ih h'.2⟩
        rcases mem_insertLabel.mp hb with rfl | hb
        · exact Decidable.byContradiction fun hn =>
            he (String.le_antisymm (String.not_lt.mp hn) (String.not_lt.mp hlt))
        · exact h'.1 b hb

/-- A set of labels ascends. -/
theorem labelSet_ascending (labels : List String) : (labelSet labels).Pairwise (· < ·) := by
  induction labels with
  | nil => simp [labelSet]
  | cons label rest ih => exact insertLabel_ascending ih

/-- A set of labels has the labels of the list. -/
theorem mem_labelSet {label : String} {labels : List String} :
    label ∈ labelSet labels ↔ label ∈ labels := by
  induction labels with
  | nil => simp [labelSet]
  | cons head rest ih =>
    simp only [labelSet, List.foldr_cons] at ih ⊢
    rw [mem_insertLabel, ih, List.mem_cons]

/-- The declarations of an entity type before they are checked against each other. -/
structure EntityDraft where
  name : String
  labels : List String := []
  properties : List Property := []
  relationships : List Relationship := []
  properties_nodup : (properties.map Property.name).Nodup := by simp
  relationships_nodup : (relationships.map Relationship.name).Nodup := by simp

namespace EntityDraft

/-- Adds a label. A type that is given none has its name for a label. -/
def label (draft : EntityDraft) (label : String) : EntityDraft :=
  { draft with labels := draft.labels ++ [label] }

/-- Declares a property, in the place of one of the same name. -/
def property (draft : EntityDraft) (p : Property) : EntityDraft :=
  { draft with
    properties := NamedList.put Property.name p draft.properties
    properties_nodup := NamedList.put_nodup draft.properties_nodup p }

/-- Declares a relationship, in the place of one of the same name. -/
def relationship (draft : EntityDraft) (rel : Relationship) : EntityDraft :=
  { draft with
    relationships := NamedList.put Relationship.name rel draft.relationships
    relationships_nodup := NamedList.put_nodup draft.relationships_nodup rel }

/-- The first relationship key that is the name of a property too. -/
def clash? (draft : EntityDraft) : Option String :=
  (draft.relationships.map Relationship.name).find? fun key =>
    (draft.properties.map Property.name).contains key

end EntityDraft

/-- A declared type of nodes. -/
structure EntityType where
  name : String
  labels : List String
  properties : List Property
  relationships : List Relationship
  labels_ne_nil : labels ≠ []
  labels_ascending : labels.Pairwise (· < ·)
  properties_nodup : (properties.map Property.name).Nodup
  relationships_nodup : (relationships.map Relationship.name).Nodup
  keys_disjoint : ∀ key ∈ relationships.map Relationship.name,
    key ∉ properties.map Property.name
  primary_le_one : (properties.filter (·.primary)).length ≤ 1

/-- Checks the declarations against each other and builds the type. -/
def EntityDraft.build (draft : EntityDraft) : Except SchemaError EntityType :=
  match hclash : draft.clash? with
  | some key => .error (.duplicateKey draft.name key)
  | none =>
    match hprimary : draft.properties.filter (·.primary) with
    | first :: second :: _ => .error (.multiplePrimaryKeys draft.name first.name second.name)
    | [] | [_] =>
      .ok {
        name := draft.name
        labels := labelSet (if draft.labels = [] then [draft.name] else draft.labels)
        properties := draft.properties
        relationships := draft.relationships
        labels_ne_nil := by
          intro h
          have hmem : ∀ l,
              l ∉ labelSet (if draft.labels = [] then [draft.name] else draft.labels) :=
            fun l hl => by simp [h] at hl
          split at hmem
          · exact hmem draft.name (mem_labelSet.mpr (by simp))
          · next hne =>
            obtain ⟨l, hl⟩ := List.exists_mem_of_ne_nil _ hne
            exact hmem l (mem_labelSet.mpr hl)
        labels_ascending := labelSet_ascending _
        properties_nodup := draft.properties_nodup
        relationships_nodup := draft.relationships_nodup
        keys_disjoint := fun key hkey hmem => by
          have := List.find?_eq_none.mp hclash key hkey
          simp_all
        primary_le_one := by simp [hprimary] }

namespace EntityType

/-- The declared property of that name. -/
def property? (model : EntityType) (name : String) : Option Property :=
  NamedList.find? Property.name model.properties name

/-- The declared relationship of that name. -/
def relationship? (model : EntityType) (name : String) : Option Relationship :=
  NamedList.find? Relationship.name model.relationships name

/-- The relationships that are fetched together with the entity. -/
def eager (model : EntityType) : List Relationship :=
  model.relationships.filter (·.eager)

/-- The name of the primary key, if there is one. -/
def primaryKey? (model : EntityType) : Option String :=
  (model.properties.find? (·.primary)).map Property.name

/-- The names of the properties that satisfy a test. -/
def keysWhere (model : EntityType) (test : Property → Bool) : List String :=
  (model.properties.filter test).map Property.name

/-- The unique properties other than the primary key. -/
def uniqueKeys (model : EntityType) : List String :=
  model.keysWhere fun p => p.unique && !p.primary

/-- The indexed properties. -/
def indexedKeys (model : EntityType) : List String := model.keysWhere (·.indexed)

/-- The properties that results never show. -/
def hiddenKeys (model : EntityType) : List String := model.keysWhere (·.hidden)

/-- The properties that an update never changes. -/
def readonlyKeys (model : EntityType) : List String := model.keysWhere (·.readonly)

/-- The properties that results show. -/
def visible (model : EntityType) : List Property :=
  model.properties.filter fun p => !p.hidden

/-- The keys by which a merge finds an entity: the primary key, then the unique keys. -/
def mergeFields (model : EntityType) : List String :=
  model.primaryKey?.toList ++ model.uniqueKeys

/-- Whether a list of labels, in any order and with repetitions, is that of the type. -/
def hasLabels (model : EntityType) (labels : List String) : Bool :=
  labelSet labels = model.labels

/-- The draft of a type that has one more label, and so far the same declarations. -/
def extend (parent : EntityType) (name label : String) : EntityDraft where
  name := name
  labels := parent.labels ++ [label]
  properties := parent.properties
  relationships := parent.relationships
  properties_nodup := parent.properties_nodup
  relationships_nodup := parent.relationships_nodup

end EntityType

/-- Declares what a type declares. -/
def EntityDraft.adopt (draft : EntityDraft) (model : EntityType) : EntityDraft :=
  model.relationships.foldl relationship (model.properties.foldl property draft)

end GraphMapper

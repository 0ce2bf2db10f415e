import Mathlib.Data.List.Nodup
import GraphMapper.Proofs.Hydration
import GraphMapper.Proofs.Schema.Declarations

/-!
# Hidden values do not reach loaded nodes

Two values that differ in nothing but what they have under hidden keys are loaded as equal nodes, or
refused for the same reason. Which keys are hidden depends on the type that a value is loaded as,
and so on its labels where no type is expected; the relations below follow the values down and ask
on every level for the keys of that level. They know neither a limit nor levels, so that nested
values that are not loaded may differ as well.

One key is read twice: a relationship holds its far node beside its properties. Where a visible
property has the name of the key for the far node, the whole projection of that node counts as a
value of the property, with all that is hidden in it; `ofRows_eq_of_same` assumes that no such
property is declared, and `gossip_shown` shows what becomes of the secret of a node if one is.
-/

namespace GraphMapper

open Hydration

/-- A key is hidden where it is declared, and every declaration of it is hidden. -/
def Hides (properties : List Property) (key : String) : Prop :=
  key ∈ properties.map Property.name ∧ ∀ p ∈ properties, p.name = key → p.hidden

mutual

/-- Two values say the same of a node of some type, but for what they have under its hidden keys. -/
inductive NodeSame (registry : Registry) : Option EntityType → Value → Value → Prop
  | refl {expected : Option EntityType} {value : Value} : NodeSame registry expected value value
  | projected {expected : Option EntityType} {model : EntityType} {entries others : Bag}
      (hmodel : expected.or (registry.byLabels? (projectedLabels entries)) = some model)
      (h : ∀ key, ¬ Hides model.properties key →
        EntrySame registry model key (KeyedList.get? entries key) (KeyedList.get? others key)) :
    NodeSame registry expected (.map entries) (.map others)
  | stored {expected : Option EntityType} {model : EntityType} {identity : Identity}
      {labels : List String} {properties others : Bag}
      (hmodel : expected.or (registry.byLabels? labels) = some model)
      (h : ∀ key, ¬ Hides model.properties key →
        KeyedList.get? properties key = KeyedList.get? others key) :
    NodeSame registry expected (.node identity labels properties) (.node identity labels others)

/-- What is found under a key of a node of a type is the same, but for what is hidden in the nodes
and relationships there. -/
inductive EntrySame (registry : Registry) :
    EntityType → String → Option Value → Option Value → Prop
  | refl {model : EntityType} {key : String} {found : Option Value} :
    EntrySame registry model key found found
  | eager {model : EntityType} {rel : Relationship} {target : Option EntityType}
      {value other : Value} (hrel : rel ∈ model.eager)
      (htarget : registry.target rel = .ok target) (h : FoundSame registry rel target value other) :
    EntrySame registry model rel.name (some value) (some other)

/-- What is found along a relationship is the same in each node and each relationship, but for what
is hidden there. -/
inductive FoundSame (registry : Registry) :
    Relationship → Option EntityType → Value → Value → Prop
  | node {rel : Relationship} {target : Option EntityType} {value other : Value}
      (hshape : rel.shape = .node) (h : NodeSame registry target value other) :
    FoundSame registry rel target value other
  | nodes {rel : Relationship} {target : Option EntityType} {items others : List Value}
      (hshape : rel.shape = .nodes) (hlength : items.length = others.length)
      (h : ∀ {item other}, (item, other) ∈ items.zip others → NodeSame registry target item other) :
    FoundSame registry rel target (.list items) (.list others)
  | relationship {rel : Relationship} {target : Option EntityType} {value other : Value}
      (hshape : rel.shape = .relationship) (h : LinkSame registry rel target value other) :
    FoundSame registry rel target value other
  | relationships {rel : Relationship} {target : Option EntityType} {items others : List Value}
      (hshape : rel.shape = .relationships) (hlength : items.length = others.length)
      (h : ∀ {item other}, (item, other) ∈ items.zip others →
        LinkSame registry rel target item other) :
    FoundSame registry rel target (.list items) (.list others)

/-- Two values say the same of a relationship and of its far node, but for what they have under
hidden keys. -/
inductive LinkSame (registry : Registry) :
    Relationship → Option EntityType → Value → Value → Prop
  | refl {rel : Relationship} {target : Option EntityType} {value : Value} :
    LinkSame registry rel target value value
  | projected {rel : Relationship} {target : Option EntityType} {entries others : Bag}
      (h : ∀ key, key ≠ rel.nodeKey → ¬ Hides rel.properties key →
        KeyedList.get? entries key = KeyedList.get? others key)
      (hnone : KeyedList.get? entries rel.nodeKey = none ↔
        KeyedList.get? others rel.nodeKey = none)
      (hsome : ∀ far far', KeyedList.get? entries rel.nodeKey = some far →
        KeyedList.get? others rel.nodeKey = some far' → NodeSame registry target far far') :
    LinkSame registry rel target (.map entries) (.map others)
  | stored {rel : Relationship} {target : Option EntityType} {identity : Identity} {type : String}
      {startNode endNode : Identity} {properties others : Bag}
      (h : ∀ key, ¬ Hides rel.properties key →
        KeyedList.get? properties key = KeyedList.get? others key) :
    LinkSame registry rel target (.relationship identity type startNode endNode properties)
      (.relationship identity type startNode endNode others)

end

instance (properties : List Property) (key : String) : Decidable (Hides properties key) :=
  inferInstanceAs (Decidable (_ ∧ _))

/-- Two rows say the same of the node in a column. -/
def RowSame (registry : Registry) (var : String) (expected : Option EntityType) (row other : Row) :
    Prop :=
  Option.Rel (NodeSame registry expected) (row.get? var) (other.get? var)

/-- No marker of a projection is a hidden key. -/
def HidesNoMarker (properties : List Property) : Prop :=
  ∀ key ∈ [identityKey, labelsKey, typeKey], ¬ Hides properties key

/-- No marker is hidden by a type, or by what is loaded along its relationships. -/
def EntityType.HidesNoMarker (model : EntityType) : Prop :=
  GraphMapper.HidesNoMarker model.properties ∧
    ∀ rel ∈ model.eager, GraphMapper.HidesNoMarker rel.properties

/-- What is loaded along the relationships of a type shows no property that has the name of the key
for the far node. -/
def EntityType.NodeKeysApart (model : EntityType) : Prop :=
  ∀ rel ∈ model.eager, rel.shape.isRelationship →
    ∀ p ∈ rel.properties, p.name = rel.nodeKey → p.hidden

instance (properties : List Property) : Decidable (HidesNoMarker properties) :=
  inferInstanceAs (Decidable (∀ key ∈ _, _))

instance (model : EntityType) : Decidable model.HidesNoMarker :=
  inferInstanceAs (Decidable (_ ∧ ∀ rel ∈ _, _))

instance (model : EntityType) : Decidable model.NodeKeysApart :=
  inferInstanceAs (Decidable (∀ rel ∈ _, _))

/-- The texts in a list; what is no text is passed over. -/
def Value.texts? : Value → Option (List String)
  | .list items => some (items.filterMap Value.string?)
  | _ => none

variable {registry : Registry} {levels : Nat} {model : EntityType}
  {expected target : Option EntityType} {rel : Relationship} {value other : Value}
  {entries others : Bag} {key : String} {found found' : Option Value}

/-- Labels are texts in a list under their marker. -/
theorem projectedLabels_eq :
    projectedLabels entries =
      ((KeyedList.get? entries labelsKey).bind Value.texts?).getD [] := by
  unfold projectedLabels
  split
  case h_1 items h => simp [h, Value.texts?]
  case h_2 h =>
    cases hfound : KeyedList.get? entries labelsKey with
    | none => rfl
    | some value =>
      cases value with
      | list items => exact absurd hfound (h items)
      | _ => rfl

/-- What is shown depends on what is under visible keys alone. -/
theorem shown_congr {properties : List Property}
    (h : ∀ p ∈ properties, p.hidden = false →
      KeyedList.get? entries p.name = KeyedList.get? others p.name) :
    shown properties entries = shown properties others := by
  unfold shown
  congr 1
  refine List.filterMap_congr fun p hp => ?_
  obtain ⟨hmem, hvisible⟩ := List.mem_filter.mp hp
  rw [h p hmem (by simpa using hvisible)]

/-- A visible property is not under a hidden key. -/
theorem not_hides_of_visible {properties : List Property} {p : Property} (hp : p ∈ properties)
    (hvisible : p.hidden = false) : ¬ Hides properties p.name := by
  intro h
  rw [h.2 p hp rfl] at hvisible
  cases hvisible

/-- Values that say the same of a node carry the same identity, text and list of texts, and are null
together. -/
theorem NodeSame.read (h : NodeSame registry expected value other) :
    value.identity? = other.identity? ∧ value.string? = other.string? ∧
      value.texts? = other.texts? ∧ value.isNull = other.isNull := by
  cases h <;> exact ⟨rfl, rfl, rfl, rfl⟩

/-- Values that say the same of a relationship carry the same identity, text and list of texts, and
are null together. -/
theorem LinkSame.read (h : LinkSame registry rel target value other) :
    value.identity? = other.identity? ∧ value.string? = other.string? ∧
      value.texts? = other.texts? ∧ value.isNull = other.isNull := by
  cases h <;> exact ⟨rfl, rfl, rfl, rfl⟩

/-- Lists of which the items are the same texts have the same texts. -/
theorem texts?_list {items others : List Value}
    (h : List.Forall₂ (fun item other => Value.string? item = other.string?) items others) :
    (Value.list items).texts? = (Value.list others).texts? :=
  congrArg some (filterMap_of_forall₂ (h.imp fun _ _ => Eq.symm)).symm

/-- What is found along a relationship, if it is the same, carries the same identity and list of
texts. -/
theorem FoundSame.read (h : FoundSame registry rel target value other) :
    value.identity? = other.identity? ∧ value.texts? = other.texts? := by
  cases h with
  | node _ h => exact ⟨h.read.1, h.read.2.2.1⟩
  | nodes _ hlength h =>
    have hitems := List.forall₂_iff_zip.mpr ⟨hlength, h⟩
    exact ⟨rfl, texts?_list (hitems.imp fun _ _ h => h.read.2.1)⟩
  | relationship _ h => exact ⟨h.read.1, h.read.2.2.1⟩
  | relationships _ hlength h =>
    have hitems := List.forall₂_iff_zip.mpr ⟨hlength, h⟩
    exact ⟨rfl, texts?_list (hitems.imp fun _ _ h => h.read.2.1)⟩

/-- What is found under a key, if it is the same, carries the same identity and list of texts. -/
theorem EntrySame.read (h : EntrySame registry model key found found') :
    found.bind Value.identity? = found'.bind Value.identity? ∧
      found.bind Value.texts? = found'.bind Value.texts? := by
  cases h with
  | refl => exact ⟨rfl, rfl⟩
  | eager _ _ h => exact h.read

/-- What is found under the name of an eager relationship is the same along it. -/
theorem EntrySame.of_eager (h : EntrySame registry model rel.name found found')
    (hrel : rel ∈ model.eager) :
    found = found' ∨ ∃ target value other, found = some value ∧ found' = some other ∧
      registry.target rel = .ok target ∧ FoundSame registry rel target value other := by
  generalize hkey : rel.name = key at h
  cases h with
  | refl => exact .inl rfl
  | @eager _ declared target value other hdeclared htarget h =>
    obtain rfl : rel = declared := List.inj_on_of_nodup_map model.relationships_nodup
      (List.mem_of_mem_filter hrel) (List.mem_of_mem_filter hdeclared) hkey
    exact .inr ⟨target, value, other, rfl, rfl, htarget, h⟩

/-- What is found under the name of a property is the same value. -/
theorem EntrySame.of_property {p : Property}
    (h : EntrySame registry model p.name found found') (hp : p ∈ model.properties) :
    found = found' := by
  generalize hkey : p.name = key at h
  cases h with
  | refl => rfl
  | eager hrel =>
    have hname := model.keys_disjoint _ (List.mem_map_of_mem (List.mem_of_mem_filter hrel))
    exact absurd (List.mem_map_of_mem hp) (hkey ▸ hname)

/-- What is there in both or in neither, and then is related, is related as it may be there. -/
theorem rel_of_some {related : Value → Value → Prop} (hnone : found = none ↔ found' = none)
    (hsome : ∀ value other, found = some value → found' = some other → related value other) :
    Option.Rel related found found' := by
  cases found with
  | none =>
    rw [hnone.mp rfl]
    exact .none
  | some value =>
    cases found' with
    | none => cases hnone.mpr rfl
    | some other => exact .some (hsome value other rfl rfl)

/-- What is read of a relationship under a key that is not hidden is the same, if it is the same for
far nodes. -/
theorem bind_get?_of_same {α : Type} {read : Value → Option α}
    (hread : ∀ {far far'}, NodeSame registry target far far' → read far = read far')
    (h : ∀ key, key ≠ rel.nodeKey → ¬ Hides rel.properties key →
      KeyedList.get? entries key = KeyedList.get? others key)
    (hfar : Option.Rel (NodeSame registry target) (KeyedList.get? entries rel.nodeKey)
      (KeyedList.get? others rel.nodeKey))
    (hkey : ¬ Hides rel.properties key) :
    (KeyedList.get? entries key).bind read = (KeyedList.get? others key).bind read := by
  by_cases hnode : key = rel.nodeKey
  · subst hnode
    generalize KeyedList.get? entries rel.nodeKey = found at hfar
    generalize KeyedList.get? others rel.nodeKey = found' at hfar
    cases hfar with
    | none => rfl
    | some h => exact hread h
  · rw [h key hnode hkey]

section

variable {readFar : Value → Except HydrationError Node} {subject : Identity}
  (hfar : ∀ value other, NodeSame registry target value other → readFar value = readFar other)

include hfar

/-- Relationships that are the same but for hidden keys are loaded alike. -/
theorem readLink_eq_of_same (hmarkers : HidesNoMarker rel.properties)
    (hapart : ∀ p ∈ rel.properties, p.name = rel.nodeKey → p.hidden)
    (h : LinkSame registry rel target value other) :
    readLink readFar rel subject value = readLink readFar rel subject other := by
  cases h with
  | refl => rfl
  | stored => rfl
  | @projected _ _ entries others h hnone hsome =>
    have hnodes := rel_of_some hnone hsome
    have hidentity :=
      bind_get?_of_same (fun h => h.read.1) h hnodes (hmarkers identityKey (by simp))
    have htype := bind_get?_of_same (fun h => h.read.2.1) h hnodes (hmarkers typeKey (by simp))
    have hshown : shown rel.properties entries = shown rel.properties others := by
      refine shown_congr fun p hp hvisible => h p.name ?_ (not_hides_of_visible hp hvisible)
      intro hname
      rw [hapart p hp hname] at hvisible
      cases hvisible
    simp only [readLink, projectedIdentity, hidentity, htype, hshown]
    generalize KeyedList.get? entries rel.nodeKey = found at hnodes
    generalize KeyedList.get? others rel.nodeKey = found' at hnodes
    cases hnodes with
    | none => rfl
    | some h => simp only [hfar _ _ h]

/-- What is found along a relationship, if it is the same but for hidden keys, is loaded alike. -/
theorem readField_eq_of_same {owner : EntityType} (hmarkers : HidesNoMarker rel.properties)
    (hapart : rel.shape.isRelationship → ∀ p ∈ rel.properties, p.name = rel.nodeKey → p.hidden)
    (h : FoundSame registry rel target value other) :
    readField readFar owner rel subject value = readField readFar owner rel subject other := by
  cases h with
  | node hshape h => simp only [readField, hshape, h.read.2.2.2, hfar _ _ h]
  | nodes hshape hlength h =>
    have hitems := List.forall₂_iff_zip.mpr ⟨hlength, h⟩
    simp only [readField, hshape, listItems, bind, Except.bind]
    rw [mapM_eq_of_forall₂ (hitems.imp hfar)]
  | relationship hshape h =>
    have hlink := @readLink_eq_of_same _ _ _ _ _ _ subject hfar hmarkers
      (hapart (by rw [hshape]; rfl)) h
    simp only [readField, hshape, h.read.2.2.2, hlink]
  | relationships hshape hlength h =>
    have hitems := List.forall₂_iff_zip.mpr ⟨hlength, h⟩
    simp only [readField, hshape, listItems, bind, Except.bind]
    rw [mapM_eq_of_forall₂ (hitems.imp fun _ _ =>
      readLink_eq_of_same hfar hmarkers (hapart (by rw [hshape]; rfl)))]

end

/-- A type that is found was expected, or is registered. -/
theorem mem_of_modelOf {labels : List String}
    (h : expected.or (registry.byLabels? labels) = some model) :
    model ∈ registry.models ++ expected.toList := by
  cases expected with
  | some known =>
    cases h
    simp
  | none =>
    rw [Option.none_or] at h
    simpa using List.mem_of_find?_eq_some h

/-- What is found under the name of an eager relationship is loaded alike from sources that are the
same but for hidden keys, if the nodes there are. -/
theorem readEager_eq_of_same
    {readNode : Bool → Option EntityType → Value → Except HydrationError Node}
    (hread : ∀ typed target value other, (∀ model ∈ target, model ∈ registry.models) →
      NodeSame registry target value other →
      readNode typed target value = readNode typed target other)
    {source : Source} (hmarkers : source.model.HidesNoMarker)
    (hapart : source.model.NodeKeysApart) (hrel : rel ∈ source.model.eager)
    (h : EntrySame registry source.model rel.name (KeyedList.get? source.entries rel.name)
      (KeyedList.get? others rel.name)) :
    readEager registry readNode source rel =
      readEager registry readNode { source with entries := others } rel := by
  unfold readEager
  rcases h.of_eager hrel with heq | ⟨target, value, other, hvalue, hother, htarget, h⟩
  · simp only [heq]
  · have hregistered : ∀ model ∈ target, model ∈ registry.models := by
      rintro model rfl
      exact mem_models_of_target htarget
    simp only [hvalue, hother, htarget, readField_eq_of_same
      (fun value other => hread target.isSome target value other hregistered)
      (hmarkers.2 rel hrel) (hapart rel hrel) h]

/-- Of values that say the same of a node but for hidden keys, the same is read but for these, or
none is. -/
theorem readSource_of_same
    (hmarkers : ∀ model ∈ registry.models ++ expected.toList, model.HidesNoMarker)
    (h : NodeSame registry expected value other) :
    readSource registry expected value = readSource registry expected other ∨
      ∃ source others, readSource registry expected value = .ok source ∧
        readSource registry expected other = .ok { source with entries := others } ∧
        source.model ∈ registry.models ++ expected.toList ∧
        ∀ key, ¬ Hides source.model.properties key → EntrySame registry source.model key
          (KeyedList.get? source.entries key) (KeyedList.get? others key) := by
  cases h with
  | refl => exact .inl rfl
  | @projected _ model entries others hmodel h =>
    have hmem := mem_of_modelOf hmodel
    have hidentity := (h identityKey ((hmarkers model hmem).1 _ (by simp))).read.1
    have hlabels : projectedLabels others = projectedLabels entries := by
      rw [projectedLabels_eq, projectedLabels_eq,
        (h labelsKey ((hmarkers model hmem).1 _ (by simp))).read.2]
    have hread := modelOf_eq_ok.mpr hmodel
    simp only [readSource, projectedIdentity, hlabels, hread, ← hidentity]
    cases (KeyedList.get? entries identityKey).bind Value.identity? with
    | none => exact .inl rfl
    | some identity =>
      exact .inr ⟨⟨identity, projectedLabels entries, model, entries, true⟩, others, rfl, rfl, hmem,
        h⟩
  | @stored _ model identity labels properties others hmodel h =>
    have hread := modelOf_eq_ok.mpr hmodel
    simp only [readSource, hread]
    refine .inr ⟨⟨identity, labels, model, properties, false⟩, others, rfl, rfl,
      mem_of_modelOf hmodel, fun key hkey => ?_⟩
    rw [h key hkey]
    exact .refl

/-- Sources that are the same but for hidden keys make the same node. -/
theorem node_eq_of_entries {source : Source} {fields : List (String × NodeField)}
    (h : ∀ key, ¬ Hides source.model.properties key → EntrySame registry source.model key
      (KeyedList.get? source.entries key) (KeyedList.get? others key)) :
    source.node fields = Source.node { source with entries := others } fields := by
  have hshown : shown source.model.properties source.entries =
      shown source.model.properties others :=
    shown_congr fun p hp hvisible => (h p.name (not_hides_of_visible hp hvisible)).of_property hp
  simp only [Source.node, hshown]

/-- Values that say the same of a node but for hidden keys are loaded alike. -/
theorem node_eq_of_same {typed : Bool}
    (hmarkers : ∀ model ∈ registry.models ++ expected.toList, model.HidesNoMarker)
    (hapart : ∀ model ∈ registry.models ++ expected.toList, model.NodeKeysApart)
    (h : NodeSame registry expected value other) :
    Hydration.node registry levels typed expected value =
      Hydration.node registry levels typed expected other := by
  induction levels generalizing typed expected value other with
  | zero =>
    rw [Hydration.node, Hydration.node]
    rcases readSource_of_same hmarkers h with heq | ⟨source, others, hvalue, hother, -, h⟩
    · rw [heq]
    · rw [hvalue, hother]
      exact congrArg Except.ok (node_eq_of_entries h)
  | succ levels ih =>
    rw [Hydration.node, Hydration.node]
    rcases readSource_of_same hmarkers h with heq | ⟨source, others, hvalue, hother, hmem, h⟩
    · rw [heq]
    · -- The types of far nodes are registered, whatever was expected of this one.
      have hfar : ∀ typed target value other, (∀ model ∈ target, model ∈ registry.models) →
          NodeSame registry target value other →
          Hydration.node registry levels typed target value =
            Hydration.node registry levels typed target other := by
        intro typed target value other htarget
        have hloaded : ∀ model ∈ registry.models ++ target.toList,
            model ∈ registry.models ++ expected.toList := by
          intro model hmodel
          rcases List.mem_append.mp hmodel with hmodel | hmodel
          · exact List.mem_append_left _ hmodel
          · exact List.mem_append_left _ (htarget model (Option.mem_toList.mp hmodel))
        exact ih (fun model hmodel => hmarkers model (hloaded model hmodel))
          fun model hmodel => hapart model (hloaded model hmodel)
      have hfields : source.model.eager.mapM (readEager registry (Hydration.node registry levels)
            source) =
          source.model.eager.mapM (readEager registry (Hydration.node registry levels)
            { source with entries := others }) := by
        refine mapM_eq_of_forall₂ (List.forall₂_same.mpr fun rel hrel => ?_)
        refine readEager_eq_of_same hfar (hmarkers _ hmem) (hapart _ hmem) hrel (h rel.name ?_)
        exact fun hhides => source.model.keys_disjoint _
          (List.mem_map_of_mem (List.mem_of_mem_filter hrel)) hhides.1
      rw [hvalue, hother]
      simp only [bind, Except.bind, hfields, node_eq_of_entries h]

section

variable {limit : Nat} {var : String}
  (hmarkers : ∀ model ∈ registry.models ++ expected.toList, model.HidesNoMarker)
  (hapart : ∀ model ∈ registry.models ++ expected.toList, model.NodeKeysApart)

include hmarkers hapart

/-- Rows that say the same of a node but for hidden keys are loaded alike. -/
theorem ofRow_eq_of_same {row other : Row} (h : RowSame registry var expected row other) :
    Node.ofRow registry limit var expected row = Node.ofRow registry limit var expected other := by
  unfold RowSame at h
  unfold Node.ofRow
  generalize row.get? var = found at h
  generalize other.get? var = found' at h
  cases h with
  | none => rfl
  | @some value other h =>
    have hloaded : Hydration.node registry (Projection.levels limit 1) true expected value =
        Hydration.node registry (Projection.levels limit 1) true expected other :=
      node_eq_of_same hmarkers hapart h
    cases h with
    | refl => rfl
    | projected => exact congrArg (Except.map some) hloaded
    | stored => exact congrArg (Except.map some) hloaded

/-- Rows that say the same of their nodes but for hidden keys are loaded as equal nodes, all of them
and the first one alone, or refused for the same reason. -/
theorem ofRows_eq_of_same {rows others : List Row}
    (h : List.Forall₂ (RowSame registry var expected) rows others) :
    Node.ofRows registry limit var expected rows = Node.ofRows registry limit var expected others ∧
      Node.ofFirstRow registry limit var expected rows =
        Node.ofFirstRow registry limit var expected others := by
  have hrows : rows.mapM (Node.ofRow registry limit var expected) =
      others.mapM (Node.ofRow registry limit var expected) :=
    mapM_eq_of_forall₂ (h.imp fun _ _ => ofRow_eq_of_same hmarkers hapart)
  refine ⟨by simp only [Node.ofRows, hrows], ?_⟩
  cases h with
  | nil => rfl
  | cons hrow => exact ofRow_eq_of_same hmarkers hapart hrow

end

/-- A friend who has a secret. -/
def confidant (secret : String) : Value :=
  .map [(identityKey, .int 2), (labelsKey, .list [.string "Villager"]), ("secret", .string secret)]

/-- A villager who is friends with the confidant. -/
def confided (secret : String) : Value :=
  .map [(identityKey, .int 1), (labelsKey, .list [.string "Villager"]),
    ("friends", .list [.map [(identityKey, .int 5), ("node", confidant secret)]]), ("home", .null)]

/-- A row with the villager. -/
def confidedRow (secret : String) : Row := ⟨[("this", confided secret)]⟩

/-- Whatever the secret of the confidant is, two rows say the same where secrets are hidden. -/
theorem confidedRow_same (hlabels : registry.byLabels? ["Villager"] = some model)
    (hsecret : Hides model.properties "secret") (hrel : rel ∈ model.eager)
    (hname : rel.name = "friends") (hshape : rel.shape = .relationships)
    (hnodeKey : rel.nodeKey = "node") (htarget : registry.target rel = .ok (some model))
    (secret other : String) :
    RowSame registry "this" none (confidedRow secret) (confidedRow other) := by
  have hconfidant : NodeSame registry (some model) (confidant secret) (confidant other) := by
    refine .projected rfl fun key hkey => ?_
    have hother : "secret" ≠ key := by
      rintro rfl
      exact hkey hsecret
    simp only [KeyedList.get?, if_neg hother]
    exact .refl
  have hlink : LinkSame registry rel (some model)
      (.map [(identityKey, .int 5), ("node", confidant secret)])
      (.map [(identityKey, .int 5), ("node", confidant other)]) := by
    refine .projected (fun key hkey _ => ?_) ?_ ?_
    · rw [hnodeKey] at hkey
      simp only [KeyedList.get?, if_neg hkey.symm]
    · rw [hnodeKey]
      exact iff_of_false (Option.some_ne_none _) (Option.some_ne_none _)
    · rw [hnodeKey]
      rintro _ _ ⟨⟩ ⟨⟩
      exact hconfidant
  refine .some (.projected hlabels fun key _ => ?_)
  by_cases hkey : "friends" = key
  · subst hkey
    have hfound : FoundSame registry rel (some model)
        (.list [.map [(identityKey, .int 5), ("node", confidant secret)]])
        (.list [.map [(identityKey, .int 5), ("node", confidant other)]]) := by
      refine .relationships hshape rfl fun hmem => ?_
      obtain ⟨rfl, rfl⟩ : _ ∧ _ := by simpa using hmem
      exact hlink
    have hentry := EntrySame.eager hrel htarget hfound
    rwa [hname] at hentry
  · simp only [KeyedList.get?, if_neg hkey]
    exact .refl

/-- What is loaded of a villager with a confidant does not depend on the secret. -/
theorem confided_hidden :
    (∀ model ∈ village.models ++ [], model.HidesNoMarker) ∧
      (∀ model ∈ village.models ++ [], model.NodeKeysApart) ∧
      List.Forall₂ (RowSame village "this" none) [confidedRow "door"] [confidedRow "key"] ∧
      Node.ofRows village 1 "this" none [confidedRow "door"] =
        Node.ofRows village 1 "this" none [confidedRow "key"] := by
  have hmarkers : ∀ model ∈ village.models ++ [], model.HidesNoMarker := by decide
  have hapart : ∀ model ∈ village.models ++ [], model.NodeKeysApart := by decide
  have hrows : List.Forall₂ (RowSame village "this" none) [confidedRow "door"]
      [confidedRow "key"] :=
    .cons (confidedRow_same rfl (by decide) List.mem_cons_self rfl rfl rfl rfl "door" "key") .nil
  exact ⟨hmarkers, hapart, hrows, (ofRows_eq_of_same hmarkers hapart hrows).1⟩

/-- Friendships of gossips have a property with the name of the key for the far node. -/
def chatter : Relationship :=
  { friendship with properties := [{ name := "node", type := .any }] }

/-- Gossips are villagers with such friendships. -/
def gossip : EntityType where
  name := "Villager"
  labels := villager.labels
  properties := villager.properties
  relationships := [chatter, residence]
  labels_ne_nil := villager.labels_ne_nil
  labels_ascending := villager.labels_ascending
  properties_nodup := villager.properties_nodup
  relationships_nodup := by decide
  keys_disjoint := by decide
  primary_le_one := villager.primary_le_one

/-- The registry of gossips. -/
def gossips : Registry := ⟨[gossip], by decide⟩

/-- What is loaded of a gossip with a confidant: the friendship shows the confidant with the secret,
beside the loaded confidant without it. -/
def gossipNode (secret : String) : Node :=
  .mk 1 ["Villager"] gossip [] [
    ("friends", .relationships [.mk 5 "FRIEND_OF" "friends" "node"
      [("node", confidant secret)] 2 1 (.mk 2 ["Villager"] gossip [] [])]),
    ("home", .node none)]

/-- Where a visible property has the name of the key for the far node, two rows say the same but for
a hidden secret, and are loaded as nodes that tell it. -/
theorem gossip_shown :
    (∀ model ∈ gossips.models, model.HidesNoMarker) ∧
      (∀ rel ∈ gossip.eager, ¬ Hides rel.properties rel.nodeKey) ∧
      List.Forall₂ (RowSame gossips "this" none) [confidedRow "door"] [confidedRow "key"] ∧
      Node.ofRows gossips 1 "this" none [confidedRow "door"] ≠
        Node.ofRows gossips 1 "this" none [confidedRow "key"] := by
  refine ⟨by decide, by decide, .cons (confidedRow_same rfl (by decide) List.mem_cons_self rfl rfl
    rfl rfl "door" "key") .nil, ?_⟩
  have hdoor : Node.ofRows gossips 1 "this" none [confidedRow "door"] =
      .ok [gossipNode "door"] := by rfl
  have hkey : Node.ofRows gossips 1 "this" none [confidedRow "key"] = .ok [gossipNode "key"] := by
    rfl
  rw [hdoor, hkey]
  simp [gossipNode, confidant]

end GraphMapper

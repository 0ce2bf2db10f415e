import GraphMapper.Proofs.Attempt
import GraphMapper.Proofs.Schema.Declarations
import GraphMapper.Schema.Document

/-!
# What a registry holds

A registry is changed by calls: a type is registered, a registered type is extended, or a document
is loaded in its place. Whatever calls were made, each type in the registry was built from a draft
(`EntityDraft.Builds`), is found under its name, and what is derived from its declarations agrees
with them (`EntityType.Consistent`). A call that fails leaves the registry as it is, and one that
registers adds one type at the end (`registered_consistent`).

A type that is made from another one by declarations has those of its parent in their order, each
in its last version, and behind them the new ones (`EntityType.Extends`).
-/

namespace GraphMapper

/-! ## Types that are built -/

/-- What the type that a draft builds has of the draft. -/
structure EntityDraft.Builds (draft : EntityDraft) (model : EntityType) : Prop where
  name : model.name = draft.name
  properties : model.properties = draft.properties
  relationships : model.relationships = draft.relationships
  /-- A type that is given no label has its name for one. -/
  labels : ∀ label, label ∈ model.labels ↔
    label ∈ draft.labels ∨ draft.labels = [] ∧ label = draft.name

/-- The keys are those of the properties that satisfy a test, in the order of the declarations. -/
structure EntityType.ListsKeys (model : EntityType) (keys : List String) (test : Property → Prop) :
    Prop where
  sublist : keys.Sublist (model.properties.map Property.name)
  mem_iff : ∀ p ∈ model.properties, p.name ∈ keys ↔ test p

/-- What is derived from the declarations of a type agrees with them. -/
structure EntityType.Consistent (model : EntityType) : Prop where
  labels_ne_nil : model.labels ≠ []
  labels_ascending : model.labels.Pairwise (· < ·)
  disjoint : ∀ key, model.property? key = none ∨ model.relationship? key = none
  primary_unique : ∀ p ∈ model.properties, ∀ q ∈ model.properties, p.primary → q.primary → p = q
  primaryKey : ∀ key, model.primaryKey? = some key ↔
    ∃ p ∈ model.properties, p.primary ∧ p.name = key
  uniqueKeys : model.ListsKeys model.uniqueKeys fun p => p.unique ∧ ¬ p.primary
  indexedKeys : model.ListsKeys model.indexedKeys fun p => p.indexed
  hiddenKeys : model.ListsKeys model.hiddenKeys fun p => p.hidden
  readonlyKeys : model.ListsKeys model.readonlyKeys fun p => p.readonly
  mergeFields : model.mergeFields = model.primaryKey?.toList ++ model.uniqueKeys
  mergeFields_nodup : model.mergeFields.Nodup

section

variable {draft : EntityDraft} {model : EntityType}

/-- A draft that is built has at most one primary key and no key of two kinds, and what is built
from it has what it declares. -/
theorem EntityDraft.builds_of_build (h : draft.build = .ok model) : draft.Builds model := by
  have hlabels : ∀ label,
      label ∈ labelSet (if draft.labels = [] then [draft.name] else draft.labels) ↔
        label ∈ draft.labels ∨ draft.labels = [] ∧ label = draft.name := by
    intro label
    rw [mem_labelSet]
    split
    · next hnone => simp [hnone]
    · next hsome => simp [hsome]
  unfold EntityDraft.build at h
  split at h
  · cases h
  · split at h
    · cases h
    all_goals
      cases h
      exact ⟨rfl, rfl, rfl, hlabels⟩

namespace EntityType

/-- The keys of the properties that satisfy a test are listed in order. -/
theorem listsKeys_keysWhere (model : EntityType) {test : Property → Bool} {holds : Property → Prop}
    (h : ∀ p, test p = true ↔ holds p) : model.ListsKeys (model.keysWhere test) holds := by
  refine ⟨List.filter_sublist.map Property.name, fun p hp => ?_⟩
  rw [keysWhere, List.mem_map, ← h]
  constructor
  · rintro ⟨q, hq, hname⟩
    obtain ⟨hmem, htest⟩ := List.mem_filter.mp hq
    rwa [← eq_of_name_eq hmem hp hname]
  · exact fun htest => ⟨p, List.mem_filter.mpr ⟨hp, htest⟩, rfl⟩

/-- Of the declared properties at most one is primary. -/
theorem eq_of_primary {p q : Property} (hp : p ∈ model.properties) (hq : q ∈ model.properties)
    (hprimary : p.primary) (hother : q.primary) : p = q := by
  have hle := model.primary_le_one
  have hp' : p ∈ model.properties.filter (·.primary) := List.mem_filter.mpr ⟨hp, hprimary⟩
  have hq' : q ∈ model.properties.filter (·.primary) := List.mem_filter.mpr ⟨hq, hother⟩
  match hkeys : model.properties.filter (·.primary) with
  | [] =>
    rw [hkeys] at hp'
    cases hp'
  | [only] =>
    rw [hkeys, List.mem_singleton] at hp' hq'
    rw [hp', hq']
  | _ :: _ :: _ =>
    rw [hkeys] at hle
    simp at hle

/-- The primary key is the name of the primary property. -/
theorem primaryKey?_eq_some {key : String} :
    model.primaryKey? = some key ↔ ∃ p ∈ model.properties, p.primary ∧ p.name = key := by
  rw [primaryKey?, Option.map_eq_some_iff]
  constructor
  · rintro ⟨p, hp, hname⟩
    exact ⟨p, List.mem_of_find?_eq_some hp, List.find?_some hp, hname⟩
  · rintro ⟨p, hp, hprimary, hname⟩
    obtain ⟨q, hq⟩ := Option.isSome_iff_exists.mp
      (List.find?_isSome.mpr ⟨p, hp, hprimary⟩ : (model.properties.find? (·.primary)).isSome)
    have hsame := eq_of_primary hp (List.mem_of_find?_eq_some hq) hprimary (List.find?_some hq)
    exact ⟨q, hq, hsame ▸ hname⟩

/-- No merge field comes twice. -/
theorem mergeFields_nodup (model : EntityType) : model.mergeFields.Nodup := by
  have hunique : model.uniqueKeys.Nodup :=
    model.properties_nodup.sublist (List.filter_sublist.map Property.name)
  refine List.nodup_append.mpr ⟨?_, hunique, ?_⟩
  · cases model.primaryKey? <;> simp
  · rintro key hkey _ hother rfl
    -- The primary key is no unique key beside itself.
    obtain ⟨p, hp, hprimary, rfl⟩ := primaryKey?_eq_some.mp (Option.mem_toList.mp hkey)
    obtain ⟨q, hq, hname⟩ := List.mem_map.mp hother
    obtain ⟨hmem, htest⟩ := List.mem_filter.mp hq
    rw [eq_of_name_eq hmem hp hname, hprimary] at htest
    simp at htest

/-- What is derived from the declarations of a type agrees with them. -/
theorem consistent (model : EntityType) : model.Consistent where
  labels_ne_nil := model.labels_ne_nil
  labels_ascending := model.labels_ascending
  disjoint key := by
    cases hrel : model.relationship? key with
    | none => exact .inr rfl
    | some rel =>
      obtain ⟨hmem, hname⟩ := NamedList.of_find?_eq_some hrel
      have hkey := model.keys_disjoint key (hname ▸ List.mem_map_of_mem hmem)
      exact .inl (NamedList.find?_eq_none.mpr hkey)
  primary_unique _ hp _ hq := eq_of_primary hp hq
  primaryKey _ := primaryKey?_eq_some
  uniqueKeys := model.listsKeys_keysWhere fun p => by simp
  indexedKeys := model.listsKeys_keysWhere fun _ => Iff.rfl
  hiddenKeys := model.listsKeys_keysWhere fun _ => Iff.rfl
  readonlyKeys := model.listsKeys_keysWhere fun _ => Iff.rfl
  mergeFields := rfl
  mergeFields_nodup := model.mergeFields_nodup

end EntityType

end

/-! ## Types made from others -/

/-- A declaration that is added to a draft. -/
inductive Addition where
  | property (p : Property)
  | relationship (rel : Relationship)

namespace Addition

/-- The property that is declared. -/
def property? : Addition → Option Property
  | .property p => some p
  | .relationship _ => none

/-- The relationship that is declared. -/
def relationship? : Addition → Option Relationship
  | .property _ => none
  | .relationship rel => some rel

/-- Declares what is added. -/
def addTo (draft : EntityDraft) : Addition → EntityDraft
  | .property p => draft.property p
  | .relationship rel => draft.relationship rel

end Addition

/-- Declares several additions, one after the other. -/
def EntityDraft.declare (draft : EntityDraft) (additions : List Addition) : EntityDraft :=
  additions.foldl Addition.addTo draft

/-- A type has one more label than another one and, apart from what was declared anew or in
addition, the same declarations in the same order. -/
structure EntityType.Extends (parent : EntityType) (label : String) (additions : List Addition)
    (model : EntityType) : Prop where
  labels : ∀ other, other ∈ model.labels ↔ other ∈ parent.labels ∨ other = label
  propertyNames : model.properties.map Property.name =
    NamedList.followedBy (parent.properties.map Property.name)
      ((additions.filterMap Addition.property?).map Property.name)
  relationshipNames : model.relationships.map Relationship.name =
    NamedList.followedBy (parent.relationships.map Relationship.name)
      ((additions.filterMap Addition.relationship?).map Relationship.name)
  /-- Of several declarations of a name the last one counts. -/
  property : ∀ key, model.property? key =
    (NamedList.find? Property.name (additions.filterMap Addition.property?).reverse key).or
      (parent.property? key)
  relationship : ∀ key, model.relationship? key =
    (NamedList.find? Relationship.name (additions.filterMap Addition.relationship?).reverse key).or
      (parent.relationship? key)

section

variable {draft : EntityDraft} {parent model : EntityType} {name label : String}

/-- Declarations leave the name and the labels of a draft, and are put among its own. -/
theorem EntityDraft.declare_spec (draft : EntityDraft) (additions : List Addition) :
    (draft.declare additions).name = draft.name ∧ (draft.declare additions).labels = draft.labels ∧
      (draft.declare additions).properties = (additions.filterMap Addition.property?).foldl
        (fun kept p => NamedList.put Property.name p kept) draft.properties ∧
      (draft.declare additions).relationships = (additions.filterMap Addition.relationship?).foldl
        (fun kept rel => NamedList.put Relationship.name rel kept) draft.relationships := by
  induction additions generalizing draft with
  | nil => exact ⟨rfl, rfl, rfl, rfl⟩
  | cons addition rest ih => cases addition <;> exact ih _

/-- A type that is built from the draft of an extension, with additions, extends the parent. -/
theorem EntityType.extends_of_build {additions : List Addition}
    (h : ((parent.extend name label).declare additions).build = .ok model) :
    model.name = name ∧ parent.Extends label additions model := by
  have hbuilds := EntityDraft.builds_of_build h
  obtain ⟨hname, hlabels, hproperties, hrelationships⟩ :=
    (parent.extend name label).declare_spec additions
  rw [← hbuilds.properties] at hproperties
  rw [← hbuilds.relationships] at hrelationships
  refine ⟨hbuilds.name.trans hname, ?_⟩
  constructor
  case labels =>
    intro other
    rw [hbuilds.labels, hlabels]
    simp [EntityType.extend]
  case propertyNames =>
    rw [hproperties, NamedList.map_foldl_put]
    rfl
  case relationshipNames =>
    rw [hrelationships, NamedList.map_foldl_put]
    rfl
  case property =>
    intro key
    rw [EntityType.property?, hproperties, NamedList.find?_foldl_put]
    rfl
  case relationship =>
    intro key
    rw [EntityType.relationship?, hrelationships, NamedList.find?_foldl_put]
    rfl

end

/-! ## Registries that are reached by calls -/

/-- A change that is asked of a registry. -/
inductive RegistryCall where
  /-- A type is built and registered. -/
  | register (draft : EntityDraft)
  /-- A registered type is extended, and the type that is made of it registered. -/
  | extend (parent name label : String) (additions : EntityDraft → EntityDraft)
  /-- The registry of a document takes the place of the one that is there. -/
  | load (document : SchemaDocument)

namespace RegistryCall

/-- The registry that a call makes of another one. -/
def outcome (registry : Registry) : RegistryCall → Except SchemaError Registry
  | .register draft => do registry.register (← draft.build)
  | .extend parent name label additions => registry.extend parent name label additions
  | .load document => document.toRegistry

/-- The registry after a call. There is none but the one before if the call makes none. -/
def after (registry : Registry) (call : RegistryCall) : Registry :=
  match call.outcome registry with
  | .ok changed => changed
  | .error _ => registry

end RegistryCall

/-- The registry that calls make, one after the other, beginning with the empty one. -/
def Registry.reached (calls : List RegistryCall) : Registry :=
  calls.foldl RegistryCall.after .empty

/-- Every type in the registry was built from a draft. -/
def Registry.IsBuilt (registry : Registry) : Prop :=
  ∀ model ∈ registry.models, ∃ draft : EntityDraft, draft.build = .ok model

/-- A registry has one more type than another one, the last, under a name that was free. -/
structure Registry.Appends (registry : Registry) (model : EntityType) (changed : Registry) :
    Prop where
  free : registry.find? model.name = none
  models : changed.models = registry.models ++ [model]

section

variable {registry changed : Registry} {draft : EntityDraft} {model : EntityType}

/-- A type is registered behind the others, if none of them has its name. -/
theorem Registry.register_eq_ok :
    registry.register model = .ok changed ↔ registry.Appends model changed := by
  have hfree : registry.find? model.name = none ↔
      model.name ∉ registry.models.map EntityType.name := NamedList.find?_eq_none
  obtain ⟨models, hnodup⟩ := changed
  rw [Registry.register]
  split
  · next htaken =>
    exact iff_of_false nofun fun happends => hfree.mp happends.free htaken
  · next hnew =>
    rw [Except.ok.injEq, Registry.mk.injEq]
    exact ⟨fun h => ⟨hfree.mpr hnew, h.symm⟩, fun happends => happends.models.symm⟩

/-- What is registered was built before. -/
theorem Registry.IsBuilt.register (h : registry.IsBuilt) (hbuild : draft.build = .ok model)
    (hregister : registry.register model = .ok changed) : changed.IsBuilt := by
  intro other hother
  rw [(Registry.register_eq_ok.mp hregister).models] at hother
  rcases List.mem_append.mp hother with hother | hother
  · exact h other hother
  · exact ⟨draft, List.mem_singleton.mp hother ▸ hbuild⟩

/-- A registered type is extended by a type that is built and registered. -/
theorem Registry.extend_eq_ok {parent name label : String}
    {additions : EntityDraft → EntityDraft} :
    registry.extend parent name label additions = .ok changed ↔
      ∃ base model, registry.find? parent = some base ∧
        (additions (base.extend name label)).build = .ok model ∧
        registry.Appends model changed := by
  have hmodel : ∀ base, registry.model parent = .ok base ↔ registry.find? parent = some base := by
    intro base
    rw [Registry.model]
    cases registry.find? parent <;> simp
  rw [Registry.extend, bind_eq_ok]
  simp only [bind_eq_ok, hmodel, register_eq_ok, exists_and_left]

/-- A document is built model by model. -/
theorem ModelDocument.exists_draft_of_toEntityType {document : ModelDocument} {name : String}
    (h : document.toEntityType name = .ok model) :
    ∃ draft : EntityDraft, draft.build = .ok model := by
  obtain ⟨draft, -, hbuild⟩ := bind_eq_ok.mp h
  exact ⟨draft, hbuild⟩

/-- The registry of a document has types that are built. -/
theorem SchemaDocument.isBuilt_of_toRegistry {document : SchemaDocument}
    (h : document.toRegistry = .ok changed) : changed.IsBuilt := by
  refine holds_of_foldlM Registry.IsBuilt ?_ h fun _ hmem => nomatch hmem
  rintro ⟨name, model⟩ - before next hbefore hnext
  obtain ⟨built, hbuilt, hregister⟩ := bind_eq_ok.mp hnext
  obtain ⟨draft, hbuild⟩ := ModelDocument.exists_draft_of_toEntityType hbuilt
  exact hbefore.register hbuild hregister

/-- A call leaves a registry of types that are built. -/
theorem RegistryCall.isBuilt_after (h : registry.IsBuilt) (call : RegistryCall) :
    (call.after registry).IsBuilt := by
  unfold RegistryCall.after
  split
  · next changed hchanged =>
    cases call with
    | register draft =>
      obtain ⟨model, hbuild, hregister⟩ := bind_eq_ok.mp hchanged
      exact h.register hbuild hregister
    | extend parent name label additions =>
      obtain ⟨base, model, -, hbuild, happends⟩ := Registry.extend_eq_ok.mp hchanged
      exact h.register hbuild (Registry.register_eq_ok.mpr happends)
    | load document => exact SchemaDocument.isBuilt_of_toRegistry hchanged
  · exact h

/-- Whatever calls were made, the types in the registry are built. -/
theorem Registry.isBuilt_reached (calls : List RegistryCall) : (reached calls).IsBuilt := by
  suffices h : ∀ registry : Registry, registry.IsBuilt →
      (calls.foldl RegistryCall.after registry).IsBuilt from h .empty fun _ hmem => nomatch hmem
  induction calls with
  | nil => exact fun _ h => h
  | cons call rest ih => exact fun registry h => ih _ (RegistryCall.isBuilt_after h call)

end

/-- Whatever calls were made, each type in the registry is found under its name, was built from a
draft, and is consistent. A further call leaves the registry as it is if it fails. A type that is
registered, by itself or as the extension of a registered one, comes behind the others, and extends
the other one where it was made by declarations. -/
theorem registered_consistent (calls : List RegistryCall) :
    let registry := Registry.reached calls
    (∀ model ∈ registry.models, registry.find? model.name = some model ∧ model.Consistent ∧
      ∃ draft : EntityDraft, draft.build = .ok model ∧ draft.Builds model) ∧
    (∀ call e, RegistryCall.outcome registry call = .error e → call.after registry = registry) ∧
    (∀ draft changed, RegistryCall.outcome registry (.register draft) = .ok changed ↔
      ∃ model, draft.build = .ok model ∧ registry.Appends model changed) ∧
    (∀ parent name label additions changed,
      RegistryCall.outcome registry (.extend parent name label additions) = .ok changed ↔
      ∃ base model, registry.find? parent = some base ∧
        (additions (base.extend name label)).build = .ok model ∧
        registry.Appends model changed) ∧
    ∀ parent name label additions changed,
      RegistryCall.outcome registry (.extend parent name label (·.declare additions)) =
        .ok changed →
      ∃ base model, registry.find? parent = some base ∧ registry.Appends model changed ∧
        model.name = name ∧ base.Extends label additions model := by
  refine ⟨fun model hmodel => ?_, fun call e he => ?_, fun draft changed => ?_,
    fun parent name label additions changed => Registry.extend_eq_ok,
    fun parent name label additions changed hchanged => ?_⟩
  · obtain ⟨draft, hbuild⟩ := Registry.isBuilt_reached calls model hmodel
    exact ⟨NamedList.find?_of_mem (Registry.names_nodup _) hmodel, model.consistent, draft, hbuild,
      draft.builds_of_build hbuild⟩
  · rw [RegistryCall.after, he]
  · simp only [RegistryCall.outcome, bind_eq_ok, Registry.register_eq_ok]
  · have hextend : (Registry.reached calls).extend parent name label (·.declare additions) =
        .ok changed := hchanged
    obtain ⟨base, model, hbase, hbuild, happends⟩ := Registry.extend_eq_ok.mp hextend
    exact ⟨base, model, hbase, happends, EntityType.extends_of_build hbuild⟩

end GraphMapper

import GraphMapper.Hydration
import GraphMapper.Proofs.KeyedList
import GraphMapper.Proofs.Projection

/-!
# Hydration inverts the projection

What a projection returns can be loaded, and the loaded tree says what the value says: on every
level the identity, the labels, the properties that results show, the type of a relationship and its
ends, and in every eager field one entry for each value that was found, in the same order
(`Projection.Mirrors`). `ofValue_mirrors` says so of every value that has the shape of the
projection with the same limit.

Both recursions go down the levels of the projection. A node of unknown type is projected without
eager fields, and so the same steps that load its markers and properties load all of it.
-/

namespace GraphMapper

open Hydration

namespace NodeLink

/-- The identity of the relationship. -/
def identity : NodeLink → Identity
  | .mk identity _ _ _ _ _ _ _ => identity

/-- The type of the relationship in the database. -/
def type : NodeLink → String
  | .mk _ type _ _ _ _ _ _ => type

/-- The name of the declaration. -/
def name : NodeLink → String
  | .mk _ _ name _ _ _ _ _ => name

/-- The declared properties that the result showed. -/
def properties : NodeLink → Bag
  | .mk _ _ _ _ properties _ _ _ => properties

/-- The nodes that the relationship goes from and to. -/
def ends : NodeLink → Identity × Identity
  | .mk _ _ _ _ _ startNode endNode _ => (startNode, endNode)

end NodeLink

/-- A bag has what the entries have under the names of declared properties that are not hidden, and
nothing else. -/
def Shows (properties : List Property) (entries bag : Bag) : Prop :=
  bag.Ascending ∧ ∀ key, KeyedList.get? bag key =
    if key ∈ (properties.filter fun p => !p.hidden).map Property.name then
      KeyedList.get? entries key
    else none

/-- A loaded node has the markers and the shown properties of the entries it was loaded from, and
the type that was expected or else that of its labels. -/
structure NodeMirrors (registry : Registry) (model : Option EntityType) (entries : Bag)
    (node : Node) : Prop where
  identity : HasIdentity entries node.identity
  labels : HasLabels entries node.labels
  model : model = some node.model ∨ model = none ∧ registry.byLabels? node.labels = some node.model
  properties : Shows node.model.properties entries node.properties

/-- A loaded relationship has the markers and the shown properties of the entries it was loaded
from, and lies between the node it was loaded with and its far node as its declaration says. -/
structure LinkMirrors (rel : Relationship) (subject : Identity) (entries : Bag)
    (link : NodeLink) : Prop where
  identity : HasIdentity entries link.identity
  type : HasType entries link.type
  name : link.name = rel.name
  properties : Shows rel.properties entries link.properties
  ends : link.ends = if rel.direction = .incoming then (link.other.identity, subject)
    else (subject, link.other.identity)

/-- A loaded field of a shape has what was found: nothing for null, and otherwise the nodes or the
relationships of the values, in their order. -/
inductive FoundMirrors (node : Value → Node → Prop) (link : Value → NodeLink → Prop) :
    Shape → Value → NodeField → Prop
  | noNode : FoundMirrors node link .node .null (.node none)
  | oneNode {value : Value} {loaded : Node} (h : node value loaded) :
    FoundMirrors node link .node value (.node (some loaded))
  | nodes {items : List Value} {loaded : List Node} (h : List.Forall₂ node items loaded) :
    FoundMirrors node link .nodes (.list items) (.nodes loaded)
  | noRelationship : FoundMirrors node link .relationship .null (.relationship none)
  | oneRelationship {value : Value} {loaded : NodeLink} (h : link value loaded) :
    FoundMirrors node link .relationship value (.relationship (some loaded))
  | relationships {items : List Value} {loaded : List NodeLink}
      (h : List.Forall₂ link items loaded) :
    FoundMirrors node link .relationships (.list items) (.relationships loaded)

mutual

/-- A loaded node mirrors a value that has the shape of the projection of a node: it has one entry
for every eager field of the projection. -/
def Projection.Mirrors (registry : Registry) :
    Projection → Option EntityType → Value → Node → Prop
  | .node _ _ fields, model, value, node =>
    ∃ entries, value = .map entries ∧ NodeMirrors registry model entries node ∧
      (KeyedList.keys node.fields).Perm (fields.map EagerField.name) ∧
      FieldsMirror registry fields entries node
  | .relationship _ _ _ _, _, _, _ => False

/-- A loaded relationship mirrors a value that has the shape of the projection of one. -/
def Projection.MirrorsLink (registry : Registry) :
    Projection → Relationship → Option EntityType → Identity → Value → NodeLink → Prop
  | .relationship _ _ nodeKey far, rel, target, subject, value, link =>
    ∃ entries node, value = .map entries ∧ LinkMirrors rel subject entries link ∧
      KeyedList.get? entries nodeKey = some node ∧ far.Mirrors registry target node link.other
  | .node _ _ _, _, _, _, _, _ => False

/-- The entry of a loaded node for an eager field mirrors what is found under the name of it. -/
def EagerField.Mirrors (registry : Registry) : EagerField → Bag → Node → Prop
  | .mk name _ _ projection, entries, node =>
    ∃ rel target value found, rel ∈ node.model.eager ∧ rel.name = name ∧
      registry.target rel = .ok target ∧ KeyedList.get? entries name = some value ∧
      KeyedList.get? node.fields name = some found ∧
      FoundMirrors (projection.Mirrors registry target)
        (projection.MirrorsLink registry rel target node.identity) rel.shape value found

/-- The entries of a loaded node for eager fields mirror what is found under the names of them. -/
def FieldsMirror (registry : Registry) : List EagerField → Bag → Node → Prop
  | [], _, _ => True
  | field :: rest, entries, node =>
    field.Mirrors registry entries node ∧ FieldsMirror registry rest entries node

end

/-- What is kept of the entries shows the declared properties that are not hidden. -/
theorem shown_shows (properties : List Property) (entries : Bag) :
    Shows properties entries (shown properties entries) := by
  refine ⟨KeyedList.ofPairs_ascending _, fun key => ?_⟩
  unfold shown
  rw [@KeyedList.get?_ofPairs _ _ (KeyedList.get? entries)]
  · cases hvalue : KeyedList.get? entries key with
    | none => simp
    | some value =>
      -- Where the entries have a value, the pairs have the key if it is declared and not hidden.
      have hiff : key ∈ KeyedList.keys ((properties.filter fun p => !p.hidden).filterMap fun p =>
          (KeyedList.get? entries p.name).map fun value => (p.name, value)) ↔
          key ∈ (properties.filter fun p => !p.hidden).map Property.name := by
        simp only [KeyedList.keys, List.mem_map, List.mem_filterMap, Option.map_eq_some_iff]
        constructor
        · rintro ⟨_, ⟨p, hp, _, -, rfl⟩, rfl⟩
          exact ⟨p, hp, rfl⟩
        · rintro ⟨p, hp, rfl⟩
          exact ⟨(p.name, value), ⟨p, hp, value, hvalue, rfl⟩, rfl⟩
      simp only [hiff]
  · intro pair hpair
    obtain ⟨p, -, hp⟩ := List.mem_filterMap.mp hpair
    obtain ⟨value, hvalue, rfl⟩ := Option.map_eq_some_iff.mp hp
    exact hvalue

variable {registry : Registry} {levels : Nat} {model target : Option EntityType}
  {rel : Relationship} {entries : Bag}

/-- The labels under their marker are read back. -/
theorem projectedLabels_of_hasLabels {labels : List String} (h : HasLabels entries labels) :
    projectedLabels entries = labels := by
  unfold HasLabels at h
  simp only [projectedLabels, h, List.filterMap_map]
  exact List.filterMap_some

/-- The identity under its marker is read back. -/
theorem projectedIdentity_of_hasIdentity {identity : Identity} (h : HasIdentity entries identity)
    (context : String) : projectedIdentity entries context = .ok identity := by
  unfold HasIdentity at h
  simp [projectedIdentity, h, Value.identity?]

/-- A type is found if it was expected, or else if the labels have one. -/
theorem modelOf_eq_ok {expected : Option EntityType} {labels : List String} {model : EntityType} :
    modelOf registry expected labels = .ok model ↔
      expected.or (registry.byLabels? labels) = some model := by
  cases expected with
  | some known => simp [modelOf]
  | none => cases hlabels : registry.byLabels? labels <;> simp [modelOf, hlabels]

/-- What is projected of a node is read, and the node that is made of it mirrors it, whatever fields
it is given. -/
theorem exists_readSource {properties : Option (List String)}
    (hshaped : NodeShaped registry properties entries) (hknown : model = none → properties = none) :
    ∃ source, readSource registry model (.map entries) = .ok source ∧ source.entries = entries ∧
      source.projected = true ∧ (∀ known, model = some known → source.model = known) ∧
      ∀ fields, NodeMirrors registry model entries (source.node fields) := by
  obtain ⟨⟨identity, hidentity⟩, labels, hlabels, hproperties⟩ := hshaped
  have hread := projectedIdentity_of_hasIdentity hidentity
    ((model.map EntityType.name).getD "node")
  cases model with
  | some known =>
    refine ⟨⟨identity, labels, known, entries, true⟩, ?_, rfl, rfl, ?_, fun fields => ?_⟩
    · simp only [readSource, hread, projectedLabels_of_hasLabels hlabels, modelOf]
      rfl
    · rintro _ ⟨⟩
      rfl
    · exact ⟨hidentity, hlabels, .inl rfl, shown_shows _ _⟩
  | none =>
    obtain rfl := hknown rfl
    obtain ⟨known, hfound⟩ := Option.isSome_iff_exists.mp hproperties
    refine ⟨⟨identity, labels, known, entries, true⟩, ?_, rfl, rfl, ?_, fun fields => ?_⟩
    · simp only [readSource, hread, projectedLabels_of_hasLabels hlabels, modelOf, hfound]
      rfl
    · rintro _ ⟨⟩
    · exact ⟨hidentity, hlabels, .inr ⟨rfl, hfound⟩, shown_shows _ _⟩

/-- What has the shape of a projection is not null. -/
theorem Projection.Shaped.isNull {projection : Projection} {value : Value}
    (h : projection.Shaped registry value) : value.isNull = false := by
  cases projection <;> obtain ⟨entries, h⟩ := h
  · rw [h.1]
    rfl
  · obtain ⟨node, rfl, -⟩ := h
    rfl

section

variable {readFar : Value → Except HydrationError Node} {node : Projection} {subject : Identity}
  (hfar : ∀ value, node.Shaped registry value →
    ∃ loaded, readFar value = .ok loaded ∧ node.Mirrors registry target value loaded)

include hfar

/-- What is projected of a relationship is loaded, if its far node is. -/
theorem exists_readLink {relVar : String} {names : List String} {value : Value}
    (hshaped : (Projection.relationship relVar names rel.nodeKey node).Shaped registry value) :
    ∃ link, readLink readFar rel subject value = .ok link ∧
      (Projection.relationship relVar names rel.nodeKey node).MirrorsLink registry rel target
        subject value link := by
  obtain ⟨entries, farValue, rfl, ⟨⟨identity, hidentity⟩, ⟨type, htype⟩, -⟩, hget, hnode⟩ := hshaped
  obtain ⟨other, hread, hmirrors⟩ := hfar farValue hnode
  have htype' : KeyedList.get? entries typeKey = some (.string type) := htype
  refine ⟨.mk identity type rel.name rel.nodeKey (shown rel.properties entries)
    (if rel.direction = .incoming then other.identity else subject)
    (if rel.direction = .incoming then subject else other.identity) other, ?_, ?_⟩
  · simp only [readLink, projectedIdentity_of_hasIdentity hidentity, hget, hread, htype']
    by_cases hdirection : rel.direction = .incoming
    · simp [hdirection, Value.string?, bind, Except.bind, pure, Except.pure]
    · simp [hdirection, Value.string?, bind, Except.bind, pure, Except.pure]
  · refine ⟨entries, farValue, rfl, ⟨hidentity, htype, rfl, shown_shows _ _, ?_⟩, hget, hmirrors⟩
    simp only [NodeLink.ends, NodeLink.other]
    split <;> rfl

/-- What is found along the path of a field is loaded, if the far nodes are. -/
theorem exists_readField {owner : EntityType} {relVar : String} {value : Value}
    (hshaped : FoundShaped ((Projection.far rel relVar node).Shaped registry)
      (!rel.shape.isCollection) value) :
    ∃ found, readField readFar owner rel subject value = .ok found ∧
      FoundMirrors ((Projection.far rel relVar node).Mirrors registry target)
        ((Projection.far rel relVar node).MirrorsLink registry rel target subject) rel.shape value
        found := by
  cases hshape : rel.shape with
  | node =>
    rw [Projection.far_of_not_isRelationship (by rw [hshape]; rfl)] at hshaped ⊢
    rw [hshape] at hshaped
    rcases foundShaped_true.mp hshaped with rfl | hvalue
    · exact ⟨.node none, by simp [readField, hshape, Value.isNull, pure, Except.pure], .noNode⟩
    · obtain ⟨loaded, hread, hmirrors⟩ := hfar value hvalue
      refine ⟨.node (some loaded), ?_, .oneNode hmirrors⟩
      simp [readField, hshape, hvalue.isNull, hread, bind, Except.bind, pure, Except.pure]
  | nodes =>
    rw [Projection.far_of_not_isRelationship (by rw [hshape]; rfl)] at hshaped ⊢
    rw [hshape] at hshaped
    obtain ⟨items, rfl, hitems⟩ := foundShaped_false.mp hshaped
    obtain ⟨loaded, hread, hmirrors⟩ :=
      exists_mapM_eq_ok fun item hitem => hfar item (hitems item hitem)
    refine ⟨.nodes loaded, ?_, .nodes hmirrors⟩
    simp [readField, hshape, listItems, hread, bind, Except.bind, pure, Except.pure]
  | relationship =>
    rw [Projection.far_of_isRelationship (by rw [hshape]; rfl)] at hshaped ⊢
    rw [hshape] at hshaped
    rcases foundShaped_true.mp hshaped with rfl | hvalue
    · exact ⟨.relationship none, by simp [readField, hshape, Value.isNull, pure, Except.pure],
        .noRelationship⟩
    · obtain ⟨loaded, hread, hmirrors⟩ := exists_readLink hfar hvalue
      refine ⟨.relationship (some loaded), ?_, .oneRelationship hmirrors⟩
      simp [readField, hshape, hvalue.isNull, hread, bind, Except.bind, pure, Except.pure]
  | relationships =>
    rw [Projection.far_of_isRelationship (by rw [hshape]; rfl)] at hshaped ⊢
    rw [hshape] at hshaped
    obtain ⟨items, rfl, hitems⟩ := foundShaped_false.mp hshaped
    obtain ⟨loaded, hread, hmirrors⟩ :=
      exists_mapM_eq_ok fun item hitem => exists_readLink hfar (hitems item hitem)
    refine ⟨.relationships loaded, ?_, .relationships hmirrors⟩
    simp [readField, hshape, listItems, hread, bind, Except.bind, pure, Except.pure]

end

/-- Values that have the shape of a projection of so many levels are loaded, and mirrored. -/
def InvertsProjection (registry : Registry) (levels : Nat) : Prop :=
  ∀ {var : String} {model : Option EntityType} {projection : Projection} {value : Value},
    Projection.ofModel registry levels var model = .ok projection →
    projection.Shaped registry value →
    ∃ loaded, Hydration.node registry levels model.isSome model value = .ok loaded ∧
      projection.Mirrors registry model value loaded

/-- An eager field of a source is loaded, with what is found under its name. -/
theorem exists_readEager (ih : InvertsProjection registry levels) {var : String}
    {owner : EntityType} {source : Source} {field : EagerField}
    (hfield : Projection.eagerField registry (Projection.ofModel registry levels) var owner rel =
      .ok field)
    (hshaped : field.Shaped registry source.entries) (hrel : rel ∈ source.model.eager) :
    ∃ entry, readEager registry (Hydration.node registry levels) source rel = .ok entry ∧
      entry.1 = field.name ∧
      ∀ loaded : Node, loaded.model = source.model → loaded.identity = source.identity →
        KeyedList.get? loaded.fields entry.1 = some entry.2 →
        field.Mirrors registry source.entries loaded := by
  obtain ⟨target, node, htarget, hnode, rfl⟩ := Projection.eagerField_eq_ok.mp hfield
  obtain ⟨value, hget, hfound⟩ := hshaped
  obtain ⟨found, hread, hmirrors⟩ :=
    @exists_readField registry target rel _ node source.identity (fun value => ih hnode)
      source.model _ value hfound
  refine ⟨(rel.name, found), ?_, rfl, ?_⟩
  · simp [readEager, hget, htarget, hread, bind, Except.bind, pure, Except.pure]
  · intro loaded hmodel hidentity hentry
    refine ⟨rel, target, value, found, hmodel ▸ hrel, rfl, htarget, hget, hentry, ?_⟩
    rw [hidentity]
    exact hmirrors

/-- The eager fields of a source are loaded, one for each field of the projection. -/
theorem exists_readEagers (ih : InvertsProjection registry levels) {var : String}
    {owner : EntityType} {source : Source} {rels : List Relationship} {fields : List EagerField}
    (hfields : List.Forall₂ (fun rel field => Projection.eagerField registry
      (Projection.ofModel registry levels) var owner rel = .ok field) rels fields)
    (hshaped : FieldsShaped registry fields source.entries) (hrels : rels ⊆ source.model.eager) :
    ∃ entries,
      rels.mapM (readEager registry (Hydration.node registry levels) source) = .ok entries ∧
      KeyedList.keys entries = fields.map EagerField.name ∧
      ∀ loaded : Node, loaded.model = source.model → loaded.identity = source.identity →
        (∀ entry ∈ entries, KeyedList.get? loaded.fields entry.1 = some entry.2) →
        FieldsMirror registry fields source.entries loaded := by
  induction hfields with
  | nil => exact ⟨[], by simp [pure, Except.pure], rfl, fun _ _ _ _ => trivial⟩
  | @cons rel field rels fields hfield _ ihrest =>
    obtain ⟨entry, hentry, hname, hmirrors⟩ :=
      exists_readEager ih hfield hshaped.1 (hrels List.mem_cons_self)
    obtain ⟨entries, hentries, hnames, hrest⟩ :=
      ihrest hshaped.2 fun rel hmem => hrels (List.mem_cons_of_mem _ hmem)
    refine ⟨entry :: entries, mapM_eq_ok.mpr (.cons hentry (mapM_eq_ok.mp hentries)), ?_, ?_⟩
    · rw [List.map_cons, ← hnames, ← hname]
      rfl
    · intro loaded hmodel hidentity hheld
      exact ⟨hmirrors loaded hmodel hidentity (hheld entry List.mem_cons_self),
        hrest loaded hmodel hidentity fun entry hmem => hheld entry (List.mem_cons_of_mem _ hmem)⟩

/-- The fields of a projection have the names of the relationships. -/
theorem names_of_fields {owner : EntityType} {var : String} {rels : List Relationship}
    {fields : List EagerField}
    (hfields : List.Forall₂ (fun rel field => Projection.eagerField registry
      (Projection.ofModel registry levels) var owner rel = .ok field) rels fields) :
    fields.map EagerField.name = rels.map Relationship.name := by
  induction hfields with
  | nil => rfl
  | cons hfield _ ih =>
    obtain ⟨target, node, -, -, rfl⟩ := Projection.eagerField_eq_ok.mp hfield
    rw [List.map_cons, List.map_cons, ih]
    rfl

/-- The fields of the projection of a type have names of relationships that it declares, in their
order. -/
theorem names_sublist {owner : EntityType} {var : String} {fields : List EagerField}
    (hfields : List.Forall₂ (fun rel field => Projection.eagerField registry
      (Projection.ofModel registry levels) var owner rel = .ok field) owner.eager fields) :
    (fields.map EagerField.name).Sublist (owner.relationships.map Relationship.name) := by
  rw [names_of_fields hfields]
  exact List.filter_sublist.map _

/-- What is projected of a node without fields is loaded and mirrored without any, on the last level
and wherever the type was not known. -/
theorem exists_leaf {var : String} {properties : Option (List String)} {value : Value}
    {typed : Bool}
    (hshaped : (Projection.node var properties []).Shaped registry value)
    (hknown : model = none → properties = none) (hleaf : levels = 0 ∨ typed = false) :
    ∃ loaded, Hydration.node registry levels typed model value = .ok loaded ∧
      (Projection.node var properties []).Mirrors registry model value loaded := by
  obtain ⟨entries, rfl, hnode, -⟩ := hshaped
  obtain ⟨source, hread, -, -, -, hmirrors⟩ := exists_readSource hnode hknown
  refine ⟨source.node [], ?_, entries, rfl, hmirrors [], .nil, trivial⟩
  rcases hleaf with rfl | rfl
  · simp [Hydration.node, hread, bind, Except.bind, pure, Except.pure]
  · cases levels <;> simp [Hydration.node, hread, bind, Except.bind, pure, Except.pure]

/-- Whatever has the shape of a projection is loaded, and mirrored. -/
theorem inverts_projection : InvertsProjection registry levels := by
  -- Far nodes are projected and loaded for one level less, and without type for none at all.
  induction levels with
  | zero =>
    intro var model projection value hprojection hshaped
    cases model with
    | none =>
      cases hprojection
      exact exists_leaf hshaped (fun _ => rfl) (.inl rfl)
    | some known =>
      cases hprojection
      exact exists_leaf hshaped (fun h => absurd h (by simp)) (.inl rfl)
  | succ levels ih =>
    intro var model projection value hprojection hshaped
    cases model with
    | none =>
      cases hprojection
      exact exists_leaf hshaped (fun _ => rfl) (.inr rfl)
    | some known =>
      obtain ⟨fields, hfields, rfl⟩ := Projection.ofModel_succ_eq_ok.mp hprojection
      obtain ⟨entries, rfl, hnode, hfieldsShaped⟩ := hshaped
      obtain ⟨source, hread, rfl, hprojected, hmodel, hmirrors⟩ :=
        @exists_readSource registry (some known) entries _ hnode (fun h => absurd h (by simp))
      obtain rfl := hmodel known rfl
      obtain ⟨loaded, hloaded, hnames, hfieldsMirror⟩ :=
        exists_readEagers ih hfields hfieldsShaped (List.Subset.refl _)
      -- The names of the fields are distinct, so that sorting loses no entry.
      have hnodup : (KeyedList.keys loaded).Nodup :=
        hnames ▸ source.model.relationships_nodup.sublist (names_sublist hfields)
      refine ⟨source.node loaded, ?_, source.entries, rfl, hmirrors loaded, ?_, ?_⟩
      · simp [Hydration.node, hread, hprojected, hloaded, bind, Except.bind, pure, Except.pure]
      · rw [← hnames]
        exact (KeyedList.ofPairs_perm hnodup).map Prod.fst
      · exact hfieldsMirror _ rfl rfl fun entry hentry =>
          KeyedList.get?_ofPairs_of_mem hnodup hentry

/-- Whatever has the shape of the projection of a type is loaded as a node of that type under the
same limit, and the loaded node mirrors it. -/
theorem ofValue_mirrors {limit : Nat} {var : String} {model : EntityType} {projection : Projection}
    {value : Value}
    (hprojection : Projection.ofModel registry (Projection.levels limit 1) var (some model) =
      .ok projection)
    (hshaped : projection.Shaped registry value) :
    ∃ loaded, Node.ofValue registry limit 1 (some model) value = .ok loaded ∧
      projection.Mirrors registry (some model) value loaded :=
  inverts_projection hprojection hshaped

/-- Villagers have friends among each other. -/
def friendship : Relationship where
  name := "friends"
  shape := .relationships
  type := "FRIEND_OF"
  direction := .incoming
  target := .model "Villager"
  eager := true
  properties := [{ name := "since", type := .integer }]

/-- Villagers live in a house, or somewhere else. -/
def residence : Relationship where
  name := "home"
  shape := .node
  type := "LIVES_IN"
  direction := .outgoing
  target := .any
  eager := true

/-- Villagers have a secret that no result shows. -/
def villager : EntityType where
  name := "Villager"
  labels := ["Villager"]
  properties := [Property.asPrimary { name := "name", type := .string },
    { name := "secret", type := .string, hidden := true }]
  relationships := [friendship, residence]
  labels_ne_nil := by decide
  labels_ascending := by decide
  properties_nodup := by decide
  relationships_nodup := by decide
  keys_disjoint := by decide
  primary_le_one := by decide

/-- The registry of villagers. -/
def village : Registry := ⟨[villager], by decide⟩

/-- A villager is projected with friends and home, and these without their own. -/
def villagerProjection : Projection :=
  .node "this" (some ["name"]) [
    .mk "friends"
      (Projection.path "this" "this_friends_rel" "this_friends_node" friendship ["Villager"]) false
      (.relationship "this_friends_rel" ["since"] "node"
        (.node "this_friends_node" (some ["name"]) [])),
    .mk "home" (Projection.path "this" "this_home_rel" "this_home_node" residence []) true
      (.node "this_home_node" none [])]

/-- A villager who has one friend and no home. -/
def homeless : Value :=
  .map [(identityKey, .int 1), (labelsKey, .list [.string "Villager"]),
    ("friends", .list [.map [(identityKey, .int 5), (typeKey, .string "FRIEND_OF"),
      ("node", .map [(identityKey, .int 2), (labelsKey, .list [.string "Villager"]),
        ("name", .string "Bob")]),
      ("since", .null)]]),
    ("home", .null), ("name", .string "Ann")]

/-- The villager has the shape of the projection. -/
theorem homeless_shaped : villagerProjection.Shaped village homeless := by
  have hfriend : (Projection.node "this_friends_node" (some ["name"]) []).Shaped village
      (.map [(identityKey, .int 2), (labelsKey, .list [.string "Villager"]),
        ("name", .string "Bob")]) :=
    ⟨_, rfl, ⟨⟨2, rfl⟩, ["Villager"], rfl, show HasKeys _ ["name"] by decide⟩, trivial⟩
  refine ⟨_, rfl, ⟨⟨1, rfl⟩, ["Villager"], rfl, show HasKeys _ ["name"] by decide⟩,
    ⟨_, rfl, _, rfl, ?_⟩, ⟨.null, rfl, .inl rfl⟩, trivial⟩
  intro item hitem
  obtain rfl := List.mem_singleton.mp hitem
  exact ⟨_, _, rfl, ⟨⟨5, rfl⟩, ⟨"FRIEND_OF", rfl⟩, by decide⟩, rfl, hfriend⟩

/-- A villager who has one friend and no home is loaded with the friend and without a home. -/
theorem homeless_mirrors :
    Projection.ofModel village (Projection.levels 1 1) "this" (some villager) =
        .ok villagerProjection ∧
      villagerProjection.Shaped village homeless ∧
      ∃ loaded, Node.ofValue village 1 1 (some villager) homeless = .ok loaded ∧
        villagerProjection.Mirrors village (some villager) homeless loaded :=
  have hprojection : Projection.ofModel village (Projection.levels 1 1) "this" (some villager) =
      .ok villagerProjection := rfl
  ⟨hprojection, homeless_shaped, ofValue_mirrors hprojection homeless_shaped⟩

end GraphMapper

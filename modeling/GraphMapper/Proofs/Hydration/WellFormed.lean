import GraphMapper.Proofs.Hydration

/-!
# Loaded nodes are well formed

A value need not come from a projection to be loaded. It may lack labels, have entries that nothing
declares, and mix projected nodes with nodes as the database hands them out, on any level. Whatever
it is, a node that is loaded from it says no more than its types declare: `LoadedFrom` is what holds
of every level of the loaded tree, and `ofValue_loadedFrom` says that it holds of every tree that is
loaded at all, which has no more levels than the limit allows.

`LoadedFrom` goes down the levels by their depth, counted from one, as the limit does, and what it
asks of a field it asks by the relation `FoundMirrors`: the variant is that of the declared shape,
and there is one entry for every item that was found.
-/

namespace GraphMapper

open Hydration

namespace Node

mutual

/-- The number of levels of nodes, of which the node is the first. -/
def height : Node → Nat
  | .mk _ _ _ _ fields => fieldsHeight fields + 1

/-- The number of levels below eager fields. -/
def fieldsHeight : List (String × NodeField) → Nat
  | [] => 0
  | (_, field) :: rest => max (fieldHeight field) (fieldsHeight rest)

/-- The number of levels below one eager field. -/
def fieldHeight : NodeField → Nat
  | .node none => 0
  | .node (some node) => node.height
  | .nodes items => nodesHeight items
  | .relationship none => 0
  | .relationship (some link) => linkHeight link
  | .relationships items => linksHeight items

/-- The number of levels that some nodes have at most. -/
def nodesHeight : List Node → Nat
  | [] => 0
  | node :: rest => max node.height (nodesHeight rest)

/-- The number of levels behind a relationship. -/
def linkHeight : NodeLink → Nat
  | .mk _ _ _ _ _ _ _ other => other.height

/-- The number of levels that there are at most behind some relationships. -/
def linksHeight : List NodeLink → Nat
  | [] => 0
  | link :: rest => max (linkHeight link) (linksHeight rest)

end

end Node

/-- A value says of a node that it has this identity, these labels and these entries, and is
projected or not. -/
inductive Describes : Value → Identity → List String → Bag → Bool → Prop
  | projected {entries : Bag} {identity : Identity}
      (h : (KeyedList.get? entries identityKey).bind Value.identity? = some identity) :
    Describes (.map entries) identity (projectedLabels entries) entries true
  | stored {identity : Identity} {labels : List String} {properties : Bag} :
    Describes (.node identity labels properties) identity labels properties false

/-- A relationship was loaded from a value: it shows what its declaration declares, and lies between
the node it was loaded with and its far node, which is what is found under the key for it. -/
structure LinkLoadedFrom (far : Value → Node → Prop) (rel : Relationship) (subject : Identity)
    (value : Value) (link : NodeLink) : Prop where
  name : link.name = rel.name
  read : ∃ entries farValue, value = .map entries ∧
    (KeyedList.get? entries identityKey).bind Value.identity? = some link.identity ∧
    Shows rel.properties entries link.properties ∧
    KeyedList.get? entries rel.nodeKey = some farValue ∧ far farValue link.other
  ends : link.ends = if rel.direction = .incoming then (link.other.identity, subject)
    else (subject, link.other.identity)

/-- A node was loaded from a value at some depth, with its type as it was expected or else as its
labels give it, and so were the nodes behind its eager fields. It shows what its type declares. It
has all eager fields of its type if it was projected with a known type and the limit allows them,
and otherwise it has none. -/
def LoadedFrom (registry : Registry) (limit depth : Nat) (typed : Bool)
    (expected : Option EntityType) (value : Value) (node : Node) : Prop :=
  ∃ entries projected, Describes value node.identity node.labels entries projected ∧
    expected.or (registry.byLabels? node.labels) = some node.model ∧
    Shows node.model.properties entries node.properties ∧
    if _h : projected ∧ typed ∧ depth ≤ limit then
      (KeyedList.keys node.fields).Perm (node.model.eager.map Relationship.name) ∧
      ∀ rel ∈ node.model.eager, ∃ target found loaded, registry.target rel = .ok target ∧
        KeyedList.get? entries rel.name = some found ∧
        KeyedList.get? node.fields rel.name = some loaded ∧
        FoundMirrors (LoadedFrom registry limit (depth + 1) target.isSome target)
          (LinkLoadedFrom (LoadedFrom registry limit (depth + 1) target.isSome target) rel
            node.identity) rel.shape found loaded
    else node.fields = []
termination_by limit + 1 - depth

variable {registry : Registry} {limit depth levels bound : Nat} {typed : Bool}
  {expected : Option EntityType} {rel : Relationship} {subject : Identity} {value : Value}
  {node : Node}

/-- An identity is read where there is one under the marker. -/
theorem projectedIdentity_eq_ok {entries : Bag} {context : String} {identity : Identity} :
    projectedIdentity entries context = .ok identity ↔
      (KeyedList.get? entries identityKey).bind Value.identity? = some identity := by
  unfold projectedIdentity
  split
  case h_1 found hfound => simp [hfound]
  case h_2 hnone => simp [hnone]

/-- What is read of a node is what the value says of it, with its type. -/
theorem describes_of_readSource {source : Source}
    (h : readSource registry expected value = .ok source) :
    Describes value source.identity source.labels source.entries source.projected ∧
      expected.or (registry.byLabels? source.labels) = some source.model := by
  unfold readSource at h
  split at h
  case h_1 entries =>
    obtain ⟨identity, hidentity, h⟩ := bind_eq_ok.mp h
    obtain ⟨model, hmodel, h⟩ := bind_eq_ok.mp h
    cases h
    exact ⟨.projected (projectedIdentity_eq_ok.mp hidentity), modelOf_eq_ok.mp hmodel⟩
  case h_2 identity labels properties =>
    obtain ⟨model, hmodel, h⟩ := bind_eq_ok.mp h
    cases h
    exact ⟨.stored, modelOf_eq_ok.mp hmodel⟩
  case h_3 => cases h

section

variable {readFar : Value → Except HydrationError Node} {far : Value → Node → Prop}
  (hfar : ∀ value node, readFar value = .ok node → far value node)

include hfar

/-- What is read of a relationship was loaded from its value, if its far node was. -/
theorem linkLoadedFrom_of_readLink {link : NodeLink}
    (h : readLink readFar rel subject value = .ok link) :
    LinkLoadedFrom far rel subject value link := by
  unfold readLink at h
  split at h
  case h_1 entries =>
    obtain ⟨identity, hidentity, h⟩ := bind_eq_ok.mp h
    split at h
    case h_1 => cases h
    case h_2 farValue hvalue =>
      obtain ⟨other, hother, h⟩ := bind_eq_ok.mp h
      generalize hends : (if rel.direction = .incoming then (other.identity, subject)
        else (subject, other.identity)) = ends at h
      cases h
      exact ⟨rfl, ⟨entries, farValue, rfl, projectedIdentity_eq_ok.mp hidentity, shown_shows _ _,
        hvalue, hfar _ _ hother⟩, hends.symm⟩
  case h_2 => cases h

/-- What is read of a field was loaded from what was found, in the variant of the declared shape, if
the far nodes were. -/
theorem foundMirrors_of_readField {owner : EntityType} {loaded : NodeField}
    (h : readField readFar owner rel subject value = .ok loaded) :
    FoundMirrors far (LinkLoadedFrom far rel subject) rel.shape value loaded := by
  have hlist : ∀ {context items}, listItems context value = .ok items → value = .list items := by
    intro context items hitems
    cases value <;> cases hitems
    rfl
  unfold readField at h
  split at h
  case h_1 hshape =>
    rw [hshape]
    split at h
    case isTrue hnull =>
      cases h
      cases value <;> cases hnull
      exact .noNode
    case isFalse =>
      obtain ⟨other, hother, h⟩ := bind_eq_ok.mp h
      cases h
      exact .oneNode (hfar _ _ hother)
  case h_2 hshape =>
    rw [hshape]
    obtain ⟨items, hitems, h⟩ := bind_eq_ok.mp h
    obtain ⟨nodes, hnodes, h⟩ := bind_eq_ok.mp h
    cases h
    rw [hlist hitems]
    exact .nodes ((mapM_eq_ok.mp hnodes).imp fun _ _ => hfar _ _)
  case h_3 hshape =>
    rw [hshape]
    split at h
    case isTrue hnull =>
      cases h
      cases value <;> cases hnull
      exact .noRelationship
    case isFalse =>
      obtain ⟨link, hlink, h⟩ := bind_eq_ok.mp h
      cases h
      exact .oneRelationship (linkLoadedFrom_of_readLink hfar hlink)
  case h_4 hshape =>
    rw [hshape]
    obtain ⟨items, hitems, h⟩ := bind_eq_ok.mp h
    obtain ⟨links, hlinks, h⟩ := bind_eq_ok.mp h
    cases h
    rw [hlist hitems]
    exact .relationships ((mapM_eq_ok.mp hlinks).imp fun _ _ => linkLoadedFrom_of_readLink hfar)

end

/-- What is read under the name of an eager relationship is what was found there. -/
theorem readEager_eq_ok {readNode : Bool → Option EntityType → Value → Except HydrationError Node}
    {source : Source} {entry : String × NodeField}
    (h : readEager registry readNode source rel = .ok entry) :
    entry.1 = rel.name ∧ ∃ target found, registry.target rel = .ok target ∧
      KeyedList.get? source.entries rel.name = some found ∧
      readField (readNode target.isSome target) source.model rel source.identity found =
        .ok entry.2 := by
  unfold readEager at h
  split at h
  case h_1 => cases h
  case h_2 found hfound =>
    split at h
    case h_1 => cases h
    case h_2 target htarget =>
      obtain ⟨loaded, hloaded, h⟩ := bind_eq_ok.mp h
      cases h
      exact ⟨rfl, target, found, htarget, hfound, hloaded⟩

/-- The eager relationships of a type have names of their own. -/
theorem EntityType.eager_names_nodup (model : EntityType) :
    (model.eager.map Relationship.name).Nodup :=
  model.relationships_nodup.sublist (List.filter_sublist.map _)

/-- A node that was made without eager fields was loaded from its value, where it should have
none. -/
theorem loadedFrom_leaf {source : Source} (h : readSource registry expected value = .ok source)
    (hleaf : ¬ (source.projected ∧ typed ∧ depth ≤ limit)) :
    LoadedFrom registry limit depth typed expected value (source.node []) := by
  obtain ⟨hdescribes, hmodel⟩ := describes_of_readSource h
  rw [LoadedFrom]
  refine ⟨source.entries, source.projected, hdescribes, hmodel, shown_shows _ _, ?_⟩
  rw [dif_neg hleaf]
  rfl

/-- A node that was made with the eager fields that were read was loaded from its value, if the
nodes of the next level are. -/
theorem loadedFrom_fields {source : Source} {fields : List (String × NodeField)}
    (h : readSource registry expected value = .ok source)
    (hgrown : source.projected ∧ typed ∧ depth ≤ limit)
    (hfields : source.model.eager.mapM
      (readEager registry (Hydration.node registry levels) source) = .ok fields)
    (ih : ∀ {typed expected value node}, Hydration.node registry levels typed expected value =
      .ok node → LoadedFrom registry limit (depth + 1) typed expected value node) :
    LoadedFrom registry limit depth typed expected value (source.node fields) := by
  obtain ⟨hdescribes, hmodel⟩ := describes_of_readSource h
  have hread := mapM_eq_ok.mp hfields
  have hkeys : KeyedList.keys fields = source.model.eager.map Relationship.name := by
    rw [KeyedList.keys, ← List.forall₂_eq_eq_eq, List.forall₂_map_left_iff,
      List.forall₂_map_right_iff]
    exact (hread.imp fun _ _ hentry => (readEager_eq_ok hentry).1).flip
  -- The names of the fields are distinct, so that sorting loses no entry.
  have hnodup : (KeyedList.keys fields).Nodup := hkeys ▸ source.model.eager_names_nodup
  rw [LoadedFrom]
  refine ⟨source.entries, source.projected, hdescribes, hmodel, shown_shows _ _, ?_⟩
  rw [dif_pos hgrown]
  refine ⟨hkeys ▸ (KeyedList.ofPairs_perm hnodup).map Prod.fst, fun rel hrel => ?_⟩
  obtain ⟨entry, hentry, hreadEntry⟩ := exists_of_forall₂_right hread.flip hrel
  obtain ⟨hname, target, found, htarget, hfound, hfield⟩ := readEager_eq_ok hreadEntry
  refine ⟨target, found, entry.2, htarget, hfound, ?_,
    foundMirrors_of_readField (fun _ _ => ih) hfield⟩
  rw [← hname]
  exact KeyedList.get?_ofPairs_of_mem hnodup hentry

/-- Every node that is loaded for so many levels was loaded from its value. -/
theorem loadedFrom_of_node (hlevels : Projection.levels limit depth = levels)
    (h : Hydration.node registry levels typed expected value = .ok node) :
    LoadedFrom registry limit depth typed expected value node := by
  unfold Projection.levels at hlevels
  induction levels generalizing depth typed expected value node with
  | zero =>
    obtain ⟨source, hsource, h⟩ := bind_eq_ok.mp h
    cases h
    exact loadedFrom_leaf hsource (by omega)
  | succ levels ih =>
    obtain ⟨source, hsource, h⟩ := bind_eq_ok.mp h
    split at h
    case isTrue hgrown =>
      obtain ⟨fields, hfields, h⟩ := bind_eq_ok.mp h
      cases h
      rw [Bool.and_eq_true] at hgrown
      exact loadedFrom_fields hsource ⟨hgrown.2, hgrown.1, by omega⟩ hfields (ih (by omega))
    case isFalse hleaf =>
      cases h
      refine loadedFrom_leaf hsource fun hgrown => hleaf ?_
      rw [hgrown.1, hgrown.2.1]
      rfl

/-- Whatever is found along a relationship has no more levels than its nodes have at most. -/
theorem FoundMirrors.height_le {far : Value → Node → Prop} {link : Value → NodeLink → Prop}
    {shape : Shape} {loaded : NodeField} (h : FoundMirrors far link shape value loaded)
    (hfar : ∀ value node, far value node → node.height ≤ bound)
    (hlink : ∀ value loaded, link value loaded → loaded.other.height ≤ bound) :
    Node.fieldHeight loaded ≤ bound := by
  have hlinkHeight : ∀ link : NodeLink, Node.linkHeight link = link.other.height := by
    rintro ⟨⟩
    rfl
  cases h with
  | noNode => exact Nat.zero_le _
  | oneNode h => exact hfar _ _ h
  | nodes h =>
    rw [Node.fieldHeight]
    induction h with
    | nil => exact Nat.zero_le _
    | cons h _ ih => exact Nat.max_le.mpr ⟨hfar _ _ h, ih⟩
  | noRelationship => exact Nat.zero_le _
  | oneRelationship h =>
    rw [Node.fieldHeight, hlinkHeight]
    exact hlink _ _ h
  | relationships h =>
    rw [Node.fieldHeight]
    induction h with
    | nil => exact Nat.zero_le _
    | cons h _ ih =>
      rw [Node.linksHeight, hlinkHeight]
      exact Nat.max_le.mpr ⟨hlink _ _ h, ih⟩

/-- A node has one level more than its eager fields have at most. -/
theorem Node.height_le (h : ∀ entry ∈ node.fields, Node.fieldHeight entry.2 ≤ bound) :
    node.height ≤ bound + 1 := by
  obtain ⟨_, _, _, _, fields⟩ := node
  refine Nat.succ_le_succ ?_
  change ∀ entry ∈ fields, _ at h
  induction fields with
  | nil => exact Nat.zero_le _
  | cons entry rest ih =>
    exact Nat.max_le.mpr ⟨h entry List.mem_cons_self,
      ih fun entry hentry => h entry (List.mem_cons_of_mem _ hentry)⟩

/-- What was loaded at some depth has one level more than there are left under the limit at
most. -/
theorem height_le_of_loadedFrom (hlevels : Projection.levels limit depth = levels)
    (h : LoadedFrom registry limit depth typed expected value node) : node.height ≤ levels + 1 := by
  unfold Projection.levels at hlevels
  induction levels generalizing depth typed expected value node with
  | zero =>
    rw [LoadedFrom] at h
    obtain ⟨_, _, -, -, -, hfields⟩ := h
    rw [dif_neg (by omega)] at hfields
    exact Node.height_le (by simp [hfields])
  | succ levels ih =>
    rw [LoadedFrom] at h
    obtain ⟨entries, projected, -, -, -, hfields⟩ := h
    refine Node.height_le fun entry hentry => ?_
    split at hfields
    case isTrue =>
      obtain ⟨hkeys, hfields⟩ := hfields
      have hnodup : (KeyedList.keys node.fields).Nodup :=
        hkeys.nodup_iff.mpr node.model.eager_names_nodup
      obtain ⟨rel, hrel, hname⟩ := List.mem_map.mp (hkeys.subset (List.mem_map_of_mem hentry))
      obtain ⟨target, found, loaded, -, -, hloaded, hfound⟩ := hfields rel hrel
      rw [hname, KeyedList.get?_of_mem hnodup hentry] at hloaded
      cases hloaded
      refine hfound.height_le (fun _ _ => ih (by omega)) ?_
      rintro _ _ ⟨-, ⟨_, _, -, -, -, -, hfar⟩, -⟩
      exact ih (by omega) hfar
    case isFalse => simp [hfields] at hentry

/-- Every node that is loaded as a root was loaded from its value on all levels, of which there is
one more than the limit at most. -/
theorem ofValue_loadedFrom (h : Node.ofValue registry limit 1 expected value = .ok node) :
    LoadedFrom registry limit 1 true expected value node ∧ node.height ≤ limit + 1 :=
  have hloaded := loadedFrom_of_node rfl h
  ⟨hloaded, height_le_of_loadedFrom rfl hloaded⟩

/-- A villager with entries that nothing declares and a secret, whose friend is as the database
hands out nodes. -/
def guarded : Value :=
  .map [(identityKey, .int 1), (labelsKey, .list [.int 7, .string "Villager"]),
    ("age", .int 30),
    ("friends", .list [.map [(identityKey, .int 5),
      ("node", .node 2 ["Stranger"] [("name", .string "Bob"), ("secret", .string "door")]),
      ("since", .int 3), ("until", .int 4)]]),
    ("home", .map [(identityKey, .int 9), (labelsKey, .list [.string "Villager"]),
      ("friends", .null), ("secret", .string "key")]),
    ("secret", .string "well")]

/-- What is loaded of the villager is what the types declare. -/
def guardedNode : Node :=
  .mk 1 ["Villager"] villager [] [
    ("friends", .relationships [.mk 5 "FRIEND_OF" "friends" "node" [("since", .int 3)] 2 1
      (.mk 2 ["Stranger"] villager [("name", .string "Bob")] [])]),
    ("home", .node (some (.mk 9 ["Villager"] villager [] [])))]

/-- A villager whose value has more than its type declares is loaded without it. -/
theorem guarded_loadedFrom :
    Node.ofValue village 1 1 none guarded = .ok guardedNode ∧
      LoadedFrom village 1 1 true none guarded guardedNode ∧ guardedNode.height ≤ 2 :=
  have hloaded : Node.ofValue village 1 1 none guarded = .ok guardedNode := by rfl
  ⟨hloaded, ofValue_loadedFrom hloaded⟩

end GraphMapper

import GraphMapper.Proofs.Hydration.WellFormed
import GraphMapper.Proofs.Schema.Walks
import GraphMapper.Proofs.Write.Places

/-!
# Reading for more or fewer levels than were projected

The limit of depth under which a value is loaded need not be the one under which its projection was
compiled. Under a lower limit the same tree is loaded, cut off below the last level that is read
(`Node.cut`), and the far ends of the relationships below that level are never asked for. Under a
higher limit, the nodes on the last level that was projected lack the eager fields that their types
declare: the first such node in the order of reading is where loading fails, and if there is none
nothing is missing (`ofValue_of_other_limit`).

Both runs go through the values in the same order, and `Rereads` says how the second one ends, given
what the first one loads: with the expected result, or at the first eager field of a node of one of
the types that stand on the boundary. It passes from the nodes of one level to those of the level
above, whatever the boundary is (`rereads_fields`).
-/

namespace GraphMapper

open Hydration

/-! ## Trees that are cut off -/

/-- A relationship with a changed node at its far end. -/
def NodeLink.mapOther (change : Node → Node) : NodeLink → NodeLink
  | .mk identity type name nodeKey properties startNode endNode other =>
    .mk identity type name nodeKey properties startNode endNode (change other)

/-- What was loaded along a relationship, with its nodes changed. -/
def NodeField.mapNodes (change : Node → Node) : NodeField → NodeField
  | .node value => .node (value.map change)
  | .nodes items => .nodes (items.map change)
  | .relationship value => .relationship (value.map (NodeLink.mapOther change))
  | .relationships items => .relationships (items.map (NodeLink.mapOther change))

/-- A tree without the eager fields of the nodes below so many levels. -/
def Node.cut : Nat → Node → Node
  | 0, .mk identity labels model properties _ => .mk identity labels model properties []
  | levels + 1, .mk identity labels model properties fields =>
    .mk identity labels model properties
      (KeyedList.mapValues (NodeField.mapNodes (Node.cut levels)) fields)

/-! ## Nodes of a value on some level -/

/-- The items of what was found along a relationship, of which there are none where it is null. -/
def foundItems (shape : Shape) (found : Value) : List Value :=
  if found.isNull then [] else relatedItems shape found

/-- The values of the nodes that were found along a relationship. -/
def farValues (rel : Relationship) (found : Value) : List Value :=
  (foundItems rel.shape found).filterMap (farSide? rel)

/-- So many levels below a node of a known type, a value has a node that its declaration gives the
type `type`. -/
inductive HoldsTyped (registry : Registry) : Nat → EntityType → Value → EntityType → Prop
  | here {model : EntityType} {value : Value} : HoldsTyped registry 0 model value model
  | deeper {levels : Nat} {model target type : EntityType} {rel : Relationship} {entries : Bag}
    {found far : Value} (eager : rel ∈ model.eager) (registered : registry.target? rel = some target)
    (held : KeyedList.get? entries rel.name = some found) (reached : far ∈ farValues rel found)
    (rest : HoldsTyped registry levels target far type) :
    HoldsTyped registry (levels + 1) model (.map entries) type

/-- A registry says the same of the far ends of eager relationships as another one, as far as they
belong to nodes of known type on the first levels of a value. -/
def Registry.AgreesOn (registry other : Registry) (levels : Nat) (model : EntityType)
    (value : Value) : Prop :=
  ∀ depth < levels, ∀ type, HoldsTyped registry depth model value type → ∀ rel ∈ type.eager,
    other.target rel = registry.target rel ∧
      (rel.target = .any → ∀ labels, other.byLabels? labels = registry.byLabels? labels)

mutual

/-- Of a node of a known type a value has nothing but what its projection returns, on every
level. -/
def Projection.Exact : Projection → Value → Prop
  | .node _ properties fields, value =>
    ∃ entries, value = .map entries ∧
      (∀ names, properties = some names → KeyedList.keys entries ⊆
        names ++ [identityKey, labelsKey] ++ fields.map EagerField.name) ∧
      FieldsExact fields entries
  | .relationship _ _ nodeKey far, value =>
    ∃ entries node, value = .map entries ∧ KeyedList.get? entries nodeKey = some node ∧
      far.Exact node

/-- What is under the name of a field has nothing but what is projected. -/
def EagerField.Exact : EagerField → Bag → Prop
  | .mk name _ single projection, entries =>
    ∃ value, KeyedList.get? entries name = some value ∧ FoundShaped projection.Exact single value

/-- What is under the names of fields has nothing but what is projected. -/
def FieldsExact : List EagerField → Bag → Prop
  | [], _ => True
  | field :: rest, entries => field.Exact entries ∧ FieldsExact rest entries

end

/-! ## A second reading -/

section

variable {α : Type}

/-- What is found along a path to one item, if anything, as `read` reads it. -/
def readSingle (read : Value → Except HydrationError α) (found : Value) :
    Except HydrationError (Option α) :=
  if found.isNull then .ok none else (read found).map some

/-- What is found along a path to several items, as `read` reads each of them. -/
def readAll (read : Value → Except HydrationError α) (context : String) (found : Value) :
    Except HydrationError (List α) :=
  listItems context found >>= fun items => items.mapM read

end

/-- What is read of a relationship, with its far node. -/
def linkWith (rel : Relationship) (subject identity : Identity) (entries : Bag) (other : Node) :
    NodeLink :=
  .mk identity (((KeyedList.get? entries typeKey).bind Value.string?).getD rel.type) rel.name
    rel.nodeKey (shown rel.properties entries)
    (if rel.direction = .incoming then other.identity else subject)
    (if rel.direction = .incoming then subject else other.identity) other

/-- How a value is read where nodes of the types on the boundary have no eager fields: as expected
if none of these types declares any, and otherwise not at all, for the first field of one of
them. -/
inductive Rereads {α : Type} (boundary : EntityType → Prop) (expected : α) :
    Except HydrationError α → Prop
  | loaded (spared : ∀ type, boundary type → type.eager = []) :
    Rereads boundary expected (.ok expected)
  | missing {type : EntityType} {rel : Relationship} (held : boundary type)
    (first : type.eager.head? = some rel) :
    Rereads boundary expected (.error (.missingEagerField type.name rel.name))

namespace Rereads

variable {α β : Type} {boundary : EntityType → Prop} {expected : α} {x : Except HydrationError α}

/-- Only which types are on the boundary counts. -/
theorem of_iff {same : EntityType → Prop} (h : Rereads boundary expected x)
    (hiff : ∀ type, boundary type ↔ same type) : Rereads same expected x := by
  cases h with
  | loaded spared => exact .loaded fun type hsame => spared type ((hiff type).mpr hsame)
  | missing held first => exact .missing ((hiff _).mp held) first

/-- With no type on the boundary, the expected result is read. -/
theorem eq_ok (h : Rereads (fun _ => False) expected x) : x = .ok expected := by
  cases h with
  | loaded => rfl
  | missing held => exact held.elim

/-- What is read is what was expected. -/
theorem of_ok (h : Rereads boundary expected x) {a : α} (hok : x = .ok a) : a = expected := by
  cases h with
  | loaded => exact (Except.ok.inj hok).symm
  | missing => cases hok

/-- Where reading fails, the first eager field of a type on the boundary is missing. -/
theorem of_error (h : Rereads boundary expected x) {e : HydrationError} (herror : x = .error e) :
    ∃ type rel, boundary type ∧ type.eager.head? = some rel ∧
      e = .missingEagerField type.name rel.name := by
  cases h with
  | loaded => cases herror
  | missing held first => exact ⟨_, _, held, first, (Except.error.inj herror).symm⟩

/-- Reading fails exactly where a type on the boundary declares eager fields. -/
theorem fails_iff (h : Rereads boundary expected x) :
    (∃ e, x = .error e) ↔ ∃ type, boundary type ∧ type.eager ≠ [] := by
  cases h with
  | loaded spared =>
    constructor
    · rintro ⟨_, ⟨⟩⟩
    · rintro ⟨type, held, heager⟩
      exact absurd (spared type held) heager
  | missing held first =>
    refine ⟨fun _ => ⟨_, held, fun heager => ?_⟩, fun _ => ⟨_, rfl⟩⟩
    rw [heager] at first
    cases first

/-- Whatever is read and then changed is read again and changed in the same way. -/
theorem map (h : Rereads boundary expected x) (f : α → β) :
    Rereads boundary (f expected) (x.map f) := by
  cases h with
  | loaded spared => exact .loaded spared
  | missing held first => exact .missing held first

/-- Items are read one after the other, so that the first one with a node on the boundary that lacks
a field is the one that counts. -/
theorem mapM {f : β → Except HydrationError α} {boundary : β → EntityType → Prop} {items : List β}
    {results : List α}
    (h : List.Forall₂ (fun item result => Rereads (boundary item) result (f item)) items results) :
    Rereads (fun type => ∃ item ∈ items, boundary item type) results (items.mapM f) := by
  induction h with
  | nil => exact .loaded (by simp)
  | @cons item result items results hitem _ ih =>
    rw [List.mapM_cons]
    generalize f item = first at hitem
    generalize items.mapM f = others at ih
    cases hitem with
    | missing held first => exact .missing ⟨item, List.mem_cons_self, held⟩ first
    | loaded spared =>
      cases ih with
      | missing held first =>
        obtain ⟨other, hother, held⟩ := held
        exact .missing ⟨other, List.mem_cons_of_mem item hother, held⟩ first
      | loaded sparedRest =>
        refine .loaded fun type ⟨other, hother, held⟩ => ?_
        rcases List.mem_cons.mp hother with rfl | hother
        · exact spared type held
        · exact sparedRest type ⟨other, hother, held⟩

end Rereads

variable {registry other : Registry} {levels limit : Nat} {typed : Bool} {rel : Relationship}
  {subject : Identity} {value found : Value} {node : Node} {model : EntityType}

/-- A tree that is cut off has the same root. -/
theorem Node.identity_cut (levels : Nat) (node : Node) :
    (node.cut levels).identity = node.identity := by
  cases levels <;> cases node <;> rfl

/-- A value itself has the type that it is known to have. -/
theorem holdsTyped_zero {type : EntityType} : HoldsTyped registry 0 model value type ↔ type = model := by
  constructor
  · rintro ⟨⟩
    rfl
  · rintro rfl
    exact .here

/-- The nodes of known type one level further down are those below the nodes that eager relationships
lead to. -/
theorem holdsTyped_succ {entries : Bag} {type : EntityType} :
    HoldsTyped registry (levels + 1) model (.map entries) type ↔
      ∃ rel ∈ model.eager, ∃ target found, registry.target? rel = some target ∧
        KeyedList.get? entries rel.name = some found ∧
        ∃ far ∈ farValues rel found, HoldsTyped registry levels target far type := by
  constructor
  · intro h
    cases h with
    | deeper hrel htarget hfound hfar hrest =>
      exact ⟨_, hrel, _, _, htarget, hfound, _, hfar, hrest⟩
  · rintro ⟨rel, hrel, target, found, htarget, hfound, far, hfar, hrest⟩
    exact .deeper hrel htarget hfound hfar hrest

/-- A node was found along a relationship if it is the far side of an item. -/
theorem mem_farValues {far : Value} :
    far ∈ farValues rel found ↔ ∃ item ∈ foundItems rel.shape found, farSide? rel item = some far :=
  List.mem_filterMap

/-- What is no null is the only item where the shape is no collection. -/
theorem foundItems_single (hsingle : rel.shape.isCollection = false) (h : found.isNull = false) :
    foundItems rel.shape found = [found] := by
  cases found <;> simp [foundItems, h, relatedItems, hsingle]

/-- The items of a list are those of it where the shape is a collection. -/
theorem foundItems_list {items : List Value} (h : rel.shape.isCollection = true) :
    foundItems rel.shape (.list items) = items := by
  simp [foundItems, Value.isNull, relatedItems, h]

section

variable {α : Type} {read again : Value → Except HydrationError α} {changed : α → α}
  {boundary : Value → EntityType → Prop}
  (hitem : ∀ item ∈ foundItems rel.shape found, ∀ result, read item = .ok result →
    Rereads (boundary item) (changed result) (again item))

include hitem

/-- A single item is read again as it itself is. -/
theorem rereads_readSingle (hsingle : rel.shape.isCollection = false) {result : Option α}
    (h : readSingle read found = .ok result) :
    Rereads (fun type => ∃ item ∈ foundItems rel.shape found, boundary item type)
      (result.map changed) (readSingle again found) := by
  cases hnull : found.isNull with
  | true =>
    rw [readSingle, if_pos hnull] at h ⊢
    cases h
    exact .loaded (by simp [foundItems, hnull])
  | false =>
    rw [readSingle, if_neg (by simp [hnull])] at h ⊢
    obtain ⟨one, hone, rfl⟩ := map_eq_ok.mp h
    rw [foundItems_single hsingle hnull] at hitem ⊢
    exact ((hitem found List.mem_cons_self one hone).map some).of_iff fun type => by simp

/-- Several items are read again as each of them is. -/
theorem rereads_readAll (hcollection : rel.shape.isCollection = true) {context : String}
    {results : List α} (h : readAll read context found = .ok results) :
    Rereads (fun type => ∃ item ∈ foundItems rel.shape found, boundary item type)
      (results.map changed) (readAll again context found) := by
  obtain ⟨items, hlist, hresults⟩ := bind_eq_ok.mp h
  cases found with
  | list found =>
    cases hlist
    rw [foundItems_list hcollection] at hitem ⊢
    exact Rereads.mapM (List.forall₂_map_right_iff.mpr
      (forall₂_imp_of_mem (mapM_eq_ok.mp hresults) hitem))
  | _ => cases hlist

end

section

variable {readFar readAgain : Value → Except HydrationError Node} {owner : EntityType}
  {boundary : Value → EntityType → Prop} {change : Node → Node}

/-- A relationship is read with its far node, where there is one. -/
theorem readLink_eq_map {entries : Bag} {identity : Identity} {far : Value}
    (hidentity : projectedIdentity entries rel.name = .ok identity)
    (hfar : KeyedList.get? entries rel.nodeKey = some far) :
    readLink readFar rel subject (.map entries) =
      (readFar far).map (linkWith rel subject identity entries) := by
  simp only [readLink, hidentity, hfar]
  cases readFar far with
  | error e => rfl
  | ok other =>
    by_cases hdirection : rel.direction = .incoming
    · simp [Except.map, linkWith, hdirection, bind, Except.bind, pure, Except.pure]
    · simp [Except.map, linkWith, hdirection, bind, Except.bind, pure, Except.pure]

/-- A relationship is read again as its far node is. -/
theorem rereads_readLink (hidentity : ∀ node, (change node).identity = node.identity)
    {item : Value} (hshape : rel.shape.isRelationship = true)
    (hfar : ∀ far, farSide? rel item = some far → ∀ node, readFar far = .ok node →
      Rereads (boundary far) (change node) (readAgain far))
    {link : NodeLink} (h : readLink readFar rel subject item = .ok link) :
    Rereads (fun type => ∃ far, farSide? rel item = some far ∧ boundary far type)
      (link.mapOther change) (readLink readAgain rel subject item) := by
  -- Whatever is read as a relationship has an identity and a far node.
  obtain ⟨-, ⟨entries, far, rfl, hfound, -, hvalue, -⟩, -⟩ :=
    linkLoadedFrom_of_readLink (fun _ _ _ => trivial) h
  obtain ⟨identity, hread⟩ : ∃ identity, projectedIdentity entries rel.name = .ok identity :=
    ⟨_, projectedIdentity_eq_ok.mpr hfound⟩
  rw [readLink_eq_map hread hvalue] at h ⊢
  obtain ⟨other, hother, rfl⟩ := map_eq_ok.mp h
  have hside : farSide? rel (.map entries) = some far := by
    simp [farSide?, hshape, Value.entries?, hvalue]
  have hreads : Rereads (fun type => ∃ far, farSide? rel (.map entries) = some far ∧
      boundary far type) (change other) (readAgain far) :=
    (hfar far hside other hother).of_iff fun type => by simp [hside]
  have hlink : (linkWith rel subject identity entries other).mapOther change =
      linkWith rel subject identity entries (change other) := by
    rw [linkWith, linkWith, NodeLink.mapOther, hidentity]
  rw [hlink]
  exact hreads.map _

/-- What was found along a relationship is read as its shape says. -/
theorem readField_eq : readField readFar owner rel subject found =
    match rel.shape with
    | .node => (readSingle readFar found).map .node
    | .nodes => (readAll readFar (owner.name ++ "." ++ rel.name) found).map .nodes
    | .relationship => (readSingle (readLink readFar rel subject) found).map .relationship
    | .relationships =>
      (readAll (readLink readFar rel subject) (owner.name ++ "." ++ rel.name) found).map
        .relationships := by
  have hsingle : ∀ {α : Type} (read : Value → Except HydrationError α)
      (wrap : Option α → NodeField), (readSingle read found).map wrap =
        if found.isNull then .ok (wrap none) else do return wrap (some (← read found)) := by
    intro α read wrap
    unfold readSingle
    split
    · rfl
    · cases read found <;> rfl
  have hall : ∀ {α : Type} (read : Value → Except HydrationError α) (context : String)
      (wrap : List α → NodeField), (readAll read context found).map wrap =
        do return wrap (← (← listItems context found).mapM read) := by
    intro α read context wrap
    unfold readAll
    cases listItems context found with
    | error e => rfl
    | ok items => cases hread : items.mapM read <;> simp <;> rfl
  unfold readField
  cases rel.shape with
  | node => exact (hsingle _ _).symm
  | nodes => exact (hall _ _ _).symm
  | relationship => exact (hsingle _ _).symm
  | relationships => exact (hall _ _ _).symm

/-- What was found along a relationship is read again as its nodes are. -/
theorem rereads_readField (hidentity : ∀ node, (change node).identity = node.identity)
    (hfar : ∀ far ∈ farValues rel found, ∀ node, readFar far = .ok node →
      Rereads (boundary far) (change node) (readAgain far))
    {field : NodeField} (h : readField readFar owner rel subject found = .ok field) :
    Rereads (fun type => ∃ far ∈ farValues rel found, boundary far type)
      (field.mapNodes change) (readField readAgain owner rel subject found) := by
  have hitem : ∀ item ∈ foundItems rel.shape found, ∀ far, farSide? rel item = some far →
      ∀ node, readFar far = .ok node → Rereads (boundary far) (change node) (readAgain far) :=
    fun item hitem far hside => hfar far (mem_farValues.mpr ⟨item, hitem, hside⟩)
  suffices hitems : Rereads (fun type => ∃ item ∈ foundItems rel.shape found, ∃ far,
      farSide? rel item = some far ∧ boundary far type) (field.mapNodes change)
      (readField readAgain owner rel subject found) by
    refine hitems.of_iff fun type => ?_
    simp only [mem_farValues]
    constructor
    · rintro ⟨item, hitem, far, hside, held⟩
      exact ⟨far, ⟨item, hitem, hside⟩, held⟩
    · rintro ⟨far, ⟨item, hitem, hside⟩, held⟩
      exact ⟨item, hitem, far, hside, held⟩
  have hnode (hshape : rel.shape.isRelationship = false) : ∀ item ∈ foundItems rel.shape found,
      ∀ node, readFar item = .ok node → Rereads (fun type => ∃ far, farSide? rel item = some far ∧
        boundary far type) (change node) (readAgain item) := by
    intro item hmem node hread
    have hside : farSide? rel item = some item := by simp [farSide?, hshape]
    exact (hitem item hmem item hside node hread).of_iff fun type => by simp [hside]
  have hlink (hshape : rel.shape.isRelationship = true) : ∀ item ∈ foundItems rel.shape found,
      ∀ link, readLink readFar rel subject item = .ok link → Rereads (fun type => ∃ far,
        farSide? rel item = some far ∧ boundary far type) (link.mapOther change)
        (readLink readAgain rel subject item) :=
    fun item hmem link hread => rereads_readLink hidentity hshape (hitem item hmem) hread
  rw [readField_eq] at h ⊢
  split at h
  case h_1 hshape =>
    obtain ⟨result, hresult, rfl⟩ := map_eq_ok.mp h
    exact (rereads_readSingle (hnode (by rw [hshape]; rfl)) (by rw [hshape]; rfl) hresult).map
      NodeField.node
  case h_2 hshape =>
    obtain ⟨results, hresults, rfl⟩ := map_eq_ok.mp h
    exact (rereads_readAll (hnode (by rw [hshape]; rfl)) (by rw [hshape]; rfl) hresults).map
      NodeField.nodes
  case h_3 hshape =>
    obtain ⟨result, hresult, rfl⟩ := map_eq_ok.mp h
    exact (rereads_readSingle (hlink (by rw [hshape]; rfl)) (by rw [hshape]; rfl) hresult).map
      NodeField.relationship
  case h_4 hshape =>
    obtain ⟨results, hresults, rfl⟩ := map_eq_ok.mp h
    exact (rereads_readAll (hlink (by rw [hshape]; rfl)) (by rw [hshape]; rfl) hresults).map
      NodeField.relationships

end

section

variable {read again : Bool → Option EntityType → Value → Except HydrationError Node}
  {boundary : Option EntityType → Value → EntityType → Prop} {change : Node → Node}
  {source : Source}

/-- An eager field is read again as the nodes that it leads to are, if its far end is known to be
the same. -/
theorem rereads_readEager (hidentity : ∀ node, (change node).identity = node.identity)
    (hsame : other.target rel = registry.target rel)
    (hfar : ∀ target found, registry.target rel = .ok target →
      KeyedList.get? source.entries rel.name = some found → ∀ far ∈ farValues rel found, ∀ node,
      read target.isSome target far = .ok node →
      Rereads (boundary target far) (change node) (again target.isSome target far))
    {entry : String × NodeField} (h : readEager registry read source rel = .ok entry) :
    Rereads (fun type => ∃ target found, registry.target rel = .ok target ∧
        KeyedList.get? source.entries rel.name = some found ∧
        ∃ far ∈ farValues rel found, boundary target far type)
      (entry.1, entry.2.mapNodes change) (readEager other again source rel) := by
  obtain ⟨hname, target, found, htarget, hfound, hfield⟩ := readEager_eq_ok h
  have hreads := rereads_readField hidentity (hfar target found htarget hfound) hfield
  have hagain : readEager other again source rel =
      (readField (again target.isSome target) source.model rel source.identity found).map
        fun field => (rel.name, field) := by
    simp only [readEager, hfound, hsame, htarget]
    cases readField (again target.isSome target) source.model rel source.identity found <;> rfl
  rw [hagain, hname]
  exact (hreads.map _).of_iff fun type => by simp [htarget, hfound]

/-- The eager fields of a source are read again as the nodes that they lead to are. -/
theorem rereads_fields (hidentity : ∀ node, (change node).identity = node.identity)
    (hsame : ∀ rel ∈ source.model.eager, other.target rel = registry.target rel)
    (hfar : ∀ rel ∈ source.model.eager, ∀ target found, registry.target rel = .ok target →
      KeyedList.get? source.entries rel.name = some found → ∀ far ∈ farValues rel found, ∀ node,
      read target.isSome target far = .ok node →
      Rereads (boundary target far) (change node) (again target.isSome target far))
    {fields : List (String × NodeField)}
    (h : source.model.eager.mapM (readEager registry read source) = .ok fields) :
    Rereads (fun type => ∃ rel ∈ source.model.eager, ∃ target found,
        registry.target rel = .ok target ∧
        KeyedList.get? source.entries rel.name = some found ∧
        ∃ far ∈ farValues rel found, boundary target far type)
      (KeyedList.mapValues (NodeField.mapNodes change) fields)
      (source.model.eager.mapM (readEager other again source)) := by
  refine Rereads.mapM (List.forall₂_map_right_iff.mpr ?_)
  exact forall₂_imp_of_mem (mapM_eq_ok.mp h) fun rel hrel entry hentry =>
    rereads_readEager hidentity (hsame rel hrel) (hfar rel hrel) hentry

end

variable {expected : Option EntityType} {tree : Node}

/-- Above the last level a node is loaded with its eager fields if it is projected and of a known
type. -/
theorem node_succ : Hydration.node registry (levels + 1) typed expected value =
    readSource registry expected value >>= fun source =>
      if typed && source.projected then
        (source.model.eager.mapM (readEager registry (Hydration.node registry levels) source)).map
          source.node
      else .ok (source.node []) := by
  rw [Hydration.node]
  rfl

/-- A node of unknown type is loaded in the same way on all levels. -/
theorem node_untyped : Hydration.node registry levels false expected value =
    (readSource registry expected value).map fun source => source.node [] := by
  cases levels with
  | zero =>
    rw [Hydration.node]
    cases readSource registry expected value <;> rfl
  | succ levels =>
    rw [node_succ]
    cases readSource registry expected value <;> rfl

/-- What a value says of a node depends on the registry only where its type is found by its
labels. -/
theorem readSource_congr
    (h : expected = none → ∀ labels, other.byLabels? labels = registry.byLabels? labels) :
    readSource other expected value = readSource registry expected value := by
  have hmodel : ∀ labels, modelOf other expected labels = modelOf registry expected labels := by
    intro labels
    cases expected with
    | some known => rfl
    | none => rw [modelOf, modelOf, h rfl]
  simp only [readSource, hmodel]

/-- A relationship whose far end has no type goes to any node. -/
theorem any_of_target_eq_none (h : registry.target rel = .ok none) : rel.target = .any := by
  unfold Registry.target at h
  split at h
  case h_1 =>
    obtain ⟨_, -, h⟩ := map_eq_ok.mp h
    cases h
  case h_2 hany => exact hany

/-- What is projected of a node of a known type is a map, and the node is of that type. -/
theorem source_of_known {source : Source}
    (h : readSource registry (some model) value = .ok source) (hprojected : source.projected = true) :
    value = .map source.entries ∧ source.model = model := by
  obtain ⟨hdescribes, hmodel⟩ := describes_of_readSource h
  rw [hprojected] at hdescribes
  refine ⟨?_, (Option.some_inj.mp hmodel).symm⟩
  generalize source.entries = entries at hdescribes
  generalize source.labels = labels at hdescribes
  cases hdescribes
  rfl

/-- Above the last level a projected node of a known type is loaded with its eager fields. -/
theorem node_of_projected {source : Source}
    (hsource : readSource registry (some model) value = .ok source)
    (hprojected : source.projected = true) :
    Hydration.node registry (levels + 1) true (some model) value =
      (source.model.eager.mapM (readEager registry (Hydration.node registry levels) source)).map
        source.node := by
  rw [node_succ, hsource]
  change (if _ then _ else _) = _
  rw [if_pos (by rw [hprojected]; rfl)]

/-- A node that is loaded has what its value says of it, and some eager fields. -/
theorem exists_source_of_node (h : Hydration.node registry levels typed expected value = .ok tree) :
    ∃ source fields, readSource registry expected value = .ok source ∧ tree = source.node fields := by
  cases levels with
  | zero =>
    obtain ⟨source, hsource, h⟩ := bind_eq_ok.mp h
    cases h
    exact ⟨source, [], hsource, rfl⟩
  | succ levels =>
    rw [node_succ] at h
    obtain ⟨source, hsource, h⟩ := bind_eq_ok.mp h
    split at h
    case isTrue =>
      obtain ⟨fields, -, rfl⟩ := map_eq_ok.mp h
      exact ⟨source, fields, hsource, rfl⟩
    case isFalse =>
      cases h
      exact ⟨source, [], hsource, rfl⟩

/-- A node without eager fields has nothing to cut off. -/
theorem cut_leaf (source : Source) : (source.node []).cut levels = source.node [] := by
  cases levels <;> rfl

/-- The fields of a node that is cut off are cut off one level earlier. -/
theorem cut_node (source : Source) (fields : List (String × NodeField)) :
    (source.node fields).cut (levels + 1) =
      source.node (KeyedList.mapValues (NodeField.mapNodes (Node.cut levels)) fields) := by
  rw [Source.node, Source.node, Node.cut, KeyedList.mapValues_ofPairs]

/-- Under a lower limit, and with any registry that says the same as far as it is asked, the tree is
loaded cut off. -/
theorem rereads_cut (hlevels : limit ≤ levels)
    (hagrees : ∀ known, expected = some known → registry.AgreesOn other limit known value)
    (hlabels : expected = none → ∀ labels, other.byLabels? labels = registry.byLabels? labels)
    (h : Hydration.node registry levels expected.isSome expected value = .ok tree) :
    Rereads (fun _ => False) (tree.cut limit)
      (Hydration.node other limit expected.isSome expected value) := by
  -- The boundary is empty: below the lower limit nothing is asked for, so that nothing is missing.
  induction limit generalizing levels expected value tree with
  | zero =>
    obtain ⟨source, fields, hsource, rfl⟩ := exists_source_of_node h
    rw [Hydration.node, readSource_congr hlabels, hsource]
    exact .loaded (by simp)
  | succ limit ih =>
    obtain ⟨levels, rfl⟩ : ∃ fewer, levels = fewer + 1 := ⟨levels - 1, by omega⟩
    rw [node_succ] at h ⊢
    obtain ⟨source, hsource, h⟩ := bind_eq_ok.mp h
    rw [readSource_congr hlabels, hsource]
    change Rereads _ _ (if _ then _ else _)
    split at h
    case isFalse hleaf =>
      cases h
      rw [if_neg hleaf, cut_leaf]
      exact .loaded (by simp)
    case isTrue hgrown =>
      obtain ⟨fields, hfields, rfl⟩ := map_eq_ok.mp h
      rw [Bool.and_eq_true] at hgrown
      obtain ⟨known, rfl⟩ := Option.isSome_iff_exists.mp hgrown.1
      obtain ⟨rfl, rfl⟩ := source_of_known hsource hgrown.2
      have hagrees := hagrees _ rfl
      have hfar : ∀ rel ∈ source.model.eager, ∀ target found, registry.target rel = .ok target →
          KeyedList.get? source.entries rel.name = some found → ∀ far ∈ farValues rel found, ∀ node,
          Hydration.node registry levels target.isSome target far = .ok node →
          Rereads (fun _ => False) (node.cut limit)
            (Hydration.node other limit target.isSome target far) := by
        intro rel hrel target found htarget hfound far hfar node hnode
        -- Where both registries agree below the node, they do below its far nodes.
        refine ih (by omega) ?_ ?_ hnode
        · rintro known rfl depth hdepth type htype
          exact hagrees (depth + 1) (by omega) type
            (.deeper hrel (target_eq_ok.mp htarget).2 hfound hfar htype)
        · rintro rfl
          exact (hagrees 0 (by omega) _ .here rel hrel).2 (any_of_target_eq_none htarget)
      have hreads := rereads_fields (Node.identity_cut limit)
        (fun rel hrel => (hagrees 0 (by omega) _ .here rel hrel).1) hfar hfields
      rw [if_pos (by simp [hgrown.2]), cut_node]
      exact (hreads.map source.node).of_iff (by simp)

/-! ## Values of a projection -/

section

variable {relVar : String} {inner : Projection}

/-- What holds of all that was found along a relationship holds of the nodes of it. -/
theorem holds_of_mem_farValues {holds holdsFar : Value → Prop}
    (hfound : FoundShaped holds (!rel.shape.isCollection) found)
    (hside : ∀ item far, holds item → farSide? rel item = some far → holdsFar far) {far : Value}
    (h : far ∈ farValues rel found) : holdsFar far := by
  obtain ⟨item, hitem, hfar⟩ := mem_farValues.mp h
  refine hside item far ?_ hfar
  cases hcollection : rel.shape.isCollection with
  | true =>
    rw [hcollection] at hfound
    obtain ⟨items, rfl, hitems⟩ := foundShaped_false.mp hfound
    rw [foundItems_list hcollection] at hitem
    exact hitems item hitem
  | false =>
    rw [hcollection] at hfound
    rcases foundShaped_true.mp hfound with rfl | hvalue
    · simp [foundItems, Value.isNull] at hitem
    · cases hnull : found.isNull with
      | true => simp [foundItems, hnull] at hitem
      | false =>
        rw [foundItems_single hcollection hnull] at hitem
        rwa [List.mem_singleton.mp hitem]

/-- What holds of a value of a projection holds of the far side for the node behind it, if it does
where the relationship is held. -/
theorem holds_of_farSide? {holds : Projection → Value → Prop} {item far : Value}
    (hheld : holds (.relationship relVar (rel.properties.map Property.name) rel.nodeKey inner) item →
      ∃ entries node, item = .map entries ∧ KeyedList.get? entries rel.nodeKey = some node ∧
        holds inner node)
    (h : holds (Projection.far rel relVar inner) item) (hfar : farSide? rel item = some far) :
    holds inner far := by
  cases hshape : rel.shape.isRelationship with
  | true =>
    rw [Projection.far_of_isRelationship hshape] at h
    obtain ⟨entries, node, rfl, hnode, hinner⟩ := hheld h
    obtain ⟨_, ⟨⟩, hget⟩ := exists_held hshape hfar
    rwa [Option.some_inj.mp (hget.symm.trans hnode)]
  | false =>
    rw [farSide?_of_not_isRelationship hshape] at hfar
    rwa [Projection.far_of_not_isRelationship hshape, Option.some_inj.mp hfar] at h

/-- The far side of what has the shape of a projection has that of the node behind it. -/
theorem shaped_of_farSide? {item far : Value}
    (h : (Projection.far rel relVar inner).Shaped registry item)
    (hfar : farSide? rel item = some far) : inner.Shaped registry far := by
  refine holds_of_farSide? ?_ h hfar
  rintro ⟨entries, node, hitem, -, hnode, hshaped⟩
  exact ⟨entries, node, hitem, hnode, hshaped⟩

/-- The far side of what has nothing but what is projected has nothing else either. -/
theorem exact_of_farSide? {item far : Value} (h : (Projection.far rel relVar inner).Exact item)
    (hfar : farSide? rel item = some far) : inner.Exact far :=
  holds_of_farSide? id h hfar

/-- What is under the name of each field has the shape of it. -/
theorem FieldsShaped.of_mem {fields : List EagerField} {entries : Bag}
    (h : FieldsShaped registry fields entries) {field : EagerField} (hfield : field ∈ fields) :
    field.Shaped registry entries := by
  induction fields with
  | nil => cases hfield
  | cons first rest ih =>
    rcases List.mem_cons.mp hfield with rfl | hfield
    · exact h.1
    · exact ih h.2 hfield

/-- What is under the name of each field has nothing but what is projected. -/
theorem FieldsExact.of_mem {fields : List EagerField} {entries : Bag}
    (h : FieldsExact fields entries) {field : EagerField} (hfield : field ∈ fields) :
    field.Exact entries := by
  induction fields with
  | nil => cases hfield
  | cons first rest ih =>
    rcases List.mem_cons.mp hfield with rfl | hfield
    · exact h.1
    · exact ih h.2 hfield

/-- Nothing is found under the name of an eager relationship in what has nothing but the properties
and the markers of a node. -/
theorem get?_eq_none_of_exact {entries : Bag} (hmarkers : model.SparesMarkers)
    (hkeys : KeyedList.keys entries ⊆
      model.visible.map Property.name ++ [identityKey, labelsKey]) (hrel : rel ∈ model.eager) :
    KeyedList.get? entries rel.name = none := by
  have hname : rel.name ∈ model.relationships.map Relationship.name :=
    List.mem_map_of_mem (List.mem_of_mem_filter hrel)
  refine KeyedList.get?_eq_none_iff.mpr fun hkey => ?_
  rcases List.mem_append.mp (hkeys hkey) with hproperty | hmarker
  · exact model.keys_disjoint _ hname ((List.filter_sublist.map _).subset hproperty)
  · exact (hmarkers _ hmarker).2 hname

end

/-- To change no node changes nothing that was loaded. -/
theorem mapNodes_id : NodeField.mapNodes id = id := by
  have hlink : NodeLink.mapOther id = id := by
    funext link
    cases link
    rfl
  funext field
  cases field <;> simp [NodeField.mapNodes, hlink]

section

variable {var : String} {projection : Projection}

/-- The nodes that are found along an eager relationship have the shapes of their own projections,
and nothing else. -/
theorem exists_projection_of_far {fields : List EagerField} {entries : Bag}
    (hfields : List.Forall₂ (fun rel field => Projection.eagerField registry
      (Projection.ofModel registry levels) var model rel = .ok field) model.eager fields)
    (hshaped : FieldsShaped registry fields entries) (hexact : FieldsExact fields entries)
    (hrel : rel ∈ model.eager) :
    ∃ target inner, registry.target rel = .ok target ∧
      Projection.ofModel registry levels (Cypher.nestedVar var rel.name .node) target = .ok inner ∧
      ∀ found, KeyedList.get? entries rel.name = some found → ∀ far ∈ farValues rel found,
        inner.Shaped registry far ∧ inner.Exact far := by
  obtain ⟨field, hfield, hprojected⟩ := exists_of_forall₂_right hfields.flip hrel
  obtain ⟨target, inner, htarget, hinner, rfl⟩ := Projection.eagerField_eq_ok.mp hprojected
  obtain ⟨found, hfound, hfoundShaped⟩ := hshaped.of_mem hfield
  obtain ⟨found', hfound', hfoundExact⟩ := hexact.of_mem hfield
  refine ⟨target, inner, htarget, hinner, fun other hother far hfar => ?_⟩
  obtain rfl := Option.some_inj.mp (hfound.symm.trans hother)
  obtain rfl := Option.some_inj.mp (hfound'.symm.trans hfound)
  exact ⟨holds_of_mem_farValues hfoundShaped (fun _ _ => shaped_of_farSide?) hfar,
    holds_of_mem_farValues hfoundExact (fun _ _ => exact_of_farSide?) hfar⟩

/-- A node of a known type on the last level that was projected is loaded if its type declares no
eager fields, and otherwise the first of them is missing. -/
theorem rereads_last (hmarkers : model.SparesMarkers)
    (hprojection : Projection.ofModel registry 0 var (some model) = .ok projection)
    (hshaped : projection.Shaped registry value) (hexact : projection.Exact value)
    (h : Hydration.node registry 0 true (some model) value = .ok tree) :
    Rereads (fun type => type = model) tree
      (Hydration.node registry (limit + 1) true (some model) value) := by
  cases hprojection
  obtain ⟨entries, rfl, hnode, -⟩ := hshaped
  obtain ⟨_, ⟨⟩, hkeys, -⟩ := hexact
  obtain ⟨source, hsource, rfl, hprojected, hmodel, -⟩ :=
    @exists_readSource registry (some model) entries _ hnode (fun h => absurd h (by simp))
  obtain rfl := hmodel model rfl
  have hmissing := fun rel hrel =>
    @get?_eq_none_of_exact rel source.model _ hmarkers (by simpa using hkeys _ rfl) hrel
  rw [Hydration.node, hsource] at h
  cases h
  rw [node_of_projected hsource hprojected]
  -- Nothing stands under the names of eager fields, so that the first of them is missing.
  cases heager : source.model.eager with
  | nil => exact .loaded fun type htype => htype ▸ heager
  | cons rel rest =>
    have hfails : readEager registry (Hydration.node registry limit) source rel =
        .error (.missingEagerField source.model.name rel.name) := by
      rw [readEager, hmissing rel (by simp [heager])]
    rw [List.mapM_cons, hfails]
    exact .missing rfl (by rw [heager]; rfl)

/-- Under a higher limit the same tree is loaded, unless a node on the last level that was projected
lacks an eager field of its type. -/
theorem rereads_deeper (hlevels : levels < limit)
    (hmodels : ∀ type ∈ registry.models, type.SparesMarkers) (hmarkers : model.SparesMarkers)
    (hprojection : Projection.ofModel registry levels var (some model) = .ok projection)
    (hshaped : projection.Shaped registry value) (hexact : projection.Exact value)
    (h : Hydration.node registry levels true (some model) value = .ok tree) :
    Rereads (HoldsTyped registry levels model value) tree
      (Hydration.node registry limit true (some model) value) := by
  induction levels generalizing limit var model projection value tree with
  | zero =>
    obtain ⟨limit, rfl⟩ : ∃ fewer, limit = fewer + 1 := ⟨limit - 1, by omega⟩
    exact (rereads_last hmarkers hprojection hshaped hexact h).of_iff fun type =>
      holdsTyped_zero.symm
  | succ levels ih =>
    obtain ⟨limit, rfl⟩ : ∃ fewer, limit = fewer + 1 := ⟨limit - 1, by omega⟩
    obtain ⟨fields, hfields, rfl⟩ := Projection.ofModel_succ_eq_ok.mp hprojection
    obtain ⟨entries, rfl, hnode, hfieldsShaped⟩ := hshaped
    obtain ⟨_, ⟨⟩, -, hfieldsExact⟩ := hexact
    obtain ⟨source, hsource, rfl, hprojected, hmodel, -⟩ :=
      @exists_readSource registry (some model) entries _ hnode (fun h => absurd h (by simp))
    obtain rfl := hmodel model rfl
    have hbehind := fun rel hrel =>
      @exists_projection_of_far registry levels rel source.model var fields source.entries hfields
        hfieldsShaped hfieldsExact hrel
    rw [node_of_projected hsource hprojected] at h ⊢
    obtain ⟨loaded, hloaded, rfl⟩ := map_eq_ok.mp h
    have hfar : ∀ rel ∈ source.model.eager, ∀ target found, registry.target rel = .ok target →
        KeyedList.get? source.entries rel.name = some found → ∀ far ∈ farValues rel found, ∀ node,
        Hydration.node registry levels target.isSome target far = .ok node →
        Rereads (fun type => ∃ known, target = some known ∧
            HoldsTyped registry levels known far type)
          (id node) (Hydration.node registry limit target.isSome target far) := by
      intro rel hrel target found htarget hfound far hfar node hnode
      cases target with
      | none =>
        -- A far node without a type is a leaf under both limits.
        rw [Option.isSome_none, node_untyped] at hnode ⊢
        rw [hnode]
        exact .loaded (by simp)
      | some known =>
        obtain ⟨target, inner, htarget', hinner, hfarShaped⟩ := hbehind rel hrel
        cases htarget'.symm.trans htarget
        obtain ⟨hshaped, hexact⟩ := hfarShaped found hfound far hfar
        have hmarkers := hmodels known (mem_models_of_target htarget)
        exact (ih (by omega) hmarkers hinner hshaped hexact hnode).of_iff fun type => by simp
    have hreads := rereads_fields (fun node => (rfl : (id node).identity = node.identity))
      (fun _ _ => rfl) hfar hloaded
    rw [mapNodes_id, KeyedList.mapValues_id] at hreads
    refine (hreads.map source.node).of_iff fun type => ?_
    rw [holdsTyped_succ]
    constructor
    · rintro ⟨rel, hrel, _, found, htarget, hfound, far, hfar, known, rfl, hholds⟩
      exact ⟨rel, hrel, known, found, (target_eq_ok.mp htarget).2, hfound, far, hfar, hholds⟩
    · rintro ⟨rel, hrel, known, found, hregistered, hfound, far, hfar, hholds⟩
      obtain ⟨target, -, htarget, -⟩ := hbehind rel hrel
      obtain rfl := (target_eq_ok.mp htarget).2.symm.trans hregistered
      exact ⟨rel, hrel, _, found, htarget, hfound, far, hfar, known, rfl, hholds⟩

/-- Whatever has the shape of the projection of a type is loaded under the limit it was projected
with. Under a lower limit the same tree is loaded without the eager fields of the nodes below it,
and it does not matter which far ends these have. Under a higher limit the same tree is loaded, or
else an eager field is missing of a node on the last level that was projected, which is the case
exactly if there is a node of known type there whose type declares eager fields. -/
theorem ofValue_of_other_limit {compiled : Nat}
    (hprojection : Projection.ofModel registry (Projection.levels compiled 1) var (some model) =
      .ok projection)
    (hshaped : projection.Shaped registry value) :
    ∃ tree, Node.ofValue registry compiled 1 (some model) value = .ok tree ∧
      (limit ≤ compiled →
        Node.ofValue registry limit 1 (some model) value = .ok (tree.cut limit) ∧
        ∀ other, registry.AgreesOn other limit model value →
          Node.ofValue other limit 1 (some model) value = .ok (tree.cut limit)) ∧
      (compiled < limit → projection.Exact value →
        (∀ type, type = model ∨ type ∈ registry.models → type.SparesMarkers) →
        ((∃ e, Node.ofValue registry limit 1 (some model) value = .error e) ↔
          ∃ type, HoldsTyped registry compiled model value type ∧ type.eager ≠ []) ∧
        (∀ e, Node.ofValue registry limit 1 (some model) value = .error e →
          ∃ type rel, HoldsTyped registry compiled model value type ∧
            type.eager.head? = some rel ∧ e = .missingEagerField type.name rel.name) ∧
        ∀ loaded, Node.ofValue registry limit 1 (some model) value = .ok loaded →
          loaded = tree) := by
  obtain ⟨tree, htree, -⟩ := inverts_projection hprojection hshaped
  refine ⟨tree, htree, fun hlimit => ?_, fun hlimit hexact hspares => ?_⟩
  · have hcut : ∀ other, registry.AgreesOn other limit model value →
        Node.ofValue other limit 1 (some model) value = .ok (tree.cut limit) := by
      intro other hagrees
      have hknown : ∀ known, some model = some known → registry.AgreesOn other limit known value := by
        rintro known ⟨⟩
        exact hagrees
      exact (rereads_cut hlimit hknown (by simp) htree).eq_ok
    exact ⟨hcut registry fun _ _ _ _ _ _ => ⟨rfl, fun _ _ => rfl⟩, hcut⟩
  · have hreads : Rereads (HoldsTyped registry compiled model value) tree
        (Node.ofValue registry limit 1 (some model) value) :=
      rereads_deeper hlimit (fun type htype => hspares type (.inr htype)) (hspares model (.inl rfl))
        hprojection hshaped hexact htree
    exact ⟨hreads.fails_iff, fun _ => hreads.of_error, fun _ => hreads.of_ok⟩

end

/-- The villager is nothing but projected. -/
theorem homeless_exact : villagerProjection.Exact homeless := by
  have hnames : ∀ {properties fields names : List String} {entries : Bag},
      KeyedList.keys entries ⊆ properties ++ [identityKey, labelsKey] ++ fields →
      some properties = some names →
      KeyedList.keys entries ⊆ names ++ [identityKey, labelsKey] ++ fields := by
    rintro properties fields names entries h ⟨⟩
    exact h
  refine ⟨_, rfl, fun _ => hnames (by decide), ⟨_, rfl, _, rfl, ?_⟩, ⟨.null, rfl, .inl rfl⟩, trivial⟩
  intro item hitem
  obtain rfl := List.mem_singleton.mp hitem
  exact ⟨_, _, rfl, rfl, _, rfl, fun _ => hnames (by decide), trivial⟩

/-- A villager who was projected with one friend is loaded alone under the limit zero. Under the
limit two the friends of the friend are missing. -/
theorem homeless_of_other_limit :
    Projection.ofModel village (Projection.levels 1 1) "this" (some villager) =
        .ok villagerProjection ∧
      villagerProjection.Shaped village homeless ∧ villagerProjection.Exact homeless ∧
      (∃ tree, Node.ofValue village 1 1 (some villager) homeless = .ok tree ∧
        Node.ofValue village 0 1 (some villager) homeless = .ok (tree.cut 0)) ∧
      Node.ofValue village 2 1 (some villager) homeless =
        .error (.missingEagerField "Villager" "friends") ∧
      ∃ type, HoldsTyped village 1 villager homeless type ∧ type.eager ≠ [] := by
  have hprojection : Projection.ofModel village (Projection.levels 1 1) "this" (some villager) =
      .ok villagerProjection := rfl
  have hfails : Node.ofValue village 2 1 (some villager) homeless =
      .error (.missingEagerField "Villager" "friends") := rfl
  have hspares : ∀ type, type = villager ∨ type ∈ village.models → type.SparesMarkers := by
    rintro type (rfl | hmem)
    · decide
    · rw [List.mem_singleton.mp hmem]
      decide
  obtain ⟨tree, htree, hlower, -⟩ := @ofValue_of_other_limit village 0 _ _ _ _ 1 hprojection
    homeless_shaped
  obtain ⟨_, -, -, hhigher⟩ := @ofValue_of_other_limit village 2 _ _ _ _ 1 hprojection
    homeless_shaped
  obtain ⟨hiff, -⟩ := hhigher (by decide) homeless_exact hspares
  exact ⟨hprojection, homeless_shaped, homeless_exact, ⟨tree, htree, (hlower (by decide)).1⟩, hfails,
    hiff.mp ⟨_, hfails⟩⟩

end GraphMapper

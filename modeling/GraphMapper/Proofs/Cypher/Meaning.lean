import GraphMapper.Proofs.Cypher.Drafting
import GraphMapper.Proofs.Cypher.Parameters
import GraphMapper.Proofs.Value

/-!
# What a merge of a node does to a store

A store is a list of nodes with labels and properties. A merge of a node finds every node that has
the labels and, under each key of the pattern, an equal value; if there is none, it creates one with
the values of the pattern and those set on creation. Then every node that was found or created gets
the values that are set in any case (`NodeMerge.execute`).

Where nothing that is set lies under a key of the pattern, and the values of the pattern are equal
to themselves, a merge with the same pattern and the same values to set finds the same nodes again,
and leaves the store as it is, whatever it would set on creation (`execute_again`).

A draft is executed by what its statements and its parameters say (`Draft.execute?`), and
`run_entity` says what a draft of the merge of one entity does.
-/

namespace GraphMapper.Cypher

/-- A node in a store. Its properties are kept in order. -/
structure StoredNode where
  labels : List String
  properties : Bag
  ascending : KeyedList.Ascending properties

/-- The nodes of a database. -/
abbrev Store : Type := List StoredNode

namespace StoredNode

/-- A node without properties. -/
def bare (labels : List String) : StoredNode where
  labels := labels
  properties := []
  ascending := by simp [KeyedList.Ascending]

/-- Sets a property, or removes it if the value is null. -/
def assign (node : StoredNode) (entry : String × Value) : StoredNode :=
  if entry.2.isNull then
    { node with
      properties := KeyedList.remove node.properties entry.1
      ascending := KeyedList.remove_ascending node.ascending entry.1 }
  else
    { node with
      properties := KeyedList.put node.properties entry.1 entry.2
      ascending := KeyedList.put_ascending node.ascending entry.1 entry.2 }

/-- Sets properties one after the other. -/
def assignAll (node : StoredNode) (entries : Bag) : StoredNode :=
  entries.foldl assign node

end StoredNode

/-- A merge of a node with a variable: the pattern, what is set on creation, and what is set in any
case. -/
structure NodeMerge where
  var : String
  labels : List String
  inline : Bag
  onCreate : Bag := []
  set : Bag := []

namespace NodeMerge

variable (same : Value → Value → Bool) (merge : NodeMerge)

/-- Whether a node has the labels and the values of the pattern. Nothing is equal to a null. -/
def finds (node : StoredNode) : Bool :=
  (merge.labels.all fun label => node.labels.contains label) &&
    merge.inline.all fun entry => (node.properties.present? entry.1).any (same entry.2)

/-- The node that is created. -/
def created : StoredNode :=
  (StoredNode.bare merge.labels).assignAll (merge.inline ++ merge.onCreate)

/-- The store after the merge, where `same` says which values are equal. -/
def execute (store : Store) : Store :=
  if store.any (merge.finds same) then
    store.map fun node => if merge.finds same node then node.assignAll merge.set else node
  else store ++ [merge.created.assignAll merge.set]

/-- The store where the nodes that are found have the values that are set in any case. -/
def setFound (store : Store) : Store :=
  store.map fun node => if merge.finds same node then node.assignAll merge.set else node

variable {same merge}

/-- Where a node is found, none is created. -/
theorem execute_of_any {store : Store} (h : store.any (merge.finds same) = true) :
    merge.execute same store = merge.setFound same store := by
  rw [execute, if_pos h, setFound]

/-- Where no node is found, one is created. -/
theorem execute_of_none {store : Store} (h : store.any (merge.finds same) = false) :
    merge.execute same store = store ++ [merge.created.assignAll merge.set] := by
  rw [execute, if_neg (by rw [h]; decide)]

/-- Where no node is found, none is set. -/
theorem setFound_of_none {store : Store} (h : store.any (merge.finds same) = false) :
    merge.setFound same store = store := by
  refine (List.map_congr_left fun node hnode => if_neg fun hfound => ?_).trans (List.map_id' store)
  exact Bool.false_ne_true (h.symm.trans (List.any_eq_true.mpr ⟨node, hnode, hfound⟩))

variable (same merge)

/-- At most one node is created, and none is lost. -/
theorem length_execute (store : Store) : store.length ≤ (merge.execute same store).length ∧
    (merge.execute same store).length ≤ store.length + 1 := by
  unfold execute
  split <;> simp

end NodeMerge

section

variable {node : StoredNode} {entries : Bag} {key : String}

/-- Nodes keep their labels. -/
theorem labels_assignAll : (node.assignAll entries).labels = node.labels := by
  induction entries generalizing node with
  | nil => rfl
  | cons entry rest ih =>
    rw [StoredNode.assignAll, List.foldl_cons]
    refine ih.trans ?_
    unfold StoredNode.assign
    split <;> rfl

/-- Values that are not null are stored. -/
theorem properties_assignAll (h : ∀ entry ∈ entries, entry.2.isNull = false) :
    (node.assignAll entries).properties =
      entries.foldl (fun bag entry => KeyedList.put bag entry.1 entry.2) node.properties := by
  induction entries generalizing node with
  | nil => rfl
  | cons entry rest ih =>
    have hassign : (node.assign entry).properties =
        KeyedList.put node.properties entry.1 entry.2 := by
      simp [StoredNode.assign, h entry List.mem_cons_self]
    rw [List.foldl_cons, ← hassign]
    exact ih fun entry hentry => h entry (List.mem_cons_of_mem _ hentry)

/-- What is found in a node after values are set: the values, and what was there. -/
theorem get?_assignAll (h : ∀ entry ∈ entries, entry.2.isNull = false)
    (hnodup : (KeyedList.keys entries).Nodup) (key : String) :
    KeyedList.get? (node.assignAll entries).properties key =
      if key ∈ KeyedList.keys entries then KeyedList.get? entries key
      else KeyedList.get? node.properties key := by
  rw [properties_assignAll h]
  exact KeyedList.get?_foldl_put (fun entry hentry => KeyedList.get?_of_mem hnodup hentry) key

/-- To set values that are there already changes nothing. -/
theorem assignAll_eq_self (h : ∀ entry ∈ entries, entry.2.isNull = false ∧
    KeyedList.get? node.properties entry.1 = some entry.2) : node.assignAll entries = node := by
  induction entries with
  | nil => rfl
  | cons entry rest ih =>
    obtain ⟨hnull, hget⟩ := h entry List.mem_cons_self
    have hassign : node.assign entry = node := by
      simp [StoredNode.assign, hnull, KeyedList.put_eq_self node.ascending hget]
    rw [StoredNode.assignAll, List.foldl_cons, hassign]
    exact ih fun entry hentry => h entry (List.mem_cons_of_mem _ hentry)

end

/-- A merge that leaves its pattern alone: it sets nothing under a key of the pattern, and values of
the pattern are equal to themselves. -/
structure Stable (same : Value → Value → Bool) (merge : NodeMerge) : Prop where
  reflexive : ∀ entry ∈ merge.inline, same entry.2 entry.2
  inline_present : ∀ entry ∈ merge.inline, entry.2.isNull = false
  onCreate_present : ∀ entry ∈ merge.onCreate, entry.2.isNull = false
  set_present : ∀ entry ∈ merge.set, entry.2.isNull = false
  inline_nodup : (KeyedList.keys merge.inline).Nodup
  onCreate_nodup : (KeyedList.keys merge.onCreate).Nodup
  set_nodup : (KeyedList.keys merge.set).Nodup
  onCreate_apart : ∀ key ∈ KeyedList.keys merge.inline, key ∉ KeyedList.keys merge.onCreate
  set_apart : ∀ key ∈ KeyedList.keys merge.inline, key ∉ KeyedList.keys merge.set

section

variable {same : Value → Value → Bool} {merge again : NodeMerge}

/-- A node is found or not as before when values are set under other keys than those of the
pattern. -/
theorem finds_assignAll (h : Stable same merge) (node : StoredNode) :
    merge.finds same (node.assignAll merge.set) = merge.finds same node := by
  unfold NodeMerge.finds
  rw [labels_assignAll]
  congr 1
  refine Bool.eq_iff_iff.mpr ?_
  simp only [List.all_eq_true]
  refine forall₂_congr fun entry hentry => ?_
  have hkey : entry.1 ∉ KeyedList.keys merge.set :=
    h.set_apart entry.1 (List.mem_map_of_mem hentry)
  rw [Bag.present?, Bag.present?, get?_assignAll h.set_present h.set_nodup, if_neg hkey]

/-- The node that a merge creates is found by it. -/
theorem finds_created (h : Stable same merge) : merge.finds same merge.created := by
  have hpresent : ∀ entry ∈ merge.inline ++ merge.onCreate, entry.2.isNull = false := by
    intro entry hentry
    exact (List.mem_append.mp hentry).elim (h.inline_present entry) (h.onCreate_present entry)
  -- No key is given twice, so that nothing overwrites a value of the pattern.
  have hnodup : (KeyedList.keys (merge.inline ++ merge.onCreate)).Nodup := by
    rw [KeyedList.keys, List.map_append]
    refine List.nodup_append.mpr ⟨h.inline_nodup, h.onCreate_nodup, ?_⟩
    rintro key hkey _ hother rfl
    exact h.onCreate_apart key hkey hother
  unfold NodeMerge.finds NodeMerge.created
  rw [labels_assignAll, Bool.and_eq_true, List.all_eq_true, List.all_eq_true]
  refine ⟨fun label hlabel => List.contains_iff_mem.mpr hlabel, fun entry hentry => ?_⟩
  have hmem := List.mem_append_left merge.onCreate hentry
  have hkey : entry.1 ∈ KeyedList.keys (merge.inline ++ merge.onCreate) :=
    List.mem_map_of_mem hmem
  have hget : KeyedList.get? ((StoredNode.bare merge.labels).assignAll
      (merge.inline ++ merge.onCreate)).properties entry.1 = some entry.2 := by
    rw [get?_assignAll hpresent hnodup, if_pos hkey]
    exact KeyedList.get?_of_mem hnodup hmem
  rw [Bag.present?, hget, Option.filter_some, hpresent entry hmem]
  exact h.reflexive entry hentry

/-- To set the same values again changes nothing. -/
theorem assignAll_again (h : Stable same merge) (node : StoredNode) :
    (node.assignAll merge.set).assignAll merge.set = node.assignAll merge.set := by
  refine assignAll_eq_self fun entry hentry => ⟨h.set_present entry hentry, ?_⟩
  have hkey : entry.1 ∈ KeyedList.keys merge.set := List.mem_map_of_mem hentry
  rw [get?_assignAll h.set_present h.set_nodup, if_pos hkey]
  exact KeyedList.get?_of_mem h.set_nodup hentry

/-- The nodes that are found are found again once they are set, and nothing is left to set. -/
theorem setFound_again (h : Stable same merge) (store : Store) :
    merge.setFound same (merge.setFound same store) = merge.setFound same store := by
  rw [NodeMerge.setFound, NodeMerge.setFound, List.map_map]
  refine List.map_congr_left fun node _ => ?_
  rw [Function.comp_apply]
  by_cases hnode : merge.finds same node
  · rw [if_pos hnode, if_pos (by rw [finds_assignAll h, hnode]), assignAll_again h]
  · rw [if_neg hnode, if_neg hnode]

/-- The node that a merge adds is found by it. -/
theorem finds_added (h : Stable same merge) :
    merge.finds same (merge.created.assignAll merge.set) := by
  rw [finds_assignAll h, finds_created h]

/-- After a merge there is a node that it finds. -/
theorem any_execute (h : Stable same merge) (store : Store) :
    (merge.execute same store).any (merge.finds same) = true := by
  refine List.any_eq_true.mpr ?_
  cases hfound : store.any (merge.finds same) with
  | true =>
    obtain ⟨node, hnode, hnodeFound⟩ := List.any_eq_true.mp hfound
    refine ⟨node.assignAll merge.set, ?_, by rw [finds_assignAll h, hnodeFound]⟩
    rw [NodeMerge.execute_of_any hfound]
    exact List.mem_map.mpr ⟨node, hnode, if_pos hnodeFound⟩
  | false =>
    refine ⟨merge.created.assignAll merge.set, ?_, finds_added h⟩
    rw [NodeMerge.execute_of_none hfound]
    exact List.mem_append_right _ (List.mem_singleton_self _)

/-- After a merge nothing is left to set: a node that was found or created has the values. -/
theorem setFound_execute (h : Stable same merge) (store : Store) :
    merge.setFound same (merge.execute same store) = merge.execute same store := by
  cases hfound : store.any (merge.finds same) with
  | true => rw [NodeMerge.execute_of_any hfound, setFound_again h]
  | false =>
    have hstore := NodeMerge.setFound_of_none hfound
    rw [NodeMerge.setFound] at hstore
    rw [NodeMerge.execute_of_none hfound, NodeMerge.setFound, List.map_append, hstore,
      List.map_singleton, if_pos (finds_added h), assignAll_again h]

/-- A merge with the same pattern and the same values to set leaves the store as the first one left
it. -/
theorem execute_again (h : Stable same merge) (hlabels : again.labels = merge.labels)
    (hinline : again.inline = merge.inline) (hset : again.set = merge.set) (store : Store) :
    again.execute same (merge.execute same store) = merge.execute same store := by
  have hfinds : again.finds same = merge.finds same := by
    funext node
    rw [NodeMerge.finds, NodeMerge.finds, hlabels, hinline]
  have hany : (merge.execute same store).any (again.finds same) = true := by
    rw [hfinds, any_execute h]
  calc again.execute same (merge.execute same store)
      = again.setFound same (merge.execute same store) := NodeMerge.execute_of_any hany
    _ = merge.setFound same (merge.execute same store) := by
        rw [NodeMerge.setFound, NodeMerge.setFound, hfinds, hset]
    _ = merge.execute same store := setFound_execute h store

end

/-- What a property pair asks for: its key, and the value of its parameter. -/
def PropertyPair.resolved? (params : Bag) (pair : PropertyPair) : Option (String × Value) :=
  (KeyedList.get? params pair.param).map (pair.key, ·)

/-- What an item assigns to a property of a variable. -/
def SetItem.resolved? (params : Bag) (var : String) : SetItem → Option (String × Value)
  | .value target .assign param =>
    if expressionVar target = var then do
      return (← expressionKey? target, ← KeyedList.get? params param)
    else none
  | _ => none

/-- A statement that merges a node and sets its properties, and does nothing else. -/
def mergeStatement (node : NodePattern) (onCreateSet set : List SetItem) : Statement :=
  { head := .paths .merge, paths := [⟨[.node node]⟩], onCreateSet := onCreateSet, set := set }

/-- The merge of a node that a statement stands for, if it is one. -/
def Statement.nodeMerge? (params : Bag) (s : Statement) : Option NodeMerge :=
  match s.paths with
  | [⟨[.node ⟨some var, labels, pairs⟩]⟩] =>
    if s = mergeStatement ⟨some var, labels, pairs⟩ s.onCreateSet s.set then do
      let inline ← pairs.mapM (PropertyPair.resolved? params)
      let onCreate ← s.onCreateSet.mapM (SetItem.resolved? params var)
      let set ← s.set.mapM (SetItem.resolved? params var)
      return ⟨var, labels, inline, onCreate, set⟩
    else none
  | _ => none

/-- Whether a statement changes nothing in the store. -/
def Statement.onlyReads (s : Statement) : Bool :=
  !(s.head = .paths .create) && !(s.head = .paths .merge) && s.remove.isEmpty &&
    s.onCreateSet.isEmpty && s.onMatchSet.isEmpty && s.set.isEmpty && s.delete.isEmpty &&
    s.detachDelete.isEmpty

/-- The store after a query that merges one node and then only reads. Other queries have no meaning
here. -/
def Draft.execute? (same : Value → Value → Bool) (draft : Draft) (store : Store) : Option Store :=
  match draft.statements with
  | first :: rest =>
    if rest.all Statement.onlyReads then
      (first.nodeMerge? draft.params).map fun merge => merge.execute same store
    else none
  | [] => none

/-- A statement stands for the merge of a node under these parameters. -/
def StandsFor (params : Bag) (s : Statement) (merge : NodeMerge) : Prop :=
  ∃ pairs created assigned,
    s = mergeStatement ⟨some merge.var, merge.labels, pairs⟩ created assigned ∧
    List.Forall₂ (fun pair entry => pair.resolved? params = some entry) pairs merge.inline ∧
    List.Forall₂ (fun item entry => item.resolved? params merge.var = some entry) created
      merge.onCreate ∧
    List.Forall₂ (fun item entry => item.resolved? params merge.var = some entry) assigned merge.set

/-- The open statement of a draft, which is its first one, stands for the merge of a node. -/
def Draft.Merges (draft : Draft) (merge : NodeMerge) : Prop :=
  draft.closed = [] ∧ ∃ s, draft.current = some s ∧ StandsFor draft.params s merge

section

variable {params others : Bag} {var : String} {entry : String × Value}

/-- A property pair asks for the same when more parameters are bound. -/
theorem PropertyPair.resolved?_of_keeps (hkeeps : Keeps params others) {pair : PropertyPair}
    (h : pair.resolved? params = some entry) : pair.resolved? others = some entry := by
  obtain ⟨value, hvalue, rfl⟩ := Option.map_eq_some_iff.mp h
  rw [PropertyPair.resolved?, hkeeps _ _ hvalue]
  rfl

/-- An item assigns the same when more parameters are bound. -/
theorem SetItem.resolved?_of_keeps (hkeeps : Keeps params others) {item : SetItem}
    (h : item.resolved? params var = some entry) : item.resolved? others var = some entry := by
  unfold SetItem.resolved? at h ⊢
  split at h
  · split at h
    · next hvar =>
      obtain ⟨key, hkey, h⟩ := Option.bind_eq_some_iff.mp h
      obtain ⟨value, hvalue, h⟩ := Option.bind_eq_some_iff.mp h
      rw [if_pos hvar, hkey, hkeeps _ _ hvalue]
      exact h
    · cases h
  · cases h

/-- A statement stands for the same merge when more parameters are bound. -/
theorem StandsFor.keeps (hkeeps : Keeps params others) {s : Statement} {merge : NodeMerge}
    (h : StandsFor params s merge) : StandsFor others s merge := by
  obtain ⟨pairs, created, assigned, hs, hinline, hcreated, hassigned⟩ := h
  exact ⟨pairs, created, assigned, hs,
    hinline.imp fun _ _ => PropertyPair.resolved?_of_keeps hkeeps,
    hcreated.imp fun _ _ => SetItem.resolved?_of_keeps hkeeps,
    hassigned.imp fun _ _ => SetItem.resolved?_of_keeps hkeeps⟩

/-- An item that sets a property of a variable to a parameter assigns the value of that. -/
theorem SetItem.resolved?_property (hvar : isIdentifier var.toList) {key param : String}
    {value : Value} (hvalue : KeyedList.get? params param = some value) :
    (SetItem.value (Step.property var key) .assign param).resolved? params var =
      some (key, value) := by
  simp [SetItem.resolved?, expressionVar_property hvar, expressionKey?_property hvar, hvalue]

end

section

variable {draft : Draft} {merge : NodeMerge}

/-- The pairs of a node pattern ask for the properties that are not null. -/
theorem entries_addProperties (draft : Draft) (var : String) (properties : Bag) :
    Keeps draft.params (draft.addProperties var properties).2.params ∧
      List.Forall₂ (fun pair entry =>
        pair.resolved? (draft.addProperties var properties).2.params = some entry)
        (draft.addProperties var properties).1 (Bag.nonNull properties) := by
  induction properties generalizing draft with
  | nil => exact ⟨fun _ _ h => h, .nil⟩
  | cons entry rest ih =>
    obtain ⟨key, value⟩ := entry
    simp only [Draft.addProperties, Bag.nonNull, List.filter_cons]
    cases hnull : value.isNull with
    | true => exact ih draft
    | false =>
      obtain ⟨hbound, hfirst⟩ := addParam_keeps draft (var ++ "_" ++ key) value
      obtain ⟨hkeeps, hentries⟩ := ih (draft.addParam (var ++ "_" ++ key) value).2
      refine ⟨fun name held h => hkeeps name held (hfirst name held h), .cons ?_ hentries⟩
      exact congrArg (Option.map (key, ·)) (hkeeps _ _ hbound)

/-- A draft begins with a merge of a node. -/
theorem merges_start {var : String} (hvar : isIdentifier var.toList) (labels : List String)
    {inline : Bag} (hinline : ∀ entry ∈ inline, entry.2.isNull = false) :
    ∃ after, Draft.step {} (.start .merge var labels inline) = .ok after ∧
      after.Merges { var := var, labels := labels, inline := inline } := by
  have hne : var ≠ "" := by
    rintro rfl
    simp [isIdentifier] at hvar
  obtain ⟨-, hentries⟩ := entries_addProperties {} var inline
  obtain ⟨hclosed, hcurrent⟩ := addProperties_keeps {} var inline
  rw [nonNull_eq_self hinline] at hentries
  refine ⟨_, rfl, ?_, _, rfl, _, [], [], ?_, hentries, .nil, .nil⟩
  · simp [Draft.openStatement, hclosed, hcurrent]
  · simp [mergeStatement, hne]

/-- Steps that assign the entries of a bag to the properties of a variable add an item for each. -/
theorem exists_run_assign (assign : String → Value → Step)
    (add : SetItem → Statement → Statement)
    (hassign : ∀ (draft : Draft) target value, draft.step (assign target value) =
      draft.modifyWith ("set_" ++ target) value fun name => add (.value target .assign name))
    {var : String} (hvar : isIdentifier var.toList) (entries : Bag) {s : Statement}
    (hcurrent : draft.current = some s) :
    ∃ after items,
      draft.run (entries.map fun entry => assign (Step.property var entry.1) entry.2) =
        .ok after ∧
      after.closed = draft.closed ∧
      after.current = some (items.foldl (fun s item => add item s) s) ∧
      Keeps draft.params after.params ∧
      List.Forall₂ (fun item entry => item.resolved? after.params var = some entry) items
        entries := by
  induction entries generalizing draft s with
  | nil => exact ⟨draft, [], rfl, rfl, hcurrent, fun _ _ h => h, .nil⟩
  | cons entry rest ih =>
    obtain ⟨mid, name, hstep, hclosed, hmid, hkeeps, hbound⟩ :=
      exists_modifyWith hcurrent ("set_" ++ Step.property var entry.1) entry.2
        fun name => add (.value (Step.property var entry.1) .assign name)
    obtain ⟨after, items, hrun, hclosed', hafter, hkeeps', hitems⟩ := ih hmid
    refine ⟨after, .value (Step.property var entry.1) .assign name :: items,
      run_cons_eq_ok ((hassign draft _ _).trans hstep) hrun, hclosed'.trans hclosed, hafter,
      fun key value h => hkeeps' key value (hkeeps key value h), .cons ?_ hitems⟩
    exact SetItem.resolved?_property hvar (hkeeps' _ _ hbound)

/-- Values are set on creation by items in their order. -/
theorem exists_run_createProperties {var : String} (hvar : isIdentifier var.toList)
    (properties : Bag) {s : Statement} (hcurrent : draft.current = some s) :
    ∃ after items, draft.run (Step.createProperties var properties) = .ok after ∧
      after.closed = draft.closed ∧
      after.current = some { s with onCreateSet := s.onCreateSet ++ items } ∧
      Keeps draft.params after.params ∧
      List.Forall₂ (fun item entry => item.resolved? after.params var = some entry) items
        properties := by
  have hfold : ∀ (items : List SetItem) (s : Statement), items.foldl
      (fun s item => { s with onCreateSet := s.onCreateSet ++ [item] }) s =
        { s with onCreateSet := s.onCreateSet ++ items } := by
    intro items
    induction items with
    | nil => simp
    | cons item rest ih => exact fun s => by simp [ih]
  obtain ⟨after, items, hrun, hclosed, hafter, hkeeps, hitems⟩ := exists_run_assign .onCreateSet
    (fun item s => { s with onCreateSet := s.onCreateSet ++ [item] }) (fun _ _ _ => rfl) hvar
    properties hcurrent
  exact ⟨after, items, hrun, hclosed, hafter.trans (congrArg some (hfold items s)), hkeeps, hitems⟩

/-- Values are set in any case by items in their order. -/
theorem exists_run_setProperties {var : String} (hvar : isIdentifier var.toList)
    (properties : Bag) {s : Statement} (hcurrent : draft.current = some s) :
    ∃ after items, draft.run (Step.setProperties var properties) = .ok after ∧
      after.closed = draft.closed ∧ after.current = some { s with set := s.set ++ items } ∧
      Keeps draft.params after.params ∧
      List.Forall₂ (fun item entry => item.resolved? after.params var = some entry) items
        properties := by
  have hfold : ∀ (items : List SetItem) (s : Statement), items.foldl
      (fun s item => { s with set := s.set ++ [item] }) s = { s with set := s.set ++ items } := by
    intro items
    induction items with
    | nil => simp
    | cons item rest ih => exact fun s => by simp [ih]
  obtain ⟨after, items, hrun, hclosed, hafter, hkeeps, hitems⟩ := exists_run_assign .set
    (fun item s => { s with set := s.set ++ [item] }) (fun _ _ _ => rfl) hvar properties hcurrent
  exact ⟨after, items, hrun, hclosed, hafter.trans (congrArg some (hfold items s)), hkeeps, hitems⟩

/-- Values that are set on creation are more of those. -/
theorem merges_createProperties (hvar : isIdentifier merge.var.toList) (h : draft.Merges merge)
    (onCreate : Bag) :
    ∃ after, draft.run (Step.createProperties merge.var onCreate) = .ok after ∧
      after.Merges { merge with onCreate := merge.onCreate ++ onCreate } := by
  obtain ⟨hclosed, s, hcurrent, hs⟩ := h
  obtain ⟨after, items, hrun, hclosed', hafter, hkeeps, hitems⟩ :=
    exists_run_createProperties hvar onCreate hcurrent
  obtain ⟨pairs, created, assigned, rfl, hinline, hcreated, hassigned⟩ := hs.keeps hkeeps
  exact ⟨after, hrun, hclosed'.trans hclosed, _, hafter, pairs, _, assigned, rfl, hinline,
    List.rel_append hcreated hitems, hassigned⟩

/-- Values that are set in any case are more of those. -/
theorem merges_setProperties (hvar : isIdentifier merge.var.toList) (h : draft.Merges merge)
    (set : Bag) :
    ∃ after, draft.run (Step.setProperties merge.var set) = .ok after ∧
      after.Merges { merge with set := merge.set ++ set } := by
  obtain ⟨hclosed, s, hcurrent, hs⟩ := h
  obtain ⟨after, items, hrun, hclosed', hafter, hkeeps, hitems⟩ :=
    exists_run_setProperties hvar set hcurrent
  obtain ⟨pairs, created, assigned, rfl, hinline, hcreated, hassigned⟩ := hs.keeps hkeeps
  exact ⟨after, hrun, hclosed'.trans hclosed, _, hafter, pairs, created, _, rfl, hinline, hcreated,
    List.rel_append hassigned hitems⟩

/-- The merge that a statement stands for is read off it. -/
theorem nodeMerge?_of_standsFor {params : Bag} {s : Statement} (h : StandsFor params s merge) :
    s.nodeMerge? params = some merge := by
  obtain ⟨pairs, created, assigned, rfl, hinline, hcreated, hassigned⟩ := h
  simp only [Statement.nodeMerge?, mergeStatement, if_true, mapM_eq_some.mpr hinline,
    mapM_eq_some.mpr hcreated, mapM_eq_some.mpr hassigned]
  rfl

/-- The query that writes one entity, and then returns it, does what the merge of the entity
does. -/
theorem run_entity {var : String} (hvar : isIdentifier var.toList) (labels : List String)
    {inline : Bag} (hinline : ∀ entry ∈ inline, entry.2.isNull = false) (onCreate set : Bag)
    (expressions : List String) :
    ∃ draft, Draft.run {} (.start .merge var labels inline :: Step.createProperties var onCreate ++
        Step.setProperties var set ++ [.carry [var], .returning expressions]) = .ok draft ∧
      ∀ same store, draft.execute? same store =
        some (NodeMerge.execute same ⟨var, labels, inline, onCreate, set⟩ store) := by
  obtain ⟨first, hstart, hfirst⟩ := merges_start hvar labels hinline
  obtain ⟨second, hcreate, hsecond⟩ := merges_createProperties hvar hfirst onCreate
  obtain ⟨third, hset, hclosed, s, hcurrent, hs⟩ := merges_setProperties hvar hsecond set
  refine ⟨_, run_append_eq_ok (run_append_eq_ok (run_cons_eq_ok hstart hcreate) hset) rfl,
    fun same store => ?_⟩
  have hmerge := nodeMerge?_of_standsFor hs
  simp [Draft.execute?, Draft.statements, Draft.openStatement, hclosed, hcurrent, hmerge,
    Statement.onlyReads]

end

end GraphMapper.Cypher

import GraphMapper.Proofs.Cypher.Meaning
import Mathlib.Logic.Relation

/-!
# What a query writes of nodes

A statement may create a node, merge one, or set properties of the one with an identity
(`NodeWrite`). `Draft.nodeWrites?` reads the writes off the statements of a draft and its
parameters; it has an answer where every other statement only reads, or joins two nodes and sets
properties of the relationship alone.

A write changes a store (`NodeWrite.execute`), and a query changes it by its writes
(`Draft.Changes`): a statement takes place once for each row, so that every write may take place any
number of times, and in what order is left open.

`Adds` says of steps that, from any draft, they can be taken and add statements with these writes.
The groups of steps that a payload is written by add one statement each (`adds_entity`,
`adds_found`, `adds_link`, `adds_carry`), and so do those of an update (`adds_update`).

Through any writes a node stays where it is, with its labels and with what it has under the keys
that none of them clears (`exists_of_writes`), and a node that is new is one that a write has
created (`exists_write_of_writes`).
-/

namespace GraphMapper.Cypher

/-- What a statement writes of a node. -/
inductive NodeWrite where
  /-- A node is created. -/
  | create (node : NodeMerge)
  /-- A node is merged. -/
  | merge (node : NodeMerge)
  /-- The node with an identity gets the values that are set in any case, if it fits. -/
  | update (identity : Identity) (node : NodeMerge)

/-- Everything that is written under a key, in its order. -/
def NodeMerge.entries (merge : NodeMerge) : Bag :=
  merge.inline ++ merge.onCreate ++ merge.set

namespace NodeWrite

/-- The pattern of the node, and what is set. -/
def node : NodeWrite → NodeMerge
  | .create node | .merge node | .update _ node => node

/-- The store after the write. The identity of a node is its place in the store. -/
def execute (same : Value → Value → Bool) : NodeWrite → Store → Store
  | .create node, store => store ++ [node.created.assignAll node.set]
  | .merge node, store => node.execute same store
  | .update identity node, store => store.mapIdx fun place held =>
    if (place : Int) = identity.toInt ∧ node.finds same held then held.assignAll node.set else held

/-- Whether the write may reach the node at a place. -/
def Reaches (place : Nat) : NodeWrite → Prop
  | .create _ | .merge _ => True
  | .update identity _ => (place : Int) = identity.toInt

/-- The write may leave the node at a place without a value under a key. -/
def Clears (place : Nat) (key : String) (write : NodeWrite) : Prop :=
  write.Reaches place ∧ (key, Value.null) ∈ write.node.entries

end NodeWrite

/-- The identity that a filter asks of a variable, if it asks for nothing else. -/
def Filter.identity? (params : Bag) (var : String) (filter : Filter) : Option Identity :=
  match filter.groups with
  | [⟨_, _, [⟨.identity asked param, false⟩]⟩] =>
    if asked = var then (KeyedList.get? params param).bind Value.int? else none
  | _ => none

/-- The write of a node by a verb, if it is one. Only a merge sets anything on creation, and only
what is found is found by a filter. -/
def NodeWrite.ofVerb? (params : Bag) (filter : Filter) (node : NodeMerge) : Verb → Option NodeWrite
  | .create => if filter.groups.isEmpty && node.onCreate.isEmpty then some (.create node) else none
  | .merge => if filter.groups.isEmpty then some (.merge node) else none
  | .find =>
    if node.onCreate.isEmpty then (filter.identity? params node.var).map (.update · node) else none
  | .findOptional => none

/-- Whether a node pattern has nothing but a variable. -/
def NodePattern.isBare (node : NodePattern) : Bool :=
  node.labels.isEmpty && node.properties.isEmpty

namespace Statement

/-- Whether a statement only sets properties, if it is to change any that are there. -/
def onlySets (s : Statement) : Bool :=
  s.remove.isEmpty && s.onMatchSet.isEmpty && s.delete.isEmpty && s.detachDelete.isEmpty

/-- The node that a statement writes of, if it is one. -/
def nodeMergeOf? (params : Bag) (s : Statement) (var : String) (labels : List String)
    (pairs : List PropertyPair) : Option NodeMerge := do
  let inline ← pairs.mapM (PropertyPair.resolved? params)
  let onCreate ← s.onCreateSet.mapM (SetItem.resolved? params var)
  let set ← s.set.mapM (SetItem.resolved? params var)
  return ⟨var, labels, inline, onCreate, set⟩

/-- What a statement writes of nodes. There is no answer where it may write in another way. -/
def nodeWrites? (params : Bag) (s : Statement) : Option (List NodeWrite) :=
  if s.onlyReads then some []
  else if s.onlySets then
    match s.head, s.paths with
    | .paths verb, [⟨[.node ⟨some var, labels, pairs⟩]⟩] =>
      (s.nodeMergeOf? params var labels pairs).bind fun node =>
        (NodeWrite.ofVerb? params s.filter node verb).map ([·])
    | .paths _, [⟨[.node near, .relationship ⟨some var, _, _, _⟩, .node far]⟩] =>
      -- Both ends are known, and what is set are properties of the relationship.
      if near.isBare && far.isBare && s.onCreateSet.isEmpty &&
        s.set.all (fun item => item.var? = some var) then some [] else none
    | _, _ => none
  else none

end Statement

/-- What statements write of nodes, in order. -/
def nodeWritesOf? (params : Bag) (statements : List Statement) : Option (List NodeWrite) :=
  (statements.mapM (Statement.nodeWrites? params)).map List.flatten

/-- What the query of a draft writes of nodes, in order. -/
def Draft.nodeWrites? (draft : Draft) : Option (List NodeWrite) :=
  nodeWritesOf? draft.params draft.statements

/-- One of the writes, of which `among` holds, takes the store from one state to the next. -/
def WriteStep (same : Value → Value → Bool) (among : NodeWrite → Prop) (before after : Store) :
    Prop :=
  ∃ write, among write ∧ after = write.execute same before

/-- The query of a draft may take the store from one state to the other. -/
def Draft.Changes (same : Value → Value → Bool) (draft : Draft) (before after : Store) : Prop :=
  ∃ writes, draft.nodeWrites? = some writes ∧
    Relation.ReflTransGen (WriteStep same (· ∈ writes)) before after

/-! ## What steps add -/

/-- From any draft, steps can be taken and add statements that write this of nodes. -/
def Adds (steps : List Step) (writes : List NodeWrite) : Prop :=
  ∀ draft : Draft, ∃ after added, draft.run steps = .ok after ∧
    after.statements = draft.statements ++ added ∧ Keeps draft.params after.params ∧
    ∀ params, Keeps after.params params → nodeWritesOf? params added = some writes

section

variable {steps more : List Step} {writes others : List NodeWrite} {params : Bag}

/-- Statements in two lists write what those of each list do. -/
theorem nodeWritesOf?_append {first last : List Statement}
    (hfirst : nodeWritesOf? params first = some writes)
    (hlast : nodeWritesOf? params last = some others) :
    nodeWritesOf? params (first ++ last) = some (writes ++ others) := by
  obtain ⟨lists, hlists, rfl⟩ := Option.map_eq_some_iff.mp hfirst
  obtain ⟨lists', hlists', rfl⟩ := Option.map_eq_some_iff.mp hlast
  have hboth := List.rel_append (mapM_eq_some.mp hlists) (mapM_eq_some.mp hlists')
  rw [nodeWritesOf?, mapM_eq_some.mpr hboth, Option.map_some, List.flatten_append]

/-- One statement writes what it writes. -/
theorem nodeWritesOf?_singleton {s : Statement} (h : s.nodeWrites? params = some writes) :
    nodeWritesOf? params [s] = some writes := by
  rw [nodeWritesOf?, mapM_eq_some.mpr (.cons h .nil), Option.map_some, List.flatten_singleton]

/-- No steps add nothing. -/
theorem adds_nil : Adds [] [] :=
  fun draft => ⟨draft, [], rfl, by simp, fun _ _ h => h, fun _ _ => rfl⟩

/-- Steps one after the other add what each of them do. -/
theorem Adds.append (h : Adds steps writes) (hmore : Adds more others) :
    Adds (steps ++ more) (writes ++ others) := by
  intro draft
  obtain ⟨mid, added, hrun, hstatements, hkeeps, hadded⟩ := h draft
  obtain ⟨after, later, hrun', hstatements', hkeeps', hlater⟩ := hmore mid
  refine ⟨after, added ++ later, run_append_eq_ok hrun hrun', ?_,
    fun key value hkey => hkeeps' key value (hkeeps key value hkey), fun params hparams => ?_⟩
  · rw [hstatements', hstatements, List.append_assoc]
  · exact nodeWritesOf?_append
      (hadded params fun key value hkey => hparams key value (hkeeps' key value hkey))
      (hlater params hparams)

/-- Steps that add one statement add what it writes. -/
theorem adds_of_statement (h : ∀ draft : Draft, ∃ after s, draft.run steps = .ok after ∧
      after.closed = draft.statements ∧ after.current = some s ∧ Keeps draft.params after.params ∧
      ∀ params, Keeps after.params params → s.nodeWrites? params = some writes) :
    Adds steps writes := by
  intro draft
  obtain ⟨after, s, hrun, hclosed, hcurrent, hkeeps, hs⟩ := h draft
  refine ⟨after, [s], hrun, ?_, hkeeps, fun params hparams =>
    nodeWritesOf?_singleton (hs params hparams)⟩
  rw [Draft.statements, hclosed, hcurrent]
  rfl

/-- The query of steps that begin with nothing writes what they add. -/
theorem Adds.nodeWrites? (h : Adds steps writes) {draft : Draft}
    (hrun : Draft.run {} steps = .ok draft) : draft.nodeWrites? = some writes := by
  obtain ⟨after, added, hrun', hstatements, -, hadded⟩ := h {}
  rw [hrun] at hrun'
  cases hrun'
  rw [Draft.nodeWrites?, hstatements]
  exact hadded draft.params fun _ _ h => h

end

section

variable {draft : Draft} {var : String}

/-- The open statement can be changed. -/
theorem modify_eq_ok {s : Statement} (hcurrent : draft.current = some s)
    (change : Statement → Statement) :
    draft.modify change = .ok { draft with current := some (change s) } := by
  rw [Draft.modify, hcurrent]

/-- A statement that is started with a node, under a variable, has the pairs of its properties. -/
theorem exists_start (draft : Draft) (hvar : isIdentifier var.toList) (verb : Verb)
    (labels : List String) {inline : Bag} (hinline : ∀ entry ∈ inline, entry.2.isNull = false) :
    ∃ after pairs, draft.step (.start verb var labels inline) = .ok after ∧
      after.closed = draft.statements ∧
      after.current = some (pathStatement verb [.node ⟨some var, labels, pairs⟩]) ∧
      Keeps draft.params after.params ∧
      List.Forall₂ (fun pair entry => pair.resolved? after.params = some entry) pairs inline := by
  have hne : var ≠ "" := by
    rintro rfl
    simp [isIdentifier] at hvar
  obtain ⟨hkeeps, hentries⟩ := entries_addProperties draft var inline
  obtain ⟨hclosed, hcurrent⟩ := addProperties_keeps draft var inline
  rw [nonNull_eq_self hinline] at hentries
  refine ⟨_, (draft.addProperties var inline).1, rfl, ?_, ?_, hkeeps, hentries⟩
  · simp [Draft.openStatement, Draft.statements, hclosed, hcurrent]
  · simp [Draft.openStatement, pathStatement, hne]

/-- An item that assigns to a property of a variable writes to that variable. -/
theorem SetItem.var?_of_resolved? {params : Bag} {item : SetItem} {entry : String × Value}
    (h : item.resolved? params var = some entry) : item.var? = some var := by
  unfold SetItem.resolved? at h
  split at h
  · split at h
    · next hvar => exact congrArg some hvar
    · cases h
  · cases h

/-- Variables that are taken over write nothing. -/
theorem adds_carry (vars : List String) : Adds [.carry vars] [] := by
  refine adds_of_statement fun draft => ⟨_, _, rfl, rfl, rfl, fun _ _ h => h, fun params _ => ?_⟩
  simp [Statement.nodeWrites?, Statement.onlyReads]

/-- Variables that are taken over to be returned write nothing. -/
theorem adds_returning (vars expressions : List String) :
    Adds [.carry vars, .returning expressions] [] := by
  refine adds_of_statement fun draft => ⟨_, _, rfl, rfl, rfl, fun _ _ h => h, fun params _ => ?_⟩
  simp [Statement.nodeWrites?, Statement.onlyReads]

/-- A statement that creates or merges an entity writes it. -/
theorem adds_entity {verb : Verb} {write : NodeMerge → NodeWrite}
    (hverb : verb = .create ∧ write = .create ∨ verb = .merge ∧ write = .merge)
    (hvar : isIdentifier var.toList) (labels : List String) {inline : Bag}
    (hinline : ∀ entry ∈ inline, entry.2.isNull = false) (onCreate set : Bag)
    (hmerge : onCreate ≠ [] → verb = .merge) :
    Adds (.start verb var labels inline :: Step.createProperties var onCreate ++
      Step.setProperties var set) [write ⟨var, labels, inline, onCreate, set⟩] := by
  refine adds_of_statement fun draft => ?_
  obtain ⟨first, pairs, hstart, hclosed, hfirst, hkeeps, hpairs⟩ :=
    exists_start draft hvar verb labels hinline
  obtain ⟨second, created, hcreate, hclosed', hsecond, hkeeps', hcreated⟩ :=
    exists_run_createProperties hvar onCreate hfirst
  obtain ⟨after, assigned, hset, hclosed'', hafter, hkeeps'', hassigned⟩ :=
    exists_run_setProperties hvar set hsecond
  refine ⟨after, _, run_append_eq_ok (run_cons_eq_ok hstart hcreate) hset,
    hclosed''.trans (hclosed'.trans hclosed), hafter,
    fun key value h => hkeeps'' key value (hkeeps' key value (hkeeps key value h)),
    fun params hparams => ?_⟩
  -- What is read off under the last parameters was bound on the way.
  have hinlineParams := mapM_eq_some.mpr (hpairs.imp fun _ _ => PropertyPair.resolved?_of_keeps
    fun key value h => hparams key value (hkeeps'' key value (hkeeps' key value h)))
  have hcreatedParams := mapM_eq_some.mpr (hcreated.imp fun _ _ => SetItem.resolved?_of_keeps
    fun key value h => hparams key value (hkeeps'' key value h))
  have hassignedParams := mapM_eq_some.mpr (hassigned.imp fun _ _ =>
    SetItem.resolved?_of_keeps hparams)
  rcases hverb with ⟨rfl, rfl⟩ | ⟨rfl, rfl⟩
  · obtain rfl : onCreate = [] := by
      by_contra hne
      exact absurd (hmerge hne) (by decide)
    simp [Statement.nodeWrites?, Statement.onlyReads, Statement.onlySets, Statement.nodeMergeOf?,
      pathStatement, NodeWrite.ofVerb?, hinlineParams, hcreatedParams, hassignedParams]
  · simp [Statement.nodeWrites?, Statement.onlyReads, Statement.onlySets, Statement.nodeMergeOf?,
      pathStatement, NodeWrite.ofVerb?, hinlineParams, hcreatedParams, hassignedParams]

/-- A statement that finds an entity by its identity writes nothing. -/
theorem adds_found (hvar : isIdentifier var.toList) (identity : Identity) :
    Adds [.start .find var [] [], .whereId var identity] [] := by
  refine adds_of_statement fun draft => ?_
  obtain ⟨first, pairs, hstart, hclosed, hfirst, hkeeps, -⟩ :=
    exists_start draft hvar .find [] fun _ hentry => absurd hentry List.not_mem_nil
  obtain ⟨after, name, hwhere, hclosed', hafter, hkeeps', -⟩ :=
    exists_modifyWith hfirst ("where_id_" ++ var) (.int identity)
      fun name => Draft.addPredicate (.identity var name) false
  refine ⟨after, _, run_cons_eq_ok hstart (run_cons_eq_ok hwhere rfl), hclosed'.trans hclosed,
    hafter, fun key value h => hkeeps' key value (hkeeps key value h), fun params _ => ?_⟩
  simp [Statement.nodeWrites?, Statement.onlyReads, Draft.addPredicate, pathStatement]

/-- A statement that joins two entities writes nothing of them. -/
theorem adds_link (verb : Verb) {near far : String} (hnear : isIdentifier near.toList)
    (hfar : isIdentifier far.toList) (hvar : isIdentifier var.toList) (type : String)
    (direction : Direction) (properties : Bag) :
    Adds ([.start verb near [] [], .relationship (some var) [type] direction none,
      .to far [] []] ++ Step.setProperties var properties) [] := by
  refine adds_of_statement fun draft => ?_
  obtain ⟨opened, pairs, hstart, hclosed, hopened, hkeeps, hpairs⟩ :=
    exists_start draft hnear verb [] fun _ hentry => absurd hentry List.not_mem_nil
  cases hpairs
  have hne : far ≠ "" := by
    rintro rfl
    simp [isIdentifier] at hfar
  have hjoin : opened.run [.relationship (some var) [type] direction none, .to far [] []] =
      .ok { opened with current := some (pathStatement verb [.node ⟨some near, [], []⟩,
        .relationship ⟨some var, [type], direction, none⟩, .node ⟨some far, [], []⟩]) } := by
    simp [Draft.run, Draft.step, Draft.extendPath, Draft.nodePattern, Draft.addProperties, hopened,
      pathStatement, hne]
    rfl
  obtain ⟨after, items, hset, hclosed', hafter, hkeeps', hitems⟩ :=
    @exists_run_setProperties { opened with current := _ } var hvar properties _ rfl
  refine ⟨after, _, run_append_eq_ok (run_cons_eq_ok hstart hjoin) hset, hclosed'.trans hclosed,
    hafter, fun key value h => hkeeps' key value (hkeeps key value h), fun params _ => ?_⟩
  have hvars : ∀ item ∈ items, item.var? = some var := by
    intro item hitem
    obtain ⟨entry, -, hentry⟩ := exists_of_forall₂_right hitems.flip hitem
    exact SetItem.var?_of_resolved? hentry
  simpa [Statement.nodeWrites?, Statement.onlySets, pathStatement, NodePattern.isBare] using
    fun _ => hvars

/-- A statement that finds an entity by its identity, sets its properties and returns it writes what
is set, if anything is. -/
theorem adds_update (hvar : isIdentifier var.toList) (labels : List String) (identity : Identity)
    (set : Bag) (expressions : List String) :
    Adds ([.start .find var labels [], .whereId var identity] ++ Step.setProperties var set ++
        [.returning expressions])
      (if set.isEmpty then [] else [.update identity ⟨var, labels, [], [], set⟩]) := by
  refine adds_of_statement fun draft => ?_
  obtain ⟨first, pairs, hstart, hclosed, hfirst, hkeeps, hpairs⟩ :=
    exists_start draft hvar .find labels fun _ hentry => absurd hentry List.not_mem_nil
  cases hpairs
  obtain ⟨second, name, hwhere, hclosed', hsecond, hkeeps', hname⟩ :=
    exists_modifyWith hfirst ("where_id_" ++ var) (.int identity)
      fun name => Draft.addPredicate (.identity var name) false
  obtain ⟨third, items, hset, hclosed'', hthird, hkeeps'', hitems⟩ :=
    exists_run_setProperties hvar set hsecond
  have hreturn : third.step (.returning expressions) = _ := modify_eq_ok hthird _
  refine ⟨_, _, run_append_eq_ok (run_append_eq_ok (run_cons_eq_ok hstart (run_cons_eq_ok hwhere
    rfl)) hset) (run_cons_eq_ok hreturn rfl), hclosed''.trans (hclosed'.trans hclosed), rfl,
    fun key value h => hkeeps'' key value (hkeeps' key value (hkeeps key value h)),
    fun params hparams => ?_⟩
  have hidentity := hparams _ _ (hkeeps'' _ _ hname)
  have hset := mapM_eq_some.mpr (hitems.imp fun _ _ => SetItem.resolved?_of_keeps hparams)
  cases hitems with
  | nil => simp [Statement.nodeWrites?, Statement.onlyReads, Draft.addPredicate, pathStatement]
  | cons hitem hrest =>
    simp [Statement.nodeWrites?, Statement.onlyReads, Statement.onlySets, Statement.nodeMergeOf?,
      Draft.addPredicate, Filter.add, Filter.identity?, NodeWrite.ofVerb?, pathStatement, hset,
      hidentity, Value.int?]

end

/-! ## What nodes keep -/

/-- A node keeps its labels, and a value under each of some keys where it has one. -/
structure StoredNode.Retains (spared : String → Prop) (before after : StoredNode) : Prop where
  labels : after.labels = before.labels
  present : ∀ key, spared key → (before.properties.present? key).isSome →
    (after.properties.present? key).isSome

/-- No write clears the key at the place. -/
def Spared (among : NodeWrite → Prop) (place : Nat) (key : String) : Prop :=
  ∀ write, among write → ¬ write.Clears place key

section

variable {spared : String → Prop} {node old : StoredNode} {entries : Bag} {key : String}

/-- What is kept twice is kept. -/
theorem StoredNode.Retains.trans {mid after : StoredNode} (h : old.Retains spared mid)
    (hmore : mid.Retains spared after) : old.Retains spared after :=
  ⟨hmore.labels.trans h.labels, fun key hkey hold =>
    hmore.present key hkey (h.present key hkey hold)⟩

/-- A value that is set is there. -/
theorem present?_assign {value : Value} (hvalue : value.isNull = false) :
    (node.assign (key, value)).properties.present? key = some value := by
  simp [StoredNode.assign, hvalue, Bag.present?, KeyedList.get?_put]

/-- A node keeps its values when others are set. -/
theorem isSome_present?_assign {entry : String × Value} (hentry : entry ≠ (key, .null))
    (h : (node.properties.present? key).isSome) :
    ((node.assign entry).properties.present? key).isSome := by
  obtain ⟨name, value⟩ := entry
  by_cases hname : name = key
  · subst hname
    have hvalue : value.isNull = false := by
      refine Bool.eq_false_iff.mpr fun hnull => hentry ?_
      rw [Value.isNull_iff.mp hnull]
    rw [present?_assign hvalue]
    rfl
  · unfold StoredNode.assign
    split <;> simpa [Bag.present?, KeyedList.get?_put, KeyedList.get?_remove, hname] using h

/-- A node keeps its labels, and its values under keys that nothing sets to null. -/
theorem retains_assignAll (h : ∀ key, spared key → (key, Value.null) ∉ entries) :
    node.Retains spared (node.assignAll entries) := by
  refine ⟨labels_assignAll, fun key hkey hpresent => ?_⟩
  have hentries := h key hkey
  clear h
  induction entries generalizing node with
  | nil => exact hpresent
  | cons entry rest ih =>
    rw [List.mem_cons, not_or] at hentries
    exact ih (isSome_present?_assign (Ne.symm hentries.1) hpresent) hentries.2

/-- A node has a value under each key that something sets and nothing sets to null. -/
theorem isSome_present?_assignAll (hkey : key ∈ KeyedList.keys entries)
    (h : (key, Value.null) ∉ entries) :
    ((node.assignAll entries).properties.present? key).isSome := by
  induction entries generalizing node with
  | nil => cases hkey
  | cons entry rest ih =>
    obtain ⟨name, value⟩ := entry
    rw [List.mem_cons, not_or] at h
    by_cases hrest : key ∈ KeyedList.keys rest
    · exact ih hrest h.2
    · -- This is the last value under the key, and what is set after it are other keys.
      obtain rfl : key = name := (List.mem_cons.mp hkey).resolve_right hrest
      have hvalue : value.isNull = false := by
        refine Bool.eq_false_iff.mpr fun hnull => h.1 ?_
        rw [Value.isNull_iff.mp hnull]
      refine (@retains_assignAll (· = key) (node.assign (key, value)) rest ?_).present key rfl ?_
      · rintro _ rfl
        exact h.2
      · rw [present?_assign hvalue]
        rfl

end

section

variable {same : Value → Value → Bool} {among : NodeWrite → Prop} {write : NodeWrite}
  {before after : Store} {place : Nat} {node old : StoredNode}

/-- What some writes lead to, more of them do. -/
theorem writes_mono {more : NodeWrite → Prop}
    (h : Relation.ReflTransGen (WriteStep same among) before after)
    (hmore : ∀ write, among write → more write) :
    Relation.ReflTransGen (WriteStep same more) before after :=
  h.lift id fun _ _ ⟨write, hwrite, hstep⟩ => ⟨write, hmore write hwrite, hstep⟩

/-- A node that is there stays there when something is written, and keeps what the write does not
clear. -/
theorem exists_of_execute (hold : before[place]? = some old) :
    ∃ node, (write.execute same before)[place]? = some node ∧
      old.Retains (¬ write.Clears place ·) node := by
  have hself : old.Retains (¬ write.Clears place ·) old := ⟨rfl, fun _ _ h => h⟩
  have hset : write.Reaches place → old.Retains (¬ write.Clears place ·)
      (old.assignAll write.node.set) := fun hreaches =>
    retains_assignAll fun key hkey hmem =>
      hkey ⟨hreaches, List.mem_append_right _ hmem⟩
  -- Nodes are only added at the end.
  have happended : ∀ added : Store, (before ++ added)[place]? = some old := fun added =>
    (List.getElem?_append_left (List.getElem?_eq_some_iff.mp hold).1).trans hold
  cases write with
  | create merge => exact ⟨old, happended _, hself⟩
  | merge merge =>
    simp only [NodeWrite.execute]
    cases hany : before.any (merge.finds same) with
    | true =>
      rw [NodeMerge.execute_of_any hany, NodeMerge.setFound, List.getElem?_map, hold,
        Option.map_some]
      split
      · exact ⟨_, rfl, hset trivial⟩
      · exact ⟨_, rfl, hself⟩
    | false =>
      rw [NodeMerge.execute_of_none hany]
      exact ⟨old, happended _, hself⟩
  | update identity merge =>
    simp only [NodeWrite.execute, List.getElem?_mapIdx, hold, Option.map_some]
    split
    · next hfound => exact ⟨_, rfl, hset hfound.1⟩
    · exact ⟨_, rfl, hself⟩

/-- A node that is new is what a write creates. -/
theorem created_of_execute (hnone : before[place]? = none)
    (hnode : (write.execute same before)[place]? = some node) :
    (∃ merge, write = .create merge ∨ write = .merge merge) ∧
      node = (StoredNode.bare write.node.labels).assignAll write.node.entries := by
  have hlength : before.length ≤ place := List.getElem?_eq_none_iff.mp hnone
  have hcreated : ∀ merge : NodeMerge, merge.created.assignAll merge.set =
      (StoredNode.bare merge.labels).assignAll merge.entries := by
    intro merge
    rw [NodeMerge.created, StoredNode.assignAll, StoredNode.assignAll, ← List.foldl_append]
    rfl
  -- Where a node is appended, this is the only new one.
  have happended : ∀ merge : NodeMerge,
      (before ++ [merge.created.assignAll merge.set])[place]? = some node →
      node = (StoredNode.bare merge.labels).assignAll merge.entries := by
    intro merge h
    rw [List.getElem?_append_right hlength] at h
    rw [← hcreated]
    exact (List.mem_singleton.mp (List.mem_of_getElem? h))
  cases write with
  | create merge => exact ⟨⟨merge, .inl rfl⟩, happended merge hnode⟩
  | merge merge =>
    refine ⟨⟨merge, .inr rfl⟩, ?_⟩
    simp only [NodeWrite.execute] at hnode
    cases hany : before.any (merge.finds same) with
    | true =>
      rw [NodeMerge.execute_of_any hany, NodeMerge.setFound, List.getElem?_map, hnone] at hnode
      cases hnode
    | false =>
      rw [NodeMerge.execute_of_none hany] at hnode
      exact happended merge hnode
  | update identity merge => simp [NodeWrite.execute, hnone] at hnode

/-- A node that is there stays there through any writes, with its labels and with a value under each
key that it has one under and that none of them clears. -/
theorem exists_of_writes (h : Relation.ReflTransGen (WriteStep same among) before after)
    (hold : before[place]? = some old) :
    ∃ node, after[place]? = some node ∧ old.Retains (Spared among place) node := by
  induction h with
  | refl => exact ⟨old, hold, rfl, fun _ _ h => h⟩
  | tail _ hstep ih =>
    obtain ⟨mid, hmid, hretains⟩ := ih
    obtain ⟨write, hwrite, rfl⟩ := hstep
    obtain ⟨node, hnode, hmore⟩ := @exists_of_execute same write _ _ _ hmid
    exact ⟨node, hnode, hretains.trans ⟨hmore.labels, fun key hkey =>
      hmore.present key (hkey write hwrite)⟩⟩

/-- A node that is new was created by one of the writes. It has the labels of that and a value under
each key of it that none of the writes clears. -/
theorem exists_write_of_writes (h : Relation.ReflTransGen (WriteStep same among) before after)
    (hnone : before[place]? = none) (hnode : after[place]? = some node) :
    ∃ write, among write ∧ (∃ merge, write = .create merge ∨ write = .merge merge) ∧
      node.labels = write.node.labels ∧
      ∀ key ∈ KeyedList.keys write.node.entries, Spared among place key →
        (node.properties.present? key).isSome := by
  -- Once it is there, it keeps what it was created with.
  induction h generalizing node with
  | refl =>
    rw [hnone] at hnode
    cases hnode
  | @tail mid after _ hstep ih =>
    obtain ⟨last, hlast, rfl⟩ := hstep
    cases hmid : mid[place]? with
    | none =>
      obtain ⟨hcreates, rfl⟩ := created_of_execute hmid hnode
      refine ⟨last, hlast, hcreates, labels_assignAll, fun key hkey hspared => ?_⟩
      refine isSome_present?_assignAll hkey fun hmem => hspared last hlast ⟨?_, hmem⟩
      obtain ⟨merge, rfl | rfl⟩ := hcreates <;> trivial
    | some held =>
      obtain ⟨write, hwrite, hcreates, hlabels, hpresent⟩ := ih hmid
      obtain ⟨found, hfound, hretains⟩ := @exists_of_execute same last _ _ _ hmid
      rw [hnode] at hfound
      cases hfound
      exact ⟨write, hwrite, hcreates, hretains.labels.trans hlabels, fun key hkey hspared =>
        hretains.present key (hspared last hlast) (hpresent key hkey hspared)⟩

end

end GraphMapper.Cypher

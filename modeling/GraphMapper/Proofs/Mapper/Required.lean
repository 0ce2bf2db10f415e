import GraphMapper.Proofs.Mapper.Drafts

/-!
# Required properties through runs of writes

A creation and a merge write no null, and write every required property of a bag. An update writes a
null where it is given one, under any property that it may set, be it required or not
(`null_mem_writable_iff`). So a property of a stored node goes missing only if an update of that
node is given a null for it (`WriteCall.Clears`), and in a run of creations, merges and updates
where none is, whatever nodes have they keep, and what is created from a bag has every required
property of its type (`required_kept`). Nodes that a scalar in a payload stands for have their
primary key only.
-/

namespace GraphMapper

open Cypher Preparing

/-! ## Nulls in updates -/

section

variable {checked : Checked} {mode : ValidationMode} {p : Property} {properties : List Property}
  {key : String}

/-- A null that is there after the check of a property that has a value was there before it, under
another key. -/
theorem null_mem_remove_of_checkProperty {value : Value}
    (hvalue : checked.bag.present? p.name = some value)
    (h : (key, Value.null) ∈ (checkProperty mode checked p).bag) :
    (key, Value.null) ∈ KeyedList.remove checked.bag p.name := by
  unfold checkProperty at h
  simp only [hvalue] at h
  split at h
  · next result hcoerce =>
    -- What the value is made into is no null.
    have hresult := isNull_of_coerce hcoerce (present?_eq_some.mp hvalue).2
    rcases KeyedList.mem_put h with hentry | h
    · rw [← (Prod.mk.inj hentry).2] at hresult
      cases hresult
    · exact h
  · exact h

/-- A null that is there after a check was there before it. -/
theorem null_mem_of_checkProperty (h : (key, Value.null) ∈ (checkProperty mode checked p).bag) :
    (key, Value.null) ∈ checked.bag := by
  cases hpresent : checked.bag.present? p.name with
  | some value => exact KeyedList.mem_of_mem_remove (null_mem_remove_of_checkProperty hpresent h)
  | none =>
    unfold checkProperty Checked.refuse at h
    simp only [hpresent] at h
    split at h
    · exact KeyedList.mem_of_mem_remove h
    · exact h

/-- A null that is there after several checks was there before them. -/
theorem null_mem_of_foldl_checkProperty
    (h : (key, Value.null) ∈ (properties.foldl (checkProperty mode) checked).bag) :
    (key, Value.null) ∈ checked.bag := by
  induction properties generalizing checked with
  | nil => exact h
  | cons p rest ih => exact null_mem_of_checkProperty (ih h)

/-- The check of a property that has no value changes nothing in an update. -/
theorem checkProperty_of_missing (hmissing : checked.bag.present? p.name = none) :
    checkProperty .update checked p = checked := by
  simp [checkProperty, hmissing]

/-- The check of a property in an update leaves a null under its name exactly where one is found
there. -/
theorem null_mem_checkProperty_iff :
    (p.name, Value.null) ∈ (checkProperty .update checked p).bag ↔
      KeyedList.get? checked.bag p.name = some .null := by
  cases hpresent : checked.bag.present? p.name with
  | some value =>
    refine ⟨fun h => absurd (null_mem_remove_of_checkProperty hpresent h)
      KeyedList.not_mem_remove, fun h => ?_⟩
    rw [Bag.present?, h] at hpresent
    cases hpresent
  | none =>
    rw [checkProperty_of_missing hpresent]
    refine ⟨fun h => ?_, KeyedList.mem_of_get?_eq_some⟩
    -- The first entry under the name is a null, since the property has no value.
    have hkey : p.name ∈ KeyedList.keys checked.bag := List.mem_map_of_mem h
    obtain ⟨value, hvalue⟩ := Option.isSome_iff_exists.mp (KeyedList.isSome_get?_iff.mpr hkey)
    rw [Bag.present?, hvalue, Option.filter_eq_none_iff] at hpresent
    have hnull : value.isNull = true := by simpa using hpresent value
    rw [hvalue, Value.isNull_iff.mp hnull]

/-- The checks of an update leave a null under the name of a property exactly where one is found
there. -/
theorem null_mem_foldl_checkProperty_iff (hnodup : (properties.map Property.name).Nodup)
    (hp : p ∈ properties) :
    (p.name, Value.null) ∈ (properties.foldl (checkProperty .update) checked).bag ↔
      KeyedList.get? checked.bag p.name = some .null := by
  induction properties generalizing checked with
  | nil => cases hp
  | cons q rest ih =>
    rw [List.map_cons, List.nodup_cons] at hnodup
    rw [List.foldl_cons]
    rcases List.mem_cons.mp hp with rfl | hp
    · constructor
      · exact fun h => null_mem_checkProperty_iff.mp (null_mem_of_foldl_checkProperty h)
      · intro h
        have hmissing : checked.bag.present? p.name = none := by rw [Bag.present?, h]; rfl
        refine KeyedList.mem_of_get?_eq_some ?_
        rw [get?_foldl_checkProperty hnodup.1, checkProperty_of_missing hmissing, h]
    · have hne : q.name ≠ p.name := fun hname => hnodup.1 (hname ▸ List.mem_map_of_mem hp)
      rw [ih hnodup.2 hp, get?_checkProperty hne]

end

section

variable {model : EntityType} {payload checked : Bag} {key : String} {p : Property}

/-- What an update sets to null are the properties that it may set and is given a null for. -/
theorem null_mem_writable_iff (h : validate .update model payload = .ok checked) :
    (key, Value.null) ∈ Mapper.writable model checked ↔
      (model.property? key).any Property.isWritable ∧ KeyedList.get? payload key = some .null := by
  rw [Mapper.writable, List.mem_filter, and_comm]
  refine and_congr_right fun hwritable => ?_
  obtain ⟨p, hp⟩ : ∃ p, model.property? key = some p := by
    cases hp : model.property? key with
    | none => simp [hp] at hwritable
    | some p => exact ⟨p, rfl⟩
  obtain ⟨hmem, rfl⟩ := EntityType.of_property?_eq_some hp
  rw [eq_bag_of_result h]
  exact null_mem_foldl_checkProperty_iff model.properties_nodup hmem

end

/-! ## Runs -/

/-- The call is an update of the node at a place, and is given a null for a property that it may
set. -/
def WriteCall.Clears (place : Nat) (key : String) : WriteCall → Prop
  | .write _ _ _ _ => False
  | .update node payload => (place : Int) = node.identity.toInt ∧
      (node.model.property? key).any Property.isWritable ∧
      KeyedList.get? payload key = some .null

/-- No call of these clears the key at the place. -/
def Uncleared (calls : List WriteCall) (place : Nat) (key : String) : Prop :=
  ∀ call ∈ calls, ¬ call.Clears place key

/-- Calls one after the other may take a store from one state to another. Each changes it by the
query of a draft that it comes to, or leaves it as it is, be it refused or failed. -/
inductive Runs (mapper : Mapper) (same : Value → Value → Bool) :
    List WriteCall → Store → Store → Prop
  | nil (store : Store) : Runs mapper same [] store store
  | skipped {call : WriteCall} {rest : List WriteCall} {before after : Store}
      (h : Runs mapper same rest before after) : Runs mapper same (call :: rest) before after
  | sent {call : WriteCall} {rest : List WriteCall} {before mid after : Store} {draft : Draft}
      (hdraft : call.Drafts mapper draft) (hchanges : draft.Changes same before mid)
      (h : Runs mapper same rest mid after) : Runs mapper same (call :: rest) before after

/-- One of the calls comes to a draft that writes this. -/
def WrittenBy (mapper : Mapper) (calls : List WriteCall) (write : NodeWrite) : Prop :=
  ∃ call ∈ calls, ∃ draft writes, call.Drafts mapper draft ∧ draft.nodeWrites? = some writes ∧
    write ∈ writes

/-- Where a node that is new comes from, and what it has then. -/
inductive Created (mapper : Mapper) (calls : List WriteCall) (place : Nat) (node : StoredNode) :
    Prop
  /-- It is written from a bag of a payload, and has every required property of the type that the
  bag is written as, unless an update clears it. -/
  | bag {mode : WriteMode} {name : String} {payload : Bag} {supply : Supply} {model : EntityType}
      {path : List Hop} {owner : EntityType} {inner : Bag}
      (hcall : .write mode name payload supply ∈ calls) (hmodel : mapper.model name = .ok model)
      (hbag : bagAt? mapper.registry model payload path = some (owner, inner))
      (hlabels : node.labels = owner.labels)
      (hrequired : ∀ p ∈ owner.properties, p.required → Uncleared calls place p.name →
        (node.properties.present? p.name).isSome)
  /-- A scalar in a prepared payload stands for it, and it has the primary key. -/
  | reference {mode : WriteMode} {name : String} {payload prepared : Bag} {supply rest : Supply}
      {model : EntityType} {path : List Hop} {hop : Hop} {rel : Relationship} {value : Value}
      {target : EntityType} {key : String}
      (hcall : .write mode name payload supply ∈ calls) (hmodel : mapper.model name = .ok model)
      (hprepared : (prepare mapper.registry mapper.config.maxWriteDepth model payload).run.run
        supply = (.ok prepared, rest))
      (hplace : farAt? mapper.registry model prepared path hop = some (rel, value))
      (hscalar : value.isScalar = true) (htarget : mapper.registry.target? rel = some target)
      (hkey : target.primaryKey? = some key) (hlabels : node.labels = target.labels)
      (hpresent : Uncleared calls place key → (node.properties.present? key).isSome)

section

variable {mapper : Mapper} {same : Value → Value → Bool} {calls : List WriteCall}
  {call : WriteCall} {draft : Draft} {write : NodeWrite} {writes : List NodeWrite}
  {before after : Store} {place : Nat} {key : String} {node : StoredNode}

/-- What a creation or a merge writes of a node comes from the prepared payload. -/
theorem writtenFrom_of_drafts {mode : WriteMode} {name : String} {payload : Bag} {supply : Supply}
    (hdraft : (WriteCall.write mode name payload supply).Drafts mapper draft)
    (hwrites : draft.nodeWrites? = some writes) (hwrite : write ∈ writes) :
    ∃ model prepared rest, mapper.model name = .ok model ∧
      (prepare mapper.registry mapper.config.maxWriteDepth model payload).run.run supply =
        (.ok prepared, rest) ∧
      WrittenFrom mapper.registry mapper.config.maxWriteDepth model prepared write := by
  cases hdraft with
  | write hmodel hprepared hdraft =>
    obtain ⟨plan, hplan, hplanWrites⟩ := exists_plan_of_writeDraft hdraft
    rw [hwrites] at hplanWrites
    cases hplanWrites
    exact ⟨_, _, _, hmodel, hprepared, writtenFrom_of_mem_nodeWrites hplan hwrite⟩

/-- What an update writes of a node is what is writable of its checked bag. -/
theorem eq_update_of_drafts {node : Node} {payload : Bag}
    (hdraft : (WriteCall.update node payload).Drafts mapper draft)
    (hwrites : draft.nodeWrites? = some writes) (hwrite : write ∈ writes) :
    ∃ checked, validate .update node.model payload = .ok checked ∧
      write = .update node.identity { var := rootVar, labels := node.model.labels, inline := [],
                                      set := Mapper.writable node.model checked } := by
  cases hdraft with
  | update hdraft =>
    obtain ⟨checked, hchecked, hupdate⟩ := exists_checked_of_updateDraft hdraft
    rw [hwrites] at hupdate
    cases hupdate
    split at hwrite
    · cases hwrite
    · exact ⟨checked, hchecked, List.mem_singleton.mp hwrite⟩

/-- Only a call that clears a key at a place writes so. -/
theorem clears_of_mem_writes (hdraft : call.Drafts mapper draft)
    (hwrites : draft.nodeWrites? = some writes) (hwrite : write ∈ writes)
    (hclears : write.Clears place key) : call.Clears place key := by
  cases call with
  | write mode name payload supply =>
    obtain ⟨_, _, _, -, -, hfrom⟩ := writtenFrom_of_drafts hdraft hwrites hwrite
    exact hfrom.null_not_mem hclears.2
  | update node payload =>
    obtain ⟨checked, hchecked, rfl⟩ := eq_update_of_drafts hdraft hwrites hwrite
    exact ⟨hclears.1, (null_mem_writable_iff hchecked).mp hclears.2⟩

/-- A key that no call clears is spared by all they write. -/
theorem Uncleared.spared (h : Uncleared calls place key) :
    Spared (WrittenBy mapper calls) place key := by
  rintro write ⟨call, hcall, draft, writes, hdraft, hwrites, hwrite⟩ hclears
  exact h call hcall (clears_of_mem_writes hdraft hwrites hwrite hclears)

/-- A run changes the store by writes of its calls. -/
theorem Runs.steps (h : Runs mapper same calls before after) :
    Relation.ReflTransGen (WriteStep same (WrittenBy mapper calls)) before after := by
  have hrest : ∀ {call : WriteCall} {rest : List WriteCall} (write : NodeWrite),
      WrittenBy mapper rest write → WrittenBy mapper (call :: rest) write :=
    fun _ ⟨call, hcall, hwritten⟩ => ⟨call, List.mem_cons_of_mem _ hcall, hwritten⟩
  induction h with
  | nil => exact .refl
  | skipped _ ih => exact writes_mono ih hrest
  | @sent call _ _ _ _ draft hdraft hchanges _ ih =>
    obtain ⟨writes, hwrites, hsteps⟩ := hchanges
    refine (writes_mono hsteps fun write hwrite => ?_).trans (writes_mono ih hrest)
    exact ⟨call, List.mem_cons_self, draft, writes, hdraft, hwrites, hwrite⟩

/-- A node that is new in a run was created by a call. -/
theorem Runs.created (h : Runs mapper same calls before after) (hnone : before[place]? = none)
    (hnode : after[place]? = some node) : Created mapper calls place node := by
  obtain ⟨write, ⟨call, hcall, draft, writes, hdraft, hwrites, hwrite⟩, ⟨merge, hcreates⟩, hlabels,
    hpresent⟩ := exists_write_of_writes h.steps hnone hnode
  cases call with
  | update other payload =>
    obtain ⟨_, -, rfl⟩ := eq_update_of_drafts hdraft hwrites hwrite
    rcases hcreates with hcreates | hcreates <;> cases hcreates
  | write mode name payload supply =>
    obtain ⟨model, prepared, rest, hmodel, hprepared, hfrom⟩ :=
      writtenFrom_of_drafts hdraft hwrites hwrite
    cases hfrom with
    | @bag path owner others mode' var hpath hothers =>
      obtain ⟨inner, hinner, hyields⟩ :=
        exists_bagAt?_of_prepare ⟨supply, rest, hprepared⟩ hothers hpath
      refine .bag hcall hmodel hinner (hlabels.trans labels_entityWrite)
        fun p hp hrequired huncleared => hpresent p.name ?_ huncleared.spared
      rw [entries_entityWrite]
      exact Prepared.mem_keys_split hp ((prepared_of_prepare hyields).required p hp hrequired)
    | reference var hplace hscalar htarget hkey =>
      exact .reference hcall hmodel hprepared hplace hscalar htarget hkey hlabels
        fun huncleared => hpresent _ List.mem_cons_self huncleared.spared

end

/-- What becomes of required properties through writes. An update that is sent binds null to exactly
the required properties that it may set and is given a null for. Whatever creations, merges and
updates run, a node that is there stays there, with its labels and with every property it has that
no update of that node is given a null for; and a node that is new was written from a bag, and has
every required property of the type of that but for such, or a scalar stands for it, which has its
primary key. -/
theorem required_kept (mapper : Mapper) :
    (∀ node payload access query next, mapper.update node payload = .run access query next →
      ∃ draft writes, (WriteCall.update node payload).Drafts mapper draft ∧
        query = draft.query ∧ draft.nodeWrites? = some writes ∧
        ∀ p ∈ node.model.properties, p.required →
          ((∃ write ∈ writes, (p.name, Value.null) ∈ write.node.entries) ↔
            p.isWritable ∧ KeyedList.get? payload p.name = some .null)) ∧
    ∀ same calls before after, Runs mapper same calls before after →
      (∀ (place : Nat) old, before[place]? = some old →
        ∃ node, after[place]? = some node ∧ old.Retains (Uncleared calls place) node) ∧
      ∀ (place : Nat) node, before[place]? = none → after[place]? = some node →
        Created mapper calls place node := by
  constructor
  · intro node payload access query next h
    obtain ⟨-, draft, hdraft, rfl⟩ :=
      (@WriteCall.sends_iff mapper (.update node payload) access query).mp ⟨next, h⟩
    cases hdraft with
    | update hdraft =>
      obtain ⟨checked, hchecked, hwrites⟩ := exists_checked_of_updateDraft hdraft
      refine ⟨draft, _, .update hdraft, rfl, hwrites, fun p hp _ => ?_⟩
      have hnull := @null_mem_writable_iff node.model payload checked p.name hchecked
      rw [EntityType.property?_of_mem hp, Option.any_some] at hnull
      rw [← hnull]
      split
      · next hempty => simp [List.isEmpty_iff.mp hempty]
      · simp [NodeWrite.node, NodeMerge.entries]
  · intro same calls before after h
    refine ⟨fun place old hold => ?_, fun place node hnone hnode => h.created hnone hnode⟩
    obtain ⟨node, hnode, hretains⟩ := exists_of_writes h.steps hold
    exact ⟨node, hnode, hretains.labels, fun key huncleared =>
      hretains.present key huncleared.spared⟩

/-- Residents have a name, which is required, and may have an address to write to. -/
def resident : EntityType where
  name := "Resident"
  labels := ["Resident"]
  properties := [
    { name := "name", type := .string, required := true },
    { name := "email", type := .string }]
  relationships := []
  labels_ne_nil := by decide
  labels_ascending := by decide
  properties_nodup := by decide
  relationships_nodup := List.nodup_nil
  keys_disjoint := by decide
  primary_le_one := by decide

/-- The mapper of residents. -/
def residents : Mapper := ⟨⟨[resident], by decide⟩, {}⟩

/-- A resident as she was loaded. -/
def loadedResident : Node := .mk 0 ["Resident"] resident [("name", .string "Ann")] []

/-- The resident as she is stored. -/
def storedResident : StoredNode :=
  (StoredNode.bare ["Resident"]).assignAll [("email", .string "ann@example.com"),
    ("name", .string "Ann")]

/-- The write that takes the value under a key from the resident. -/
def clearing (key : String) : NodeWrite :=
  .update 0 { var := "this", labels := ["Resident"], inline := [], set := [(key, .null)] }

/-- An update of the resident that is given one null is sent, and takes the value out of the stored
node. -/
theorem runs_of_null {key : String} (hkey : key = "name" ∨ key = "email")
    (same : Value → Value → Bool) :
    ∃ draft : Draft, ∃ next,
      residents.update loadedResident [(key, .null)] = .run .write draft.query next ∧
      draft.nodeWrites? = some [clearing key] ∧
      Runs residents same [.update loadedResident [(key, .null)]] [storedResident]
        [storedResident.assign (key, .null)] := by
  have hdraft : ∃ draft, residents.updateDraft loadedResident [(key, .null)] = .ok draft := by
    rcases hkey with rfl | rfl <;> exact ⟨_, rfl⟩
  obtain ⟨draft, hdraft⟩ := hdraft
  obtain ⟨next, hnext⟩ := WriteCall.sends_iff.mpr ⟨rfl, draft, .update hdraft, rfl⟩
  obtain ⟨checked, hchecked, hwrites⟩ := exists_checked_of_updateDraft hdraft
  have hwrites : draft.nodeWrites? = some [clearing key] := by
    rcases hkey with rfl | rfl <;> cases hchecked <;> exact hwrites
  refine ⟨draft, next, hnext, hwrites, .sent (.update hdraft) ⟨_, hwrites, .single
    ⟨_, List.mem_cons_self, ?_⟩⟩ (.nil _)⟩
  rfl

/-- A resident who loses her address keeps her name. -/
theorem null_email_keeps_name :
    ∃ after node, Runs residents (fun _ _ => false) [.update loadedResident [("email", .null)]]
        [storedResident] after ∧ after[0]? = some node ∧
      node.properties.present? "email" = none ∧ (node.properties.present? "name").isSome := by
  obtain ⟨-, -, -, -, hrun⟩ := runs_of_null (.inr rfl) fun _ _ => false
  obtain ⟨hkept, -⟩ := (required_kept residents).2 _ _ _ _ hrun
  obtain ⟨node, hnode, hretains⟩ := hkept 0 storedResident rfl
  have huncleared : Uncleared [.update loadedResident [("email", .null)]] 0 "name" := by
    intro call hcall hclears
    obtain rfl := List.mem_singleton.mp hcall
    cases hclears.2.2
  have hname := hretains.present "name" huncleared rfl
  cases hnode
  exact ⟨_, _, hrun, rfl, rfl, hname⟩

/-- An update that is given a null for the name, which is required, is sent, and leaves a resident
without a name. -/
theorem null_name_cleared :
    ∃ draft : Draft, ∃ next after node,
      residents.update loadedResident [("name", .null)] = .run .write draft.query next ∧
      draft.nodeWrites? = some [clearing "name"] ∧
      Runs residents (fun _ _ => false) [.update loadedResident [("name", .null)]]
        [storedResident] after ∧
      (storedResident.properties.present? "name").isSome ∧
      after[0]? = some node ∧ node.properties.present? "name" = none := by
  obtain ⟨draft, next, hsent, hwrites, hrun⟩ := runs_of_null (.inl rfl) fun _ _ => false
  exact ⟨draft, next, _, _, hsent, hwrites, hrun, rfl, rfl, rfl⟩

end GraphMapper

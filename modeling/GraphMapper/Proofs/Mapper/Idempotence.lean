import GraphMapper.Proofs.Cypher.Meaning
import GraphMapper.Proofs.Mapper.Independence

/-!
# Merging twice

A payload of declared properties is prepared twice, from different supplies, and merged twice. Both
merges have the same pattern and set the same values in any case (`sameParts`), because what was
filled in is set on creation only. So the second one finds what the first one found or created, and
leaves the store as it is (`merge_idempotent`).

The reserved key must not be that of a relationship: there the note of what was filled in is taken
for related entities, and merged as such (`note_merged`). Nor may it be that of a property where
generators may give nulls, since one merge may write the value of the caller there, and the other
the note (`note_overwrites`).
-/

namespace GraphMapper

open Cypher Preparing

variable {registry : Registry} {levels : Nat} {model : EntityType} {rel : Relationship}
  {bag prepared prepared' : Bag}

/-- Nothing comes under the key of a relationship where nothing is, unless that is the reserved
key. -/
theorem get?_relationship_of_prepare (h : (prepare registry levels model bag).Yields prepared)
    (hrel : rel ∈ model.relationships) (hreserved : rel.name ≠ defaultedKey)
    (hnone : KeyedList.get? bag rel.name = none) : KeyedList.get? prepared rel.name = none := by
  have hkey := model.keys_disjoint rel.name (List.mem_map_of_mem hrel)
  cases levels with
  | zero => rw [get?_of_prepareProperties h hkey hreserved, hnone]
  | succ levels =>
    obtain ⟨checked, hchecked, hbelow⟩ := exists_preparedBelow h
    refine hbelow.absent rel hrel ?_
    rw [get?_of_prepareProperties hchecked hkey hreserved, hnone]

/-- A payload of declared properties has no related entities once it is prepared, unless a
relationship has the reserved key. -/
theorem unrelated_of_prepare (h : (prepare registry levels model bag).Yields prepared)
    (hdeclared : ∀ key ∈ KeyedList.keys bag, key ∈ model.properties.map Property.name)
    (hrelationships : defaultedKey ∉ model.relationships.map Relationship.name) :
    ∀ rel ∈ model.relationships, prepared.present? rel.name = none := by
  intro rel hrel
  have hname : rel.name ∈ model.relationships.map Relationship.name := List.mem_map_of_mem hrel
  have hnone : KeyedList.get? bag rel.name = none := KeyedList.get?_eq_none_iff.mpr
    fun hkey => model.keys_disjoint rel.name hname (hdeclared _ hkey)
  rw [Bag.present?, get?_relationship_of_prepare h hrel (fun hkey => hrelationships (hkey ▸ hname))
    hnone]
  rfl

/-- The merge of the entity that a bag without related entities stands for. -/
def entityMerge (model : EntityType) (bag : Bag) : NodeMerge where
  var := rootVar
  labels := model.labels
  inline := (splitProperties .merge model bag).inline
  onCreate := (splitProperties .merge model bag).onCreate
  set := (splitProperties .merge model bag).set

/-- The merge of an entity sets nothing under a key of its pattern. -/
theorem stable_entityMerge {same : Value → Value → Bool}
    (hsame : ∀ entry ∈ (splitProperties .merge model bag).inline, same entry.2 entry.2) :
    Stable same (entityMerge model bag) where
  reflexive := hsame
  inline_present _ hentry := @isNull_of_mem_split .merge model bag .inline _ hentry
  onCreate_present _ hentry := @isNull_of_mem_split .merge model bag .onCreate _ hentry
  set_present _ hentry := @isNull_of_mem_split .merge model bag .set _ hentry
  inline_nodup := KeyedList.keys_nodup (@part_ascending .merge model bag .inline)
  onCreate_nodup := KeyedList.keys_nodup (@part_ascending .merge model bag .onCreate)
  set_nodup := KeyedList.keys_nodup (@part_ascending .merge model bag .set)
  onCreate_apart _ hkey := @not_mem_other_part .merge model bag .inline .onCreate _ (by decide) hkey
  set_apart _ hkey := @not_mem_other_part .merge model bag .inline .set _ (by decide) hkey

section

variable {names names' : List String} {checked checked' : Bag}

/-- Where nothing is declared under the reserved key, and nothing given, a bag notes exactly what
was filled in. -/
theorem defaultedNames_of_filled (h : Filled model bag names checked)
    (hundeclared : defaultedKey ∉ model.properties.map Property.name)
    (hnone : KeyedList.get? bag defaultedKey = none) : defaultedNames checked = names := by
  by_cases hne : names = []
  · subst hne
    rw [defaultedNames_eq, h.other defaultedKey hundeclared (.inl rfl), hnone]
    rfl
  · exact defaultedNames_of_marked (h.marked hne)

/-- A property that was left out is in no part but that of what is set on creation. -/
theorem entryIn_of_missing (h : Filled model bag names checked) (hgives : givesKey model bag)
    (hnoted : defaultedNames checked = names) {p : Property} (hp : p ∈ model.properties)
    (hundeclared : p.name ≠ defaultedKey) (hmissing : bag.present? p.name = none) {part : Part}
    (hpart : part ≠ .onCreate) : entryIn .merge model checked part p = none := by
  unfold entryIn
  by_cases hname : p.name ∈ names
  · have hkeyed := h.isKeyed hgives (List.ne_nil_of_mem hname)
    have hcreated : partOf .merge model checked p = .onCreate := by
      simp [partOf, mergePart, hkeyed, hnoted, hname]
    rw [hcreated, if_neg (Ne.symm hpart)]
  · rw [h.missing p hp (.inr hundeclared) hmissing hname]
    split <;> rfl

/-- A property that was given is in the same part whatever was filled in beside it. -/
theorem entryIn_of_given (h : Filled model bag names checked)
    (h' : Filled model bag names' checked') (hnoted : defaultedNames checked = names)
    (hnoted' : defaultedNames checked' = names') {p : Property} (hp : p ∈ model.properties)
    (hundeclared : p.name ≠ defaultedKey) {value : Value}
    (hgiven : bag.present? p.name = some value) (part : Part) :
    entryIn .merge model checked' part p = entryIn .merge model checked part p := by
  obtain ⟨result, hcoerce, hresult⟩ := h.given p hp (.inr hundeclared) value hgiven
  obtain ⟨result', hcoerce', hresult'⟩ := h'.given p hp (.inr hundeclared) value hgiven
  rw [hcoerce] at hcoerce'
  cases hcoerce'
  have hname : p.name ∉ names := fun hname => by
    rw [(h.noted p.name hname).1] at hgiven
    cases hgiven
  have hname' : p.name ∉ names' := fun hname => by
    rw [(h'.noted p.name hname).1] at hgiven
    cases hgiven
  have hpart : partOf .merge model checked' p = partOf .merge model checked p := by
    simp only [partOf, mergePart, hnoted, hnoted', hname, hname', and_false, if_false]
  rw [entryIn, entryIn, hpart, hresult, hresult']

/-- Where no property has the reserved key, the pattern, and what is set in any case, depend on what
was given only. -/
theorem sameParts_of_undeclared (h : Filled model bag names checked)
    (h' : Filled model bag names' checked') (hsame : SameDeclared model checked prepared)
    (hsame' : SameDeclared model checked' prepared') (hgives : givesKey model bag)
    (hundeclared : defaultedKey ∉ model.properties.map Property.name)
    (hnone : KeyedList.get? bag defaultedKey = none) {part : Part} (hpart : part ≠ .onCreate) :
    (splitProperties .merge model prepared').part part =
      (splitProperties .merge model prepared).part part := by
  have hnoted := defaultedNames_of_filled h hundeclared hnone
  have hnoted' := defaultedNames_of_filled h' hundeclared hnone
  rw [part_splitProperties, part_splitProperties]
  congr 1
  refine List.filterMap_congr fun p hp => ?_
  have hne : p.name ≠ defaultedKey := fun hname => hundeclared (hname ▸ List.mem_map_of_mem hp)
  rw [hsame.entryIn_eq hp, hsame'.entryIn_eq hp]
  cases hgiven : bag.present? p.name with
  | none =>
    rw [entryIn_of_missing h hgives hnoted hp hne hgiven hpart,
      entryIn_of_missing h' hgives hnoted' hp hne hgiven hpart]
  | some value => exact entryIn_of_given h h' hnoted hnoted' hp hne hgiven part

/-- Two preparations of declared properties, which give a key, have the same pattern and the same
values to set in any case. -/
theorem sameParts (h : (prepare registry levels model bag).Yields prepared)
    (h' : (prepare registry levels model bag).Yields prepared') (hgives : givesKey model bag)
    (hdeclared : ∀ key ∈ KeyedList.keys bag, key ∈ model.properties.map Property.name)
    (hproperties : defaultedKey ∉ model.properties.map Property.name ∨
      ∀ p ∈ model.properties, p.NeverNull) {part : Part} (hpart : part ≠ .onCreate) :
    (splitProperties .merge model prepared').part part =
      (splitProperties .merge model prepared).part part := by
  obtain ⟨names, checked, hfilled, hsame, hnames⟩ := exists_filled_of_prepare h
  obtain ⟨names', checked', hfilled', hsame', hnames'⟩ := exists_filled_of_prepare h'
  rcases hproperties with hundeclared | hnever
  · have hnone : KeyedList.get? bag defaultedKey = none :=
      KeyedList.get?_eq_none_iff.mpr fun hkey => hundeclared (hdeclared _ hkey)
    exact sameParts_of_undeclared hfilled hfilled' hsame hsame' hgives hundeclared hnone hpart
  · -- The same properties are filled in, so that the two bags agree.
    rw [hnames hnever] at hfilled
    rw [hnames' hnever] at hfilled'
    exact ((hfilled.agree hfilled' hgives).congr hsame hsame').part_eq hpart

end

section

variable {mapper : Mapper} {payload : Bag} {supply supply' rest rest' : Supply}

/-- The query that writes a bag without related entities writes its properties, and then returns the
entity. -/
theorem writeDraft_of_unrelated {mode : WriteMode} {expression : String} {draft : Draft}
    (hreturned : mapper.returned rootVar model = .ok expression)
    (hunrelated : ∀ rel ∈ model.relationships, bag.present? rel.name = none)
    (hrun : Draft.run {} (
      .start mode.verb rootVar model.labels (splitProperties mode model bag).inline
      :: Step.createProperties rootVar (splitProperties mode model bag).onCreate
      ++ Step.setProperties rootVar (splitProperties mode model bag).set
      ++ [.carry [rootVar], .returning [expression]]) = .ok draft) :
    mapper.writeDraft mode model bag = .ok draft := by
  have hplan : WritePlan.ofPayload mapper.registry mapper.config.writeLimit mode rootVar model
      bag = _ := planNode_of_unrelated hunrelated
  rw [Mapper.writeDraft, hplan, hreturned]
  simpa [WritePlan.steps, WritePlan.stepsIn, linkSteps, Except.mapError, bind, Except.bind]
    using congrArg (Except.mapError MapperError.fault) hrun

/-- The query that merges prepared properties does what the merge of their entity does. -/
theorem exists_writeDraft {expression : String}
    (hreturned : mapper.returned rootVar model = .ok expression)
    (hunrelated : ∀ rel ∈ model.relationships, prepared.present? rel.name = none) :
    ∃ draft, mapper.writeDraft .merge model prepared = .ok draft ∧
      ∀ same store, draft.execute? same store =
        some ((entityMerge model prepared).execute same store) := by
  have hroot : isIdentifier rootVar.toList := by decide
  have hinline : ∀ entry ∈ (splitProperties .merge model prepared).inline, entry.2.isNull = false :=
    fun entry hentry => @isNull_of_mem_split .merge model prepared .inline entry hentry
  obtain ⟨draft, hrun, hexecute⟩ := run_entity hroot model.labels hinline
    (splitProperties .merge model prepared).onCreate (splitProperties .merge model prepared).set
    [expression]
  exact ⟨draft, writeDraft_of_unrelated hreturned hunrelated hrun, hexecute⟩

/-- A merge of declared properties is idempotent. A payload that gives a value by which the merge
may find the entity is prepared from two supplies of identifiers and results of generators. Then
both preparations are compiled, and whatever the store, to execute the one and then the other leaves
it as the first one left it, with at most one node more. This needs that no relationship has the
reserved key, nor a property of a type whose generators may give nulls, and that values of the
pattern are equal to themselves. -/
theorem merge_idempotent {expression : String} {same : Value → Value → Bool}
    (hdeclared : ∀ key ∈ KeyedList.keys payload, key ∈ model.properties.map Property.name)
    (hgives : givesKey model payload)
    (hrelationships : defaultedKey ∉ model.relationships.map Relationship.name)
    (hproperties : defaultedKey ∉ model.properties.map Property.name ∨
      ∀ p ∈ model.properties, p.NeverNull)
    (hreturned : mapper.returned rootVar model = .ok expression)
    (h : (prepare mapper.registry mapper.config.maxWriteDepth model payload).run.run supply =
      (.ok prepared, rest))
    (h' : (prepare mapper.registry mapper.config.maxWriteDepth model payload).run.run supply' =
      (.ok prepared', rest'))
    (hsame : ∀ entry ∈ (splitProperties .merge model prepared).inline, same entry.2 entry.2) :
    ∃ first again, mapper.writeDraft .merge model prepared = .ok first ∧
      mapper.writeDraft .merge model prepared' = .ok again ∧
      ∀ store, ∃ once, first.execute? same store = some once ∧
        again.execute? same once = some once ∧
        store.length ≤ once.length ∧ once.length ≤ store.length + 1 := by
  have hyields : (prepare mapper.registry mapper.config.maxWriteDepth model payload).Yields
      prepared := ⟨supply, rest, h⟩
  have hyields' : (prepare mapper.registry mapper.config.maxWriteDepth model payload).Yields
      prepared' := ⟨supply', rest', h'⟩
  obtain ⟨first, hfirst, hexecute⟩ := exists_writeDraft hreturned
    (unrelated_of_prepare hyields hdeclared hrelationships)
  obtain ⟨again, hagain, hexecute'⟩ := exists_writeDraft hreturned
    (unrelated_of_prepare hyields' hdeclared hrelationships)
  have hlabels : (entityMerge model prepared').labels = (entityMerge model prepared).labels := rfl
  have hinline : (entityMerge model prepared').inline = (entityMerge model prepared).inline :=
    @sameParts _ _ _ _ _ _ hyields hyields' hgives hdeclared hproperties .inline (by decide)
  have hset : (entityMerge model prepared').set = (entityMerge model prepared).set :=
    @sameParts _ _ _ _ _ _ hyields hyields' hgives hdeclared hproperties .set (by decide)
  refine ⟨first, again, hfirst, hagain, fun store => ⟨_, hexecute same store, ?_, ?_⟩⟩
  · rw [hexecute', execute_again (stable_entityMerge hsame) hlabels hinline hset]
  · exact NodeMerge.length_execute same _ store

end

/-- Subscribers are known by their addresses. They are on the free plan unless another one is given,
and get a token. -/
def subscriber : EntityType where
  name := "Subscriber"
  labels := ["Subscriber"]
  properties := [Property.asPrimary { name := "email", type := .string },
    { name := "plan", type := .string, defaultValue := some (.literal (.string "free")) },
    { name := "seats", type := .integer },
    { name := "token", type := .uuid }]
  relationships := []
  labels_ne_nil := by decide
  labels_ascending := by decide
  properties_nodup := by decide
  relationships_nodup := List.nodup_nil
  keys_disjoint _ hkey := absurd hkey List.not_mem_nil
  primary_le_one := by decide

/-- The mapper of subscribers. -/
def subscribers : Mapper := ⟨⟨[subscriber], by decide⟩, {}⟩

/-- A subscriber with its seats. -/
def signup : Bag := [("email", .string "a@example.com"), ("seats", .int 2)]

/-- Texts are equal where they are the same. -/
def sameText (value other : Value) : Bool :=
  value.string?.isSome && value.string? == other.string?

/-- The second merge of a subscriber, for which another token is generated, leaves the store as the
first one left it. -/
theorem signup_idempotent :
    ∃ prepared prepared' rest rest' first again,
      (prepare subscribers.registry subscribers.config.maxWriteDepth subscriber signup).run.run
        (onlyUuid 0 0) = (.ok prepared, rest) ∧
      (prepare subscribers.registry subscribers.config.maxWriteDepth subscriber signup).run.run
        (onlyUuid 1 0) = (.ok prepared', rest') ∧
      subscribers.writeDraft .merge subscriber prepared = .ok first ∧
      subscribers.writeDraft .merge subscriber prepared' = .ok again ∧
      ∀ store, ∃ once, first.execute? sameText store = some once ∧
        again.execute? sameText once = some once ∧
        store.length ≤ once.length ∧ once.length ≤ store.length + 1 := by
  have hreturned : ∃ expression, subscribers.returned rootVar subscriber = .ok expression :=
    ⟨_, rfl⟩
  obtain ⟨expression, hreturned⟩ := hreturned
  have hprepared : ∃ prepared rest, (prepare subscribers.registry subscribers.config.maxWriteDepth
      subscriber signup).run.run (onlyUuid 0 0) = (.ok prepared, rest) ∧
        (splitProperties .merge subscriber prepared).inline =
          [("email", .string "a@example.com")] := ⟨_, _, rfl, rfl⟩
  obtain ⟨prepared, rest, h, hinline⟩ := hprepared
  have hprepared' : ∃ prepared' rest', (prepare subscribers.registry
      subscribers.config.maxWriteDepth subscriber signup).run.run (onlyUuid 1 0) =
        (.ok prepared', rest') := ⟨_, _, rfl⟩
  obtain ⟨prepared', rest', h'⟩ := hprepared'
  have hsame : ∀ entry ∈ (splitProperties .merge subscriber prepared).inline,
      sameText entry.2 entry.2 := by
    intro entry hentry
    rw [hinline] at hentry
    rw [List.mem_singleton.mp hentry]
    decide
  obtain ⟨first, again, hfirst, hagain, hexecute⟩ :=
    merge_idempotent (by decide) (by decide) (by decide) (.inl (by decide)) hreturned h h' hsame
  exact ⟨prepared, prepared', rest, rest', first, again, h, h', hfirst, hagain, hexecute⟩

/-- Tags are known by their labels. -/
def tag : EntityType where
  name := "Tag"
  labels := ["Tag"]
  properties := [Property.asPrimary { name := "label", type := .string }]
  relationships := []
  labels_ne_nil := by decide
  labels_ascending := by decide
  properties_nodup := by decide
  relationships_nodup := List.nodup_nil
  keys_disjoint _ hkey := absurd hkey List.not_mem_nil
  primary_le_one := by decide

/-- Subscribers with tags, which are under the reserved key. -/
def taggedSubscriber : EntityType :=
  { subscriber with
    relationships := [
      { name := defaultedKey, shape := .nodes, type := "TAGGED", direction := .outgoing,
        target := .model "Tag" }]
    relationships_nodup := by decide
    keys_disjoint := by decide }

/-- The mapper of subscribers with tags. -/
def taggedSubscribers : Mapper := ⟨⟨[taggedSubscriber, tag], by decide⟩, {}⟩

/-- Where tags are under the reserved key, the names of what was filled in are merged as tags: the
merge of a subscriber without tags, into a store without nodes, creates three nodes. -/
theorem note_merged :
    (∀ key ∈ KeyedList.keys signup, key ∈ taggedSubscriber.properties.map Property.name) ∧
    givesKey taggedSubscriber signup ∧
    ∃ prepared rest draft first second third,
      (prepare taggedSubscribers.registry taggedSubscribers.config.maxWriteDepth taggedSubscriber
        signup).run.run (onlyUuid 0 0) = (.ok prepared, rest) ∧
      taggedSubscribers.writeDraft .merge taggedSubscriber prepared = .ok draft ∧
      draft.statements.filterMap (Statement.nodeMerge? draft.params) = [first, second, third] ∧
      second.labels = ["Tag"] ∧ second.inline = [("label", .string "plan")] ∧
      third.labels = ["Tag"] ∧ third.inline = [("label", .string "token")] ∧
      (third.execute sameText (second.execute sameText (first.execute sameText []))).length = 3 :=
  ⟨by decide, by decide, _, _, _, _, _, _, rfl, rfl, rfl, rfl, rfl, rfl, rfl, rfl⟩

/-- Reports have a remark, which is under the reserved key, and a grade, for which at first there is
none. -/
def report : EntityType where
  name := "Report"
  labels := ["Report"]
  properties := [Property.asPrimary { name := "number", type := .integer },
    { name := defaultedKey, type := .any },
    { name := "grade", type := .string,
      defaultValue := some (.generator fun n => if n = 0 then .null else .string "A") }]
  relationships := []
  labels_ne_nil := by decide
  labels_ascending := by decide
  properties_nodup := by decide
  relationships_nodup := List.nodup_nil
  keys_disjoint _ hkey := absurd hkey List.not_mem_nil
  primary_le_one := by decide

/-- The mapper of reports. -/
def reports : Mapper := ⟨⟨[report], by decide⟩, {}⟩

/-- Where a property is under the reserved key, and a generator gives a null at first, the note of
the second merge overwrites the value that the first one stored. -/
theorem note_overwrites :
    ∃ prepared prepared' rest rest' first again node node',
      (prepare reports.registry reports.config.maxWriteDepth report
        [(defaultedKey, .string "late"), ("number", .int 7)]).run.run
          { onlyUuid 0 0 with resultsTaken := 0 } = (.ok prepared, rest) ∧
      (prepare reports.registry reports.config.maxWriteDepth report
        [(defaultedKey, .string "late"), ("number", .int 7)]).run.run
          { onlyUuid 0 0 with resultsTaken := 1 } = (.ok prepared', rest') ∧
      reports.writeDraft .merge report prepared = .ok first ∧
      reports.writeDraft .merge report prepared' = .ok again ∧
      first.execute? (fun value other => value.int? == other.int?) [] = some [node] ∧
      again.execute? (fun value other => value.int? == other.int?) [node] = some [node'] ∧
      KeyedList.get? node.properties defaultedKey = some (.string "late") ∧
      KeyedList.get? node'.properties defaultedKey = some (.list [.string "grade"]) :=
  ⟨_, _, _, _, _, _, _, _, rfl, rfl, rfl, rfl, rfl, rfl, rfl, rfl⟩

end GraphMapper

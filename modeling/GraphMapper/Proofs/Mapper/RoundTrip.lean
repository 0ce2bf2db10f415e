import GraphMapper.Proofs.Cypher.Creation
import GraphMapper.Proofs.Hydration
import GraphMapper.Proofs.Mapper.Idempotence
import GraphMapper.Proofs.Mapper.Written

/-!
# What is created is loaded as it was written

The creation of an entity without related entities sends one query. A database that carries it out
stores one node and returns the projection of that: every projected property as it is stored or
null, and for every eager field that nothing was found (`Projection.lone`). What is loaded from the
answer is the entity as it was prepared: every property that results show has its prepared value, or
null where it was left out, and there is nothing else (`create_hydrates`).

This needs that the note of what was filled in is not taken for related entities, as it is where a
relationship has the reserved key. Then the creation may be refused before any query is sent
(`note_refused`).
-/

namespace GraphMapper

open Cypher Hydration Preparing

variable {registry : Registry} {levels : Nat} {model : EntityType} {bag checked prepared : Bag}

/-! ## Creating an entity without related entities -/

/-- A creation sets nothing that is not in the pattern. -/
theorem set_of_create : (splitProperties .create model bag).set = [] := by
  refine Decidable.byContradiction fun h => ?_
  obtain ⟨p, -, -, hpart⟩ := (@part_ne_nil_iff .create model bag .set).mp h
  cases hpart

/-- The node that a creation stores for a bag. -/
def storedNode (model : EntityType) (bag : Bag) : StoredNode :=
  (StoredNode.bare model.labels).assignAll (splitProperties .create model bag).inline

/-- It has the values of the declared properties, and nothing else. -/
theorem get?_storedNode (key : String) :
    KeyedList.get? (storedNode model bag).properties key =
      (model.property? key).bind fun _ => bag.present? key := by
  have hpresent : ∀ entry ∈ (splitProperties .create model bag).inline, entry.2.isNull = false :=
    fun entry hentry => @isNull_of_mem_split .create model bag .inline entry hentry
  have hnodup := KeyedList.keys_nodup (@part_ascending .create model bag .inline)
  have hget : KeyedList.get? (splitProperties .create model bag).inline key =
      (model.property? key).bind fun _ => bag.present? key :=
    @get?_splitProperties .create model bag .inline key
  rw [storedNode, get?_assignAll hpresent hnodup, hget]
  split
  · rfl
  · next hkey =>
    rw [← hget]
    exact (KeyedList.get?_eq_none_iff.mpr hkey).symm

/-- The labels of the type are those of the node. -/
theorem labels_storedNode : (storedNode model bag).labels = model.labels :=
  labels_assignAll

/-- The query that creates an entity without related entities stands for the creation of its
node. -/
theorem exists_creationDraft {mapper : Mapper} {expression : String}
    (hreturned : mapper.returned rootVar model = .ok expression)
    (hunrelated : ∀ rel ∈ model.relationships, bag.present? rel.name = none) :
    ∃ draft, mapper.writeDraft .create model bag = .ok draft ∧
      draft.creation? = some ⟨rootVar, storedNode model bag, [expression]⟩ := by
  have hpresent : ∀ entry ∈ (splitProperties .create model bag).inline, entry.2.isNull = false :=
    fun entry hentry => @isNull_of_mem_split .create model bag .inline entry hentry
  have hroot : rootVar ≠ "" := by decide
  obtain ⟨draft, hrun, hcreation⟩ := run_creation hroot model.labels hpresent [expression]
  refine ⟨draft, writeDraft_of_unrelated hreturned hunrelated ?_, hcreation⟩
  rw [onCreate_of_create, set_of_create]
  exact hrun

/-! ## What is returned of a node without relationships -/

/-- Nothing is found along the path of a field: null for a single one, and no items for any
other. -/
def EagerField.unmatched : EagerField → String × Value
  | .mk name _ single _ => (name, if single then .null else .list [])

/-- What a projection has of the properties of a node: all of them, or each of the named ones, null
where the node has none. -/
def projectedProperties (stored : StoredNode) : Option (List String) → Bag
  | none => stored.properties
  | some names => names.map fun name => (name, (KeyedList.get? stored.properties name).getD .null)

/-- The value that a projection of nodes returns of a node without relationships. -/
def Projection.lone (identity : Identity) (stored : StoredNode) : Projection → Value
  | .node _ properties fields => .map (KeyedList.ofPairs (
      projectedProperties stored properties ++
      [(identityKey, .int identity), (labelsKey, .list (stored.labels.map .string))] ++
      fields.map EagerField.unmatched))
  | .relationship _ _ _ _ => .null

/-- The projection of a type has the properties that results show, and fields with names of
relationships. -/
theorem exists_fields_of_ofModel {var : String} {projection : Projection}
    (h : Projection.ofModel registry levels var (some model) = .ok projection) :
    ∃ fields, projection = .node var (some (model.visible.map Property.name)) fields ∧
      (fields.map EagerField.name).Sublist (model.relationships.map Relationship.name) := by
  cases levels with
  | zero =>
    cases h
    exact ⟨[], rfl, List.nil_sublist _⟩
  | succ levels =>
    obtain ⟨fields, hfields, rfl⟩ := Projection.ofModel_succ_eq_ok.mp h
    exact ⟨fields, rfl, names_sublist hfields⟩

section

variable {identity : Identity} {stored : StoredNode} {fields : List EagerField}

/-- The keys of what is returned of a node: the properties, the markers and the fields. -/
theorem keys_lone (names : List String) :
    KeyedList.keys (projectedProperties stored (some names) ++
      [(identityKey, .int identity), (labelsKey, .list (stored.labels.map .string))] ++
      fields.map EagerField.unmatched) =
      names ++ [identityKey, labelsKey] ++ fields.map EagerField.name := by
  have hfields : ∀ field : EagerField, field.unmatched.1 = field.name := fun ⟨_, _, _, _⟩ => rfl
  simp [KeyedList.keys, projectedProperties, Function.comp_def, hfields]

/-- No key is returned twice of a type that spares the markers. -/
theorem keys_nodup_of_sparesMarkers (hmarkers : model.SparesMarkers)
    (hfields : (fields.map EagerField.name).Sublist (model.relationships.map Relationship.name)) :
    (model.visible.map Property.name ++ [identityKey, labelsKey] ++
      fields.map EagerField.name).Nodup := by
  have hvisible : (model.visible.map Property.name).Sublist (model.properties.map Property.name) :=
    List.filter_sublist.map _
  refine List.nodup_append.mpr ⟨List.nodup_append.mpr
    ⟨model.properties_nodup.sublist hvisible, by decide, ?_⟩,
    model.relationships_nodup.sublist hfields, ?_⟩
  · rintro name hname _ hmarker rfl
    exact (hmarkers name hmarker).1 (hvisible.subset hname)
  · rintro name hname _ hfield rfl
    rcases List.mem_append.mp hname with hname | hmarker
    · exact model.keys_disjoint name (hfields.subset hfield) (hvisible.subset hname)
    · exact (hmarkers name hmarker).2 (hfields.subset hfield)

/-- Fields along which nothing was found have the shapes of fields. -/
theorem fieldsShaped_of_unmatched {entries : Bag}
    (h : ∀ field ∈ fields, KeyedList.get? entries field.unmatched.1 = some field.unmatched.2) :
    FieldsShaped registry fields entries := by
  induction fields with
  | nil => trivial
  | cons field rest ih =>
    refine ⟨?_, ih fun field hfield => h field (List.mem_cons_of_mem _ hfield)⟩
    have hvalue := h field List.mem_cons_self
    obtain ⟨name, path, single, projection⟩ := field
    refine ⟨_, hvalue, ?_⟩
    cases single with
    | true => exact foundShaped_true.mpr (.inl rfl)
    | false => exact foundShaped_false.mpr ⟨[], rfl, nofun⟩

/-- What is returned of a node without relationships has the shape of the projection, and has every
property that results show, null where the node has none. -/
theorem lone_shaped {var : String} (hmarkers : model.SparesMarkers)
    (hfields : (fields.map EagerField.name).Sublist (model.relationships.map Relationship.name)) :
    ∃ entries : Bag, (Projection.node var (some (model.visible.map Property.name)) fields).lone
        identity stored = .map entries ∧
      (Projection.node var (some (model.visible.map Property.name)) fields).Shaped registry
        (.map entries) ∧
      HasIdentity entries identity ∧ HasLabels entries stored.labels ∧
      ∀ name ∈ model.visible.map Property.name, KeyedList.get? entries name =
        some ((KeyedList.get? stored.properties name).getD .null) := by
  have hnodup := keys_nodup_of_sparesMarkers hmarkers hfields
  rw [← @keys_lone identity stored] at hnodup
  have hentries := @KeyedList.get?_ofPairs_of_mem _ _ hnodup
  have hidentity := hentries (List.mem_append_left _ (List.mem_append_right _ List.mem_cons_self))
  have hlabels := hentries (List.mem_append_left _ (List.mem_append_right _
    (List.mem_cons_of_mem _ List.mem_cons_self)))
  have hvisible : ∀ name ∈ model.visible.map Property.name, _ := fun name hname =>
    hentries (List.mem_append_left _ (List.mem_append_left _ (List.mem_map_of_mem hname)))
  refine ⟨_, rfl, ⟨_, rfl, ⟨⟨_, hidentity⟩, _, hlabels, fun name hname => ?_⟩,
    fieldsShaped_of_unmatched fun field hfield => ?_⟩, hidentity, hlabels, hvisible⟩
  · rw [KeyedList.has, hvisible name hname]
    rfl
  · exact hentries (List.mem_append_right _ (List.mem_map_of_mem hfield))

/-- What is returned of a node without relationships is loaded, and shows what the node has. -/
theorem exists_loaded {limit : Nat} {var : String} {projection : Projection}
    (hmarkers : model.SparesMarkers)
    (hprojection : Projection.ofModel registry (Projection.levels limit 1) var (some model) =
      .ok projection) :
    ∃ entries loaded, projection.lone identity stored = .map entries ∧
      Node.ofValue registry limit 1 (some model) (.map entries) = .ok loaded ∧
      loaded.identity = identity ∧ loaded.labels = stored.labels ∧ loaded.model = model ∧
      ∀ key, KeyedList.get? loaded.properties key =
        if key ∈ model.visible.map Property.name then
          some ((KeyedList.get? stored.properties key).getD .null)
        else none := by
  obtain ⟨fields, rfl, hfields⟩ := exists_fields_of_ofModel hprojection
  obtain ⟨entries, hlone, hshaped, hidentity, hlabels, hvisible⟩ :=
    @lone_shaped registry model identity stored fields var hmarkers hfields
  obtain ⟨loaded, hloaded, _, hentries, hmirrors, -⟩ := inverts_projection hprojection hshaped
  cases hentries
  have hidentities : some (Value.int loaded.identity) = some (Value.int identity) :=
    hmirrors.identity.symm.trans hidentity
  have hmodel : loaded.model = model := by
    rcases hmirrors.model with hmodel | ⟨hmodel, -⟩ <;> cases hmodel
    rfl
  refine ⟨entries, loaded, hlone, hloaded, ?_, ?_, hmodel, fun key => ?_⟩
  · cases hidentities
    rfl
  · rw [← projectedLabels_of_hasLabels hmirrors.labels, projectedLabels_of_hasLabels hlabels]
  · have hshown := hmirrors.properties.2 key
    rw [hmodel] at hshown
    refine hshown.trans (if_ctx_congr Iff.rfl (fun hname => ?_) fun _ => rfl)
    exact hvisible key hname

end

/-- What is loaded from the only value of an answer is the node that a request asks for. -/
theorem firstNode_of_loaded {mapper : Mapper} {var title : String} {entries : Bag} {loaded : Node}
    (h : Node.ofValue mapper.registry mapper.config.maxEagerDepth 1 (some model) (.map entries) =
      .ok loaded) :
    mapper.firstNode var model title [⟨[(var, .map entries)]⟩] = .ok loaded := by
  have hrow : Row.get? ⟨[(var, .map entries)]⟩ var = some (.map entries) := by
    simp [Row.get?, KeyedList.get?]
  simp [Mapper.firstNode, Mapper.firstNode?, Node.ofFirstRow, Node.ofRow, hrow, h, Except.map,
    Except.mapError, bind, Except.bind, pure, Except.pure]

/-- A request ends with what its rows mean. -/
theorem answeredBy_send {α σ : Type} {request : Request α} {db : Database σ} {before after : σ}
    {rows : List Row} {result : Except MapperError α}
    (h : (db.run request.access request.query).run before = (.ok rows, after))
    (hresult : request.answer rows = result) :
    (request.send.answeredBy db).run before = (result, after) := by
  rw [Request.send, Dialogue.answeredBy, StateT.run_bind, h, ← hresult]
  rfl

/-! ## Preparing a payload without related entities -/

/-- Nothing comes under the key of a relationship where nothing is, unless the note of what was
filled in does. -/
theorem unrelated_of_prepareProperties (h : (prepareProperties model bag).Yields checked)
    (hunrelated : ∀ rel ∈ model.relationships, KeyedList.get? bag rel.name = none)
    (hnote : defaultedKey ∉ model.relationships.map Relationship.name ∨
      defaultedNames checked = []) :
    ∀ rel ∈ model.relationships, KeyedList.get? checked rel.name = none := by
  intro rel hrel
  have hname : rel.name ∈ model.relationships.map Relationship.name := List.mem_map_of_mem hrel
  obtain ⟨note, hfilled, -⟩ := exists_filled h
  have hother : note = [] ∨ rel.name ≠ defaultedKey := by
    rcases hnote with hreserved | hnames
    · exact .inr fun hkey => hreserved (hkey ▸ hname)
    · refine .inl (Decidable.byContradiction fun hne => hne ?_)
      rw [← defaultedNames_of_marked (hfilled.marked hne), hnames]
  rw [hfilled.other rel.name (model.keys_disjoint rel.name hname) hother, hunrelated rel hrel]

/-- A payload has nothing more to prepare than its properties where it has no related entities. -/
theorem run_prepare_of_unrelated {supply rest : Supply}
    (h : (prepareProperties model bag).run.run supply = (.ok checked, rest))
    (hunrelated : ∀ rel ∈ model.relationships, KeyedList.get? checked rel.name = none) :
    (prepare registry levels model bag).run.run supply = (.ok checked, rest) := by
  cases levels with
  | zero => exact h
  | succ levels =>
    have hbelow : ∀ rels ⊆ model.relationships,
        rels.foldlM (prepareUnder registry (prepare registry levels)) checked = pure checked := by
      intro rels hrels
      induction rels with
      | nil => rfl
      | cons rel rest ih =>
        have hunder : prepareUnder registry (prepare registry levels) checked rel =
            pure checked := by
          rw [prepareUnder, hunrelated rel (hrels List.mem_cons_self)]
        rw [List.foldlM_cons, hunder, pure_bind]
        exact ih fun other hother => hrels (List.mem_cons_of_mem rel hother)
    rw [prepare, run_bind_of_run h, hbelow model.relationships (List.Subset.refl _)]
    rfl

/-! ## The round trip -/

/-- What is created is loaded as it was written. Where the properties of a payload without related
entities can be prepared, its creation sends one query and then ends. That query stands for the
creation of one node, of which it returns the projection; and if a database answers it with what the
projection returns of that node, a node of the type is loaded that has the prepared value of every
property that results show, or null where it was left out, and no other properties. -/
theorem create_hydrates {mapper : Mapper} {name : String} {payload : Bag} {supply rest : Supply}
    {projection : Projection} (hmodel : mapper.model name = .ok model)
    (hprojection : Projection.ofModel mapper.registry
      (Projection.levels mapper.config.maxEagerDepth 1) rootVar (some model) = .ok projection)
    (hmarkers : model.SparesMarkers)
    (hunrelated : ∀ rel ∈ model.relationships, KeyedList.get? payload rel.name = none)
    (hprepared : (prepareProperties model payload).run.run supply = (.ok prepared, rest))
    (hnote : defaultedKey ∉ model.relationships.map Relationship.name ∨
      defaultedNames prepared = []) :
    ∃ (draft : Draft) (stored : StoredNode) (next : Outcome → Dialogue (Except MapperError Node)),
      ((mapper.create name payload).run supply).1 = .run .write draft.query next ∧
      (∀ outcome, ∃ result, next outcome = .done result) ∧
      draft.creation? = some ⟨rootVar, stored, [projection.text ++ " AS " ++ rootVar]⟩ ∧
      ∀ {σ : Type} (db : Database σ) (before after : σ) (identity : Identity),
        (db.run .write draft.query).run before =
          (.ok [⟨[(rootVar, projection.lone identity stored)]⟩], after) →
        ∃ loaded, (((mapper.create name payload).run supply).1.answeredBy db).run before =
            (.ok loaded, after) ∧
          loaded.identity = identity ∧ loaded.labels = model.labels ∧ loaded.model = model ∧
          ∀ key, KeyedList.get? loaded.properties key =
            if key ∈ model.visible.map Property.name then
              some ((prepared.present? key).getD .null)
            else none := by
  have hnone := unrelated_of_prepareProperties ⟨supply, rest, hprepared⟩ hunrelated hnote
  have hreturned : mapper.returned rootVar model = .ok (projection.text ++ " AS " ++ rootVar) := by
    rw [Mapper.returned, Projection.returnExpression, hprojection]
    rfl
  obtain ⟨draft, hdraft, hcreation⟩ := @exists_creationDraft model prepared mapper _ hreturned
    fun rel hrel => by
      rw [Bag.present?, hnone rel hrel]
      rfl
  have hquery : mapper.writeQuery .create model prepared = .ok draft.query := by
    rw [Mapper.writeQuery_eq, hdraft]
    rfl
  have hdialogue : ((mapper.create name payload).run supply).1 =
      Dialogue.ofRequest ((mapper.writeRequest .create name payload).run.run supply).1 := rfl
  rw [run_writeRequest hmodel (run_prepare_of_unrelated hprepared hnone) hquery] at hdialogue
  refine ⟨draft, storedNode model prepared, _, hdialogue, ?_, hcreation, ?_⟩
  · rintro (cause | rows)
    · exact ⟨_, rfl⟩
    · exact ⟨_, rfl⟩
  · intro σ db before after identity hanswer
    obtain ⟨entries, loaded, hlone, hloaded, hidentity, hlabels, hloadedModel, hproperties⟩ :=
      @exists_loaded mapper.registry model identity (storedNode model prepared)
        mapper.config.maxEagerDepth rootVar projection hmarkers hprojection
    refine ⟨loaded, ?_, hidentity, hlabels.trans labels_storedNode, hloadedModel, fun key => ?_⟩
    · rw [hlone] at hanswer
      rw [hdialogue]
      exact answeredBy_send hanswer (firstNode_of_loaded hloaded)
    · rw [hproperties key]
      refine if_ctx_congr Iff.rfl (fun hname => ?_) fun _ => rfl
      obtain ⟨p, hp, rfl⟩ := List.mem_map.mp hname
      rw [get?_storedNode, EntityType.property?_of_mem (List.mem_of_mem_filter hp)]
      rfl

/-- Guests stay for a day unless told otherwise, and have a code that no result shows. -/
def guest : EntityType where
  name := "Guest"
  labels := ["Guest"]
  properties := [Property.asPrimary { name := "name", type := .string },
    { name := "code", type := .string, hidden := true },
    { name := "days", type := .integer, defaultValue := some (.literal (.int 1)) },
    { name := "remark", type := .string }]
  relationships := [
    { name := "hosts", shape := .nodes, type := "HOSTED_BY", direction := .outgoing,
      target := .any, eager := true }]
  labels_ne_nil := by decide
  labels_ascending := by decide
  properties_nodup := by decide
  relationships_nodup := by decide
  keys_disjoint := by decide
  primary_le_one := by decide

/-- The mapper of guests. -/
def inn : Mapper := ⟨⟨[guest], by decide⟩, {}⟩

/-- A guest of whom nothing is remarked. -/
def arrival : Bag := [("code", .string "4711"), ("name", .string "Ann")]

/-- A database that stores the same node for every query, and answers with the projection of it. -/
def storing (stored : StoredNode) (projection : Projection) : Database Store where
  run _ _ store := (.ok [⟨[(rootVar, projection.lone (Int64.ofNat store.length) stored)]⟩],
    store ++ [stored])
  begin := pure (.ok ())
  dispatch _ := pure []
  commit := pure (.ok ())
  rollback := pure (.ok ())

/-- The first guest is stored, and is loaded with the days that were filled in and without the
code. -/
theorem arrival_hydrates :
    ∃ projection draft stored loaded,
      Projection.ofModel inn.registry (Projection.levels inn.config.maxEagerDepth 1) rootVar
        (some guest) = .ok projection ∧
      Draft.creation? draft = some ⟨rootVar, stored, [projection.text ++ " AS " ++ rootVar]⟩ ∧
      (((inn.create "Guest" arrival).run (onlyUuid 0 0)).1.answeredBy
        (storing stored projection)).run [] = (.ok loaded, [stored]) ∧
      loaded.identity = 0 ∧ loaded.labels = ["Guest"] ∧ loaded.model = guest ∧
      KeyedList.get? loaded.properties "name" = some (.string "Ann") ∧
      KeyedList.get? loaded.properties "days" = some (.int 1) ∧
      KeyedList.get? loaded.properties "remark" = some .null ∧
      KeyedList.get? loaded.properties "code" = none := by
  have hmodel : inn.model "Guest" = .ok guest := rfl
  have hprojection : ∃ projection, Projection.ofModel inn.registry
      (Projection.levels inn.config.maxEagerDepth 1) rootVar (some guest) = .ok projection :=
    ⟨_, rfl⟩
  obtain ⟨projection, hprojection⟩ := hprojection
  have hprepared : ∃ prepared rest, (prepareProperties guest arrival).run.run (onlyUuid 0 0) =
      (.ok prepared, rest) ∧ prepared.present? "name" = some (.string "Ann") ∧
      prepared.present? "days" = some (.int 1) ∧ prepared.present? "remark" = none :=
    ⟨_, _, rfl, rfl, rfl, rfl⟩
  obtain ⟨prepared, rest, hprepared, hname, hdays, hremark⟩ := hprepared
  obtain ⟨draft, stored, next, -, -, hcreation, hloads⟩ :=
    create_hydrates hmodel hprojection (by decide) (by decide) hprepared (.inl (by decide))
  obtain ⟨loaded, hrun, hidentity, hlabels, hloaded, hproperties⟩ :=
    hloads (storing stored projection) [] [stored] 0 rfl
  refine ⟨projection, draft, stored, loaded, hprojection, hcreation, hrun, hidentity, hlabels,
    hloaded, ?_, ?_, ?_, ?_⟩
  · rw [hproperties, hname]
    rfl
  · rw [hproperties, hdays]
    rfl
  · rw [hproperties, hremark]
    rfl
  · rw [hproperties]
    rfl

/-- Memos are about other memos, which are under the reserved key. They have no primary key. -/
def memo : EntityType where
  name := "Memo"
  labels := ["Memo"]
  properties := [{ name := "text", type := .string, defaultValue := some (.literal (.string "-")) }]
  relationships := [
    { name := defaultedKey, shape := .nodes, type := "ABOUT", direction := .outgoing,
      target := .model "Memo" }]
  labels_ne_nil := by decide
  labels_ascending := by decide
  properties_nodup := by decide
  relationships_nodup := by decide
  keys_disjoint := by decide
  primary_le_one := by decide

/-- The mapper of memos. -/
def memos : Mapper := ⟨⟨[memo], by decide⟩, {}⟩

/-- Where memos are under the reserved key, the note that the text was filled in is taken for a
reference to a memo, and the creation of an empty memo is refused. -/
theorem note_refused :
    memos.model "Memo" = .ok memo ∧ memo.SparesMarkers ∧
    (∀ rel ∈ memo.relationships, KeyedList.get? ([] : Bag) rel.name = none) ∧
    ∃ projection prepared rest,
      Projection.ofModel memos.registry (Projection.levels memos.config.maxEagerDepth 1) rootVar
        (some memo) = .ok projection ∧
      (prepareProperties memo []).run.run (onlyUuid 0 0) = (.ok prepared, rest) ∧
      ((memos.create "Memo" []).run (onlyUuid 0 0)).1 =
        .done (.error (.compile (.missingPrimaryKey defaultedKey "Memo" "Memo"))) :=
  ⟨rfl, by decide, by decide, _, _, _, rfl, rfl, rfl⟩

end GraphMapper

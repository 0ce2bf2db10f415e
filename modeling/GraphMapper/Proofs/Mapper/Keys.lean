import GraphMapper.Proofs.Mapper.Drafts
import GraphMapper.Proofs.Mapper.References
import GraphMapper.Proofs.Schema.Registration

/-!
# The keys of references

An entity may be named in a payload by a bag that holds its primary key, or by a scalar that is the
key. The bag is checked, and written with what the declared type of the key makes of the value; the
scalar is merged as it is given. So both mean the same entity exactly when the declared type leaves
the scalar as it is (`reference_agrees_iff`). A text that denotes an integer, under a key that is an
integer, names another entity than a bag with that text does, and a text that denotes none is sent
although the bag would be refused (`text_reference_sent`).
-/

namespace GraphMapper

open Cypher Preparing

variable {mapper : Mapper} {mode : WriteMode} {name : String} {payload prepared bag : Bag}
  {supply rest : Supply} {model : EntityType} {draft : Draft} {rel : Relationship}
  {path : List Hop} {hop : Hop} {value : Value} {plan : WritePlan} {p : Property}

/-- A scalar stands for the entity with that primary key. -/
theorem referenceTarget?_of_isScalar {target : EntityType} {var : String} {found : WriteTarget}
    (hscalar : value.isScalar = true) (h : referenceTarget? target var value = some found) :
    ∃ key, target.primaryKey? = some key ∧ found = .reference var target.labels key value := by
  have hfound : (target.primaryKey?.map fun key => .reference var target.labels key value) =
      some found := by
    cases value <;> simp_all [referenceTarget?, Value.isScalar]
  obtain ⟨key, hkey, rfl⟩ := Option.map_eq_some_iff.mp hfound
  exact ⟨key, hkey, rfl⟩

/-- A scalar in a payload is still in its place once the payload is prepared, and is planned there
as the entity with that primary key. -/
theorem targetAt?_of_prepared_scalar
    (hprepared : (prepare mapper.registry mapper.config.maxWriteDepth model payload).Yields
      prepared)
    (hplan : WritePlan.ofPayload mapper.registry mapper.config.writeLimit mode rootVar model
      prepared = .ok plan)
    (hplace : farAt? mapper.registry model payload path hop = some (rel, value))
    (hscalar : value.isScalar = true) (hdepth : path.length < mapper.config.maxWriteDepth)
    (hreserved : ∀ step ∈ path ++ [hop], step.name ≠ defaultedKey) :
    ∃ target key, mapper.registry.target? rel = some target ∧ target.primaryKey? = some key ∧
      plan.targetAt? path hop = some (.reference (farVar (varAt mapper.registry model rootVar path)
        rel (hop.index.getD 0)) target.labels key value) := by
  have hreference : value.isReference = true := by cases value <;> simp_all [Value.isReference]
  have hbag := Value.entries?_of_isReference hreference
  have hhop : hop.name ≠ defaultedKey := hreserved hop (by simp)
  obtain ⟨⟨owner, inner⟩, hinner, hlead⟩ := Option.bind_eq_some_iff.mp hplace
  obtain ⟨fewer, hfewer⟩ : ∃ fewer, mapper.config.maxWriteDepth - path.length = fewer + 1 :=
    ⟨mapper.config.maxWriteDepth - path.length - 1, by omega⟩
  obtain ⟨others, hothers, hyields⟩ := bagAt?_of_prepare hprepared hinner
    (Nat.le_of_lt hdepth) fun step hstep => hreserved step (List.mem_append_left _ hstep)
  obtain ⟨mode', node, -, hnode⟩ := exists_nodeAt hplan hothers (Nat.le_of_lt hdepth)
  have hlimit : mapper.config.writeLimit.depth - path.length = fewer + 1 := hfewer
  rw [hfewer] at hyields
  rw [hlimit] at hnode
  -- A relationship that is held would have lost the scalar, and not be planned.
  have hshape := isRelationship_eq_false_of_planned hyields hhop hlead hbag hnode
  have hafter : farAt? mapper.registry model prepared path hop = some (rel, value) := by
    rw [farAt?, hothers, Option.bind_some, lead?_of_prepare_reference hyields hhop hlead hbag,
      hshape, if_neg (by simp)]
  obtain ⟨target, found, htarget, hfound, hstands⟩ :=
    targetAt?_of_reference hplan hafter hdepth hreference
  obtain ⟨key, hkey, rfl⟩ := referenceTarget?_of_isScalar hscalar hstands
  exact ⟨target, key, htarget, hkey, hfound⟩

/-- An entity that is written from a bag has, under the name of a property that the bag has a value
for, what the declared type makes of the value, which it does not refuse. -/
theorem exists_write_of_drafts
    (h : (WriteCall.write mode model.name bag supply).Drafts mapper draft)
    (hmodel : model ∈ mapper.registry.models) (hp : p ∈ model.properties)
    (hkey : p.name ≠ defaultedKey) (hvalue : bag.present? p.name = some value) :
    ∃ write writes, draft.nodeWrites? = some writes ∧ write ∈ writes ∧
      write = mode.nodeWrite write.node ∧ write.node.labels = model.labels ∧
      (∃ result, coerce p.type value = .ok result) ∧
      ∀ result, (p.name, result) ∈ write.node.entries ↔ coerce p.type value = .ok result := by
  cases h with
  | write hfound hprepared hdraft =>
    rw [model_of_mem_models hmodel] at hfound
    cases hfound
    obtain ⟨plan, hplan, hwrites⟩ := exists_plan_of_writeDraft hdraft
    obtain ⟨checked, hchecked, hsame⟩ := exists_checked_of_prepare ⟨_, _, hprepared⟩
    obtain ⟨note, hfilled, -⟩ := exists_filled hchecked
    obtain ⟨result, hcoerce, hresult⟩ := hfilled.given p hp (.inr hkey) value hvalue
    have hroot := nodeWrite_mem_nodeWrites plan
    rw [nodeWrite_eq_entityWrite hplan] at hroot
    refine ⟨_, _, hwrites, hroot, by cases mode <;> rfl, labels_entityWrite, ⟨result, hcoerce⟩,
      fun other => ?_⟩
    rw [entries_entityWrite, mem_entries_splitProperties, hcoerce]
    rw [← hsame.declared p hp] at hresult
    constructor
    · rintro ⟨q, -, hname, hother⟩
      rw [hname, hresult] at hother
      exact congrArg Except.ok (Option.some.inj hother)
    · rintro ⟨⟩
      exact ⟨p, hp, rfl, hresult⟩

/-- A scalar that a creation or a merge sends for an entity is merged as it is, under the primary
key of the registered type it refers to. Whatever bag with that scalar under the key is written as
an entity of that type, in whatever mode, is written with what the declared type of the key makes of
the scalar. So the reference means the entity of the bag exactly when the declared type leaves the
scalar as it is; and where it refuses the scalar, no such bag is written at all. -/
theorem reference_agrees_iff {access : Access} {query : Query}
    {next : Outcome → Dialogue (Except MapperError Node)}
    (hwrite : (mapper.write mode name payload).run supply = (.run access query next, rest))
    (hmodel : mapper.model name = .ok model)
    (hplace : farAt? mapper.registry model payload path hop = some (rel, value))
    (hscalar : value.isScalar = true) (hdepth : path.length < mapper.config.maxWriteDepth)
    (hreserved : ∀ step ∈ path ++ [hop], step.name ≠ defaultedKey) :
    ∃ target p draft writes, mapper.registry.target? rel = some target ∧
      p ∈ target.properties ∧ p.primary ∧
      (WriteCall.write mode name payload supply).Drafts mapper draft ∧ query = draft.query ∧
      draft.nodeWrites? = some writes ∧
      .merge { var := farVar (varAt mapper.registry model rootVar path) rel (hop.index.getD 0),
               labels := target.labels, inline := [(p.name, value)] } ∈ writes ∧
      (p.name ≠ defaultedKey → ∀ mode' bag supply' draft', KeyedList.get? bag p.name = some value →
        (WriteCall.write mode' target.name bag supply').Drafts mapper draft' →
        ∃ write writes', draft'.nodeWrites? = some writes' ∧ write ∈ writes' ∧
          write = mode'.nodeWrite write.node ∧ write.node.labels = target.labels ∧
          (∃ result, coerce p.type value = .ok result) ∧
          ∀ result, (p.name, result) ∈ write.node.entries ↔ coerce p.type value = .ok result) := by
  have hnull : value.isNull = false :=
    Value.isNull_of_isReference (by cases value <;> simp_all [Value.isReference])
  obtain ⟨-, draft, hdrafts, rfl⟩ := (@WriteCall.sends_iff mapper
    (.write mode name payload supply) access query).mp ⟨next, congrArg Prod.fst hwrite⟩
  have hsent := hdrafts
  cases hdrafts with
  | write hfound hprepared hdraft =>
    rw [hmodel] at hfound
    cases hfound
    obtain ⟨plan, hplan, hwrites⟩ := exists_plan_of_writeDraft hdraft
    obtain ⟨target, key, htarget, hkey, hplanned⟩ := targetAt?_of_prepared_scalar
      ⟨_, _, hprepared⟩ hplan hplace hscalar hdepth hreserved
    obtain ⟨p, hp, hprimary, rfl⟩ := EntityType.primaryKey?_eq_some.mp hkey
    refine ⟨target, p, draft, _, htarget, hp, hprimary, hsent, rfl, hwrites,
      mem_nodeWrites_of_targetAt? hplanned List.mem_cons_self, ?_⟩
    intro hreservedKey mode' bag supply' draft' hvalue hdrafts'
    exact exists_write_of_drafts hdrafts' (mem_models_of_target? htarget) hp hreservedKey
      (present?_eq_some.mpr ⟨hvalue, hnull⟩)

/-- Companies are known by a number. -/
def company : EntityType where
  name := "Company"
  labels := ["Company"]
  properties := [Property.asPrimary { name := "code", type := .integer }]
  relationships := []
  labels_ne_nil := by decide
  labels_ascending := by decide
  properties_nodup := by decide
  relationships_nodup := List.nodup_nil
  keys_disjoint := by decide
  primary_le_one := by decide

/-- The company that a worker works at. -/
def employment : Relationship where
  name := "employer"
  shape := .node
  type := "WORKS_AT"
  direction := .outgoing
  target := .model "Company"

/-- Workers are known by their names, and have an employer. -/
def worker : EntityType where
  name := "Worker"
  labels := ["Worker"]
  properties := [Property.asPrimary { name := "name", type := .string }]
  relationships := [employment]
  labels_ne_nil := by decide
  labels_ascending := by decide
  properties_nodup := List.nodup_singleton _
  relationships_nodup := by decide
  keys_disjoint := by decide
  primary_le_one := List.length_filter_le _ _

/-- The mapper of workers and their employers. -/
def firms : Mapper := ⟨⟨[company, worker], by decide⟩, {}⟩

/-- Somebody with an employer. -/
def employed (employer : Value) : Bag := [("employer", employer), ("name", .string "Ann")]

/-- An employer who is referred to by number is merged under that number, under which a bag with the
number is created too. -/
theorem number_reference_agrees :
    ∃ query next draft writes, (firms.write .create "Worker" (employed (.int 42))).run sameUuid =
        (.run .write query next, sameUuid) ∧
      (WriteCall.write .create "Worker" (employed (.int 42)) sameUuid).Drafts firms draft ∧
      query = draft.query ∧ draft.nodeWrites? = some writes ∧
      .merge { var := "this_employer_node", labels := ["Company"],
               inline := [("code", .int 42)] } ∈ writes ∧
      ∃ draft', (WriteCall.write .create "Company" [("code", .int 42)] sameUuid).Drafts firms
          draft' ∧
        ∃ node writes', draft'.nodeWrites? = some writes' ∧ .create node ∈ writes' ∧
          node.labels = ["Company"] ∧ ("code", .int 42) ∈ node.entries := by
  have hwrite : ∃ query next, (firms.write .create "Worker" (employed (.int 42))).run sameUuid =
      (.run .write query next, sameUuid) := ⟨_, _, rfl⟩
  obtain ⟨query, next, hwrite⟩ := hwrite
  have hplace : farAt? firms.registry worker (employed (.int 42)) [] ⟨"employer", none⟩ =
      some (employment, .int 42) := rfl
  obtain ⟨target, p, draft, writes, htarget, hp, -, hdrafts, hquery, hwrites, hmerge, hbags⟩ :=
    reference_agrees_iff hwrite rfl hplace rfl (by decide) (by decide)
  cases htarget
  obtain rfl := List.mem_singleton.mp hp
  have hsent : ∃ query next, (WriteCall.write .create "Company" [("code", .int 42)]
      sameUuid).dialogue firms = .run .write query next := ⟨_, _, rfl⟩
  obtain ⟨query', next', hsent⟩ := hsent
  obtain ⟨-, draft', hdrafts', -⟩ := WriteCall.sends_iff.mp ⟨next', hsent⟩
  obtain ⟨write, writes', hwrites', hwritten, hcreate, hlabels, -, hentries⟩ :=
    hbags (by decide) .create _ _ draft' rfl hdrafts'
  rw [hcreate] at hwritten
  exact ⟨query, next, draft, writes, hwrite, hdrafts, hquery, hwrites, hmerge, draft', hdrafts',
    write.node, writes', hwrites', hwritten, hlabels, (hentries _).mpr rfl⟩

/-- An employer who is referred to by a text is merged under that text. -/
theorem exists_draft_of_text (text : String) :
    ∃ draft : Draft, ∃ next writes,
      (firms.write .create "Worker" (employed (.string text))).run sameUuid =
        (.run .write draft.query next, sameUuid) ∧
      draft.nodeWrites? = some writes ∧
      .merge { var := "this_employer_node", labels := ["Company"],
               inline := [("code", .string text)] } ∈ writes := by
  have hdraft : ∃ draft, firms.writeDraft .create worker (employed (.string text)) = .ok draft :=
    ⟨_, rfl⟩
  obtain ⟨draft, hdraft⟩ := hdraft
  obtain ⟨plan, hplan, hwrites⟩ := exists_plan_of_writeDraft hdraft
  have htarget : plan.targetAt? [] ⟨"employer", none⟩ =
      some (.reference "this_employer_node" ["Company"] "code" (.string text)) := by
    cases hplan
    rfl
  have hdrafts : (WriteCall.write .create "Worker" (employed (.string text)) sameUuid).Drafts firms
      draft := .write rfl rfl hdraft
  obtain ⟨next, hnext⟩ := WriteCall.sends_iff.mpr ⟨rfl, draft, hdrafts, rfl⟩
  have hsent : (firms.write .create "Worker" (employed (.string text))).run sameUuid =
      (.run .write draft.query next, sameUuid) := Prod.ext hnext rfl
  have hmerge : NodeWrite.merge { var := "this_employer_node", labels := ["Company"],
                                  inline := [("code", .string text)] } ∈ plan.nodeWrites :=
    mem_nodeWrites_of_targetAt? htarget List.mem_cons_self
  exact ⟨draft, next, _, hsent, hwrites, hmerge⟩

/-- An employer who is referred to by a text is merged under the text, where a bag would be written
with the number that the text denotes; and a text that denotes no number is sent all the same. -/
theorem text_reference_sent :
    (coerce .integer (.string "42") = .ok (.int 42) ∧
      ∃ draft : Draft, ∃ next writes,
        (firms.write .create "Worker" (employed (.string "42"))).run sameUuid =
          (.run .write draft.query next, sameUuid) ∧
        draft.nodeWrites? = some writes ∧
        .merge { var := "this_employer_node", labels := ["Company"],
                 inline := [("code", .string "42")] } ∈ writes) ∧
    coerce .integer (.string "x") = .error (.unreadable "x" "an integer") ∧
      ∃ query next, (firms.write .create "Worker" (employed (.string "x"))).run sameUuid =
        (.run .write query next, sameUuid) := by
  obtain ⟨draft, next, _, hsent, -⟩ := exists_draft_of_text "x"
  exact ⟨⟨rfl, exists_draft_of_text "42"⟩, rfl, draft.query, next, hsent⟩

end GraphMapper

import GraphMapper.Proofs.Mapper.Required
import GraphMapper.Proofs.Write.Partition

/-!
# Protected properties

What identifies an entity, what is only set when it is created and what is read only is never set on
an entity that is there already. Two filters see to it. The split of a bag sends the properties of a
merge that may not change into the pattern, or has them set on creation
(`setsWritable_entityWrite`); an update leaves them out (`setsWritable_writable`). The first holds
for the bags at every level of a payload, in a creation as well as in a merge, and so for all that a
query sets of nodes (`writes_spare_protected`).
-/

namespace GraphMapper

open Cypher

/-- What is set of an entity in any case are declared properties of its type that may change, and
none by which it is matched. -/
structure Cypher.NodeWrite.SetsWritable (owner : EntityType) (write : NodeWrite) : Prop where
  writable : ∀ key ∈ KeyedList.keys write.node.set, ∃ p ∈ owner.properties, p.name = key ∧
    p.primary = false ∧ p.createOnly = false ∧ p.readonly = false
  unmatched : List.Disjoint (KeyedList.keys write.node.set) (KeyedList.keys write.node.inline)

/-- A call writes this as an entity of the type: of its node, of a bag in its payload once that is
prepared, or of a scalar there. -/
inductive WriteCall.WritesAs (mapper : Mapper) : WriteCall → EntityType → NodeWrite → Prop
  | update (node : Node) (payload : Bag) (merge : NodeMerge) :
    WritesAs mapper (.update node payload) node.model (.update node.identity merge)
  | bag {mode : WriteMode} {name : String} {payload prepared : Bag} {supply rest : Supply}
      {model : EntityType} {path : List Hop} {owner : EntityType} {given inner : Bag}
      (mode' : WriteMode) (var : String) (hmodel : mapper.model name = .ok model)
      (hprepared : (prepare mapper.registry mapper.config.maxWriteDepth model payload).run.run
        supply = (.ok prepared, rest))
      (hgiven : bagAt? mapper.registry model payload path = some (owner, given))
      (hbag : bagAt? mapper.registry model prepared path = some (owner, inner)) :
    WritesAs mapper (.write mode name payload supply) owner (mode'.entityWrite var owner inner)
  | reference {mode : WriteMode} {name : String} {payload prepared : Bag} {supply rest : Supply}
      {model : EntityType} {path : List Hop} {hop : Hop} {rel : Relationship} {value : Value}
      {target : EntityType} {key : String} (var : String) (hmodel : mapper.model name = .ok model)
      (hprepared : (prepare mapper.registry mapper.config.maxWriteDepth model payload).run.run
        supply = (.ok prepared, rest))
      (hplace : farAt? mapper.registry model prepared path hop = some (rel, value))
      (hscalar : value.isScalar = true) (htarget : mapper.registry.target? rel = some target)
      (hkey : target.primaryKey? = some key) :
    WritesAs mapper (.write mode name payload supply) target
      (.merge { var := var, labels := target.labels, inline := [(key, value)] })

/-- A property may change if it has none of the flags. -/
theorem Property.isWritable_iff {p : Property} :
    p.isWritable ↔ p.primary = false ∧ p.createOnly = false ∧ p.readonly = false := by
  simp [Property.isWritable, and_assoc]

section

variable {mode : WriteMode} {var : String} {model : EntityType} {bag : Bag}

/-- What is set of an entity that is written from a bag may change, and does not match it. -/
theorem setsWritable_entityWrite : (mode.entityWrite var model bag).SetsWritable model := by
  have hset : (mode.entityWrite var model bag).node.set =
      (splitProperties mode model bag).part .set := by cases mode <;> rfl
  have hinline : (mode.entityWrite var model bag).node.inline =
      (splitProperties mode model bag).part .inline := by cases mode <;> rfl
  constructor
  case writable =>
    intro key hkey
    rw [hset] at hkey
    obtain ⟨p, hp, hname, -, hpart⟩ := mem_keys_part.mp hkey
    cases mode with
    | create => cases hpart
    | merge =>
      exact ⟨p, hp, hname, Property.isWritable_iff.mp (of_mergePart_eq_set hpart).2⟩
  case unmatched =>
    rw [hset, hinline]
    exact disjoint_keys_part (by decide)

/-- What an update sets may change, and the entity is found by its identity. -/
theorem setsWritable_writable (identity : Identity) :
    (NodeWrite.update identity { var, labels := model.labels, inline := [],
                                 set := Mapper.writable model bag }).SetsWritable model := by
  constructor
  case writable =>
    intro key hkey
    obtain ⟨entry, hentry, rfl⟩ := List.mem_map.mp hkey
    have hwritable := (List.mem_filter.mp hentry).2
    cases hp : model.property? entry.1 with
    | none =>
      rw [hp] at hwritable
      cases hwritable
    | some p =>
      rw [hp, Option.any_some] at hwritable
      obtain ⟨hmem, hname⟩ := EntityType.of_property?_eq_some hp
      exact ⟨p, hmem, hname, Property.isWritable_iff.mp hwritable⟩
  case unmatched => exact List.disjoint_nil_right _

end

/-- Protected properties are never overwritten. Whatever a creation, a merge or an update sends is
the query of a draft that writes entities, each of a type that the call names for it; and what it
sets of one in any case are declared properties of that type that are neither primary nor set on
creation only nor read only, and by which the entity is not matched. -/
theorem writes_spare_protected (mapper : Mapper) (call : WriteCall) {access : Access}
    {query : Query} {next : Outcome → Dialogue (Except MapperError Node)}
    (h : call.dialogue mapper = .run access query next) :
    ∃ draft writes, call.Drafts mapper draft ∧ query = draft.query ∧
      draft.nodeWrites? = some writes ∧
      ∀ write ∈ writes, ∃ owner, call.WritesAs mapper owner write ∧ write.SetsWritable owner := by
  obtain ⟨-, draft, hdraft, rfl⟩ := WriteCall.sends_iff.mp ⟨next, h⟩
  cases call with
  | update node payload =>
    obtain ⟨writes, hwrites⟩ : ∃ writes, draft.nodeWrites? = some writes := by
      cases hdraft with
      | update hupdate =>
        obtain ⟨_, -, hwrites⟩ := exists_checked_of_updateDraft hupdate
        exact ⟨_, hwrites⟩
    refine ⟨draft, writes, hdraft, rfl, hwrites, fun write hwrite => ?_⟩
    obtain ⟨checked, -, rfl⟩ := eq_update_of_drafts hdraft hwrites hwrite
    exact ⟨node.model, .update node payload _, setsWritable_writable node.identity⟩
  | write mode name payload supply =>
    obtain ⟨writes, hwrites⟩ : ∃ writes, draft.nodeWrites? = some writes := by
      cases hdraft with
      | write hmodel hprepared hwrite =>
        obtain ⟨plan, -, hwrites⟩ := exists_plan_of_writeDraft hwrite
        exact ⟨_, hwrites⟩
    refine ⟨draft, writes, hdraft, rfl, hwrites, fun write hwrite => ?_⟩
    obtain ⟨model, prepared, rest, hmodel, hprepared, hfrom⟩ :=
      writtenFrom_of_drafts hdraft hwrites hwrite
    cases hfrom with
    | @bag path owner inner mode' var hpath hinner =>
      obtain ⟨given, hgiven, -⟩ :=
        exists_bagAt?_of_prepare ⟨supply, rest, hprepared⟩ hinner hpath
      exact ⟨owner, .bag mode' var hmodel hprepared hgiven hinner, setsWritable_entityWrite⟩
    | reference var hplace hscalar htarget hkey =>
      refine ⟨_, .reference var hmodel hprepared hplace hscalar htarget hkey, ?_, ?_⟩
      · exact fun key hkey => absurd hkey List.not_mem_nil
      · exact List.disjoint_nil_left _

/-- Invoices are known by their number, keep the day they were issued and a total that is read only,
and may correct another one. -/
def invoice : EntityType where
  name := "Invoice"
  labels := ["Invoice"]
  properties := [
    Property.asPrimary { name := "number", type := .string },
    { name := "issued", type := .string, createOnly := true },
    { name := "total", type := .integer, readonly := true },
    { name := "note", type := .string }]
  relationships := [
    { name := "corrects", shape := .node, type := "CORRECTS", direction := .outgoing,
      target := .model "Invoice" }]
  labels_ne_nil := by decide
  labels_ascending := by decide
  properties_nodup := by decide
  relationships_nodup := by decide
  keys_disjoint := by decide
  primary_le_one := by decide

/-- The mapper of invoices. -/
def invoices : Mapper := ⟨⟨[invoice], by decide⟩, {}⟩

/-- An invoice that corrects another one, each with a value for every property. -/
def correction : Bag := [
  ("corrects", .map [("issued", .string "May"), ("note", .string "void"), ("number", .string "A1"),
    ("total", .int 10)]),
  ("issued", .string "June"), ("note", .string "new"), ("number", .string "A2"),
  ("total", .int 12)]

/-- The merge of an invoice, and of the one that it corrects, sets their notes and nothing else. -/
theorem correction_sets_notes :
    ∃ query next, ∃ draft : Draft,
      (WriteCall.write .merge "Invoice" correction sameUuid).dialogue invoices =
        .run .write query next ∧
      query = draft.query ∧
      draft.nodeWrites? = some [
        .merge { var := "this", labels := ["Invoice"], inline := [("number", .string "A2")],
                 onCreate := [("issued", .string "June"), ("total", .int 12)],
                 set := [("note", .string "new")] },
        .merge { var := "this_corrects_node", labels := ["Invoice"],
                 inline := [("number", .string "A1")],
                 onCreate := [("issued", .string "May"), ("total", .int 10)],
                 set := [("note", .string "void")] }] := by
  have hsent : ∃ query next, (WriteCall.write .merge "Invoice" correction sameUuid).dialogue
      invoices = .run .write query next := ⟨_, _, rfl⟩
  obtain ⟨query, next, hsent⟩ := hsent
  obtain ⟨draft, writes, hdrafts, hquery, hwrites, -⟩ := writes_spare_protected invoices _ hsent
  refine ⟨query, next, draft, hsent, hquery, ?_⟩
  cases hdrafts with
  | write hmodel hprepared hdraft =>
    obtain ⟨plan, hplan, hplanned⟩ := exists_plan_of_writeDraft hdraft
    rw [hplanned]
    cases hmodel
    cases hprepared
    cases hplan
    rfl

end GraphMapper

import GraphMapper.Mapper.Entities
import GraphMapper.Proofs.Write.Bags
import GraphMapper.Proofs.Write.Splitting

/-!
# What a merge finds its entity by

A merge sets properties on every entity that its pattern matches. A pattern without properties
matches all entities of the labels, so that a merge must not set anything there. For a single bag
`identifies_iff` says when that is so, and `merges_identify_iff` says it of a whole plan: every bag
that a merge writes, and that has a value to set, has to give one of the merge fields of its type.

Nothing makes it so: a bag without merge fields is merged all the same, and
`unkeyed_merge_sets_without_pattern` shows one that sets a default on every entity of its type.
-/

namespace GraphMapper

/-- A split that sets properties finds its entity by some. -/
def Split.Identifies (split : Split) : Prop :=
  split.set ≠ [] → split.inline ≠ []

/-- A bag gives a value for one of the merge fields of its type. -/
def GivesMergeField (model : EntityType) (bag : Bag) : Prop :=
  ∃ field ∈ model.mergeFields, (bag.present? field).isSome

/-- A bag has a value for a property that a merge sets on the entities of a type with merge
fields. -/
def SetsProperty (model : EntityType) (bag : Bag) : Prop :=
  model.mergeFields ≠ [] ∧
    ∃ p ∈ model.properties, p.isWritable ∧ (bag.present? p.name).isSome

variable {registry : Registry} {limit : WriteLimit} {mode : WriteMode} {var : String}
  {model : EntityType} {bag : Bag} {p : Property} {plan : WritePlan}

/-- Without a merge field a bag is not keyed. -/
theorem not_isKeyed (hfields : model.mergeFields ≠ []) (hgives : ¬ GivesMergeField model bag) :
    isKeyed model bag = false := by
  have hnone : ∀ field ∈ model.mergeFields, (bag.present? field).isSome = false := by
    simpa [GivesMergeField] using hgives
  simp only [isKeyed, List.isEmpty_iff, hfields, if_false, List.any_eq_false]
  intro field hfield
  simp [isSupplied, hnone field hfield]

/-- A bag that gives a merge field is written with a pattern. A field that a default filled in is
left out of it only where the caller gave another. -/
theorem inline_ne_nil (hgives : GivesMergeField model bag) :
    (splitProperties .merge model bag).inline ≠ [] := by
  obtain ⟨field, hfield, hsome⟩ := hgives
  have hfields : model.mergeFields ≠ [] := List.ne_nil_of_mem hfield
  refine (@part_ne_nil_iff .merge model bag .inline).mpr ?_
  by_cases hkeyed : isKeyed model bag = true
  · have hany : model.mergeFields.any (isSupplied bag) = true := by
      simpa [isKeyed, hfields] using hkeyed
    obtain ⟨key, hkey, hsupplied⟩ := List.any_eq_true.mp hany
    obtain ⟨p, hmem, rfl⟩ := EntityType.exists_property_of_mem_mergeFields hkey
    simp only [isSupplied, Bool.and_eq_true, Bool.not_eq_true', List.contains_eq_mem,
      decide_eq_false_iff_not] at hsupplied
    refine ⟨p, hmem, hsupplied.1, ?_⟩
    simp [partOf, mergePart, hsupplied.2, hfields, hkey]
  · obtain ⟨p, hmem, rfl⟩ := EntityType.exists_property_of_mem_mergeFields hfield
    refine ⟨p, hmem, hsome, ?_⟩
    simp [partOf, mergePart, hkeyed, hfields, hfield]

/-- Without a merge field nothing stands in the pattern of an entity whose type has some. -/
theorem inline_eq_nil (hfields : model.mergeFields ≠ []) (hgives : ¬ GivesMergeField model bag) :
    (splitProperties .merge model bag).inline = [] := by
  refine Decidable.byContradiction fun h => hgives ?_
  obtain ⟨p, hmem, hsome, hpart⟩ := (@part_ne_nil_iff .merge model bag .inline).mp h
  refine ⟨p.name, Decidable.byContradiction fun hp => ?_, hsome⟩
  simp only [partOf, mergePart, not_isKeyed hfields hgives, Bool.false_eq_true, false_and,
    if_false, List.isEmpty_iff, hfields, hp] at hpart
  split at hpart <;> cases hpart

/-- What a merge sets in any case may change, and is declared by a type with merge fields. -/
theorem of_mergePart_eq_set (h : mergePart model bag p = .set) :
    model.mergeFields ≠ [] ∧ p.isWritable := by
  unfold mergePart at h
  split at h
  · cases h
  split at h
  · cases h
  split at h
  · cases h
  split at h
  · cases h
  next hfields _ hflags =>
    exact ⟨by simpa using hfields, by simpa [Property.isWritable] using hflags⟩

/-- What a merge sets is a writable property with a value, of a type with merge fields. -/
theorem setsProperty_of_set_ne_nil (h : (splitProperties .merge model bag).set ≠ []) :
    SetsProperty model bag := by
  obtain ⟨p, hmem, hsome, hpart⟩ := (@part_ne_nil_iff .merge model bag .set).mp h
  obtain ⟨hfields, hwritable⟩ := of_mergePart_eq_set hpart
  exact ⟨hfields, p, hmem, hwritable, hsome⟩

/-- Without a merge field a writable property with a value is set. -/
theorem set_ne_nil (hsets : SetsProperty model bag) (hgives : ¬ GivesMergeField model bag) :
    (splitProperties .merge model bag).set ≠ [] := by
  obtain ⟨hfields, p, hmem, hwritable, hsome⟩ := hsets
  have hp : p.name ∉ model.mergeFields := fun hp => hgives ⟨p.name, hp, hsome⟩
  have hflags : (p.primary || p.createOnly || p.readonly) = false := by
    simpa [Property.isWritable] using hwritable
  refine (@part_ne_nil_iff .merge model bag .set).mpr ⟨p, hmem, hsome, ?_⟩
  simp [partOf, mergePart, not_isKeyed hfields hgives, hfields, hp, hflags]

/-- A merge of a bag finds its entity by some property, or sets none, exactly when the bag gives a
merge field or has nothing to set. -/
theorem identifies_iff :
    (splitProperties .merge model bag).Identifies ↔
      (SetsProperty model bag → GivesMergeField model bag) := by
  constructor
  · intro h hsets
    by_contra hgives
    exact h (set_ne_nil hsets hgives) (inline_eq_nil hsets.1 hgives)
  · intro h hset
    exact inline_ne_nil (h (setsProperty_of_set_ne_nil hset))

/-- Every merge of a plan finds its entity by some property, or sets none, exactly when every bag
that is merged gives a merge field or has nothing to set. -/
theorem merges_identify_iff
    (h : WritePlan.ofPayload registry limit mode var model bag = .ok plan) :
    (∀ node ∈ plan.nodes, node.mode = .merge → node.split.Identifies) ↔
      ∀ written ∈ writtenBags registry limit.depth mode model bag, written.mode = .merge →
        SetsProperty written.model written.bag → GivesMergeField written.model written.bag := by
  have hcontent : (∀ content ∈ plan.nodes.map WritePlan.content,
      content.1 = .merge → content.2.2.Identifies) ↔
      ∀ content ∈ (writtenBags registry limit.depth mode model bag).map WrittenBag.content,
        content.1 = .merge → content.2.2.Identifies := by
    rw [planNode_nodes h]
  rw [List.forall_mem_map, List.forall_mem_map] at hcontent
  constructor
  · intro hall written hmem hmerge
    have hsplit := hcontent.mp (fun node hnode => by cases node; exact hall _ hnode) written hmem
      hmerge
    simpa only [WrittenBag.content, hmerge, identifies_iff] using hsplit
  · intro hall node hnode hmerge
    have hsplit := hcontent.mpr (fun written hmem hmerge => by
      simpa only [WrittenBag.content, show written.mode = .merge from hmerge, identifies_iff]
        using hall written hmem hmerge) node hnode
    cases node
    exact hsplit hmerge

/-- Accounts are merged by their address, are on the free plan unless told otherwise, and may have
been referred by another account. -/
def account : EntityType where
  name := "Account"
  labels := ["Account"]
  properties := [
    Property.asPrimary { name := "email", type := .string },
    { name := "plan", type := .string, defaultValue := some (.literal (.string "free")) }]
  relationships := [
    { name := "referrer", shape := .node, type := "REFERRED_BY", direction := .outgoing,
      target := .model "Account" }]
  labels_ne_nil := by decide
  labels_ascending := by decide
  properties_nodup := by decide
  relationships_nodup := by decide
  keys_disjoint := by decide
  primary_le_one := by decide

/-- The registry of accounts. -/
def accounts : Registry := ⟨[account], by decide⟩

/-- An account and the account that referred it, each with its address. -/
def referred : Bag := [
  ("email", .string "a@example.com"), ("plan", .string "pro"),
  ("referrer", .map [("email", .string "b@example.com"), ("plan", .string "free")])]

/-- The merge of accounts with their addresses finds them by these. -/
theorem keyed_merge_identifies :
    ∃ plan, WritePlan.ofPayload accounts {} .merge rootVar account referred = .ok plan ∧
      plan.nodes.length = 2 ∧
      ∀ node ∈ plan.nodes, node.mode = .merge → node.split.Identifies := by
  have hplan : ∃ plan, WritePlan.ofPayload accounts {} .merge rootVar account referred = .ok plan ∧
      plan.nodes.length = 2 := ⟨_, rfl, rfl⟩
  obtain ⟨plan, hplan, hlength⟩ := hplan
  refine ⟨plan, hplan, hlength, (merges_identify_iff hplan).mpr ?_⟩
  intro written hmem _ _
  have hbags : written ∈ [⟨.merge, account, referred⟩, ⟨.merge, account,
      [("email", .string "b@example.com"), ("plan", .string "free")]⟩] := hmem
  rcases List.mem_cons.mp hbags with rfl | hbags
  · exact ⟨"email", by decide, by decide⟩
  · obtain rfl := List.mem_singleton.mp hbags
    exact ⟨"email", by decide, by decide⟩

/-- The merge of an account without its address sets the default plan on every account. -/
theorem unkeyed_merge_sets_without_pattern :
    ∃ plan, WritePlan.ofPayload accounts {} .merge rootVar account
        [(defaultedKey, .list [.string "plan"]), ("plan", .string "free")] = .ok plan ∧
      (Cypher.Draft.run {} plan.steps).map (fun draft => draft.query.text) =
        .ok "MERGE (this:Account)\nSET this.plan = $set_this_plan" ∧
      ¬ ∀ node ∈ plan.nodes, node.mode = .merge → node.split.Identifies := by
  refine ⟨_, rfl, by decide +kernel, fun h => ?_⟩
  exact h _ (List.mem_singleton.mpr rfl) rfl (by decide) rfl

end GraphMapper

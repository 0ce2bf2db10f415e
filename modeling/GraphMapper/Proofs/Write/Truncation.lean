import GraphMapper.Proofs.Write.Erasure
import GraphMapper.Proofs.Write.Places
import GraphMapper.Proofs.Write.Scope

/-!
# The limit of depth

Below the limit of depth a payload is not written. Where the policy is to truncate, the plan is that
of the payload from which everything below the limit was taken out, under this or any higher limit
(`cutBag`, `planNode_cutBag`); where it is to refuse, there is a plan only if there is nothing to
take out, and then it is the same one. `ofPayload_truncated` puts this together.

What is taken out stands under the keys of relationships, and counts nowhere else, but for two
cases. The names that a bag notes stand under a reserved key: if a type declares a relationship
there, a bag on the last level loses its note with what is taken out. And what stands under the node
key of a relationship that is held is a property of the relationship too, if it declares one of that
name. `CutsRelatedAlone` excludes both.
-/

namespace GraphMapper

open Cypher

/-! ## What is taken out -/

/-- An item with another far side. -/
def Value.putFar (rel : Relationship) (item far : Value) : Value :=
  if rel.shape.isRelationship then
    match item with
    | .map entries => .map (KeyedList.put entries rel.nodeKey far)
    | other => other
  else far

/-- A bag that stands for a node, changed; any other value is left as it is. -/
def Value.mapBag (change : Bag → Bag) : Value → Value
  | .map entries => .map (change entries)
  | value => value

/-- An item with the bag at its far side changed, if there is one. -/
def Value.mapFar (rel : Relationship) (change : Bag → Bag) (item : Value) : Value :=
  match farSide? rel item with
  | some (.map far) => item.putFar rel (.map (change far))
  | _ => item

/-- What is under the key of a relationship, with the bags at the far sides of its items changed. -/
def Value.mapRelated (rel : Relationship) (change : Bag → Bag) : Value → Value
  | .list items => .list (items.map (mapFar rel change))
  | value => value.mapFar rel change

/-- What a bag of a type has under a key, with the bags that are related to it by that changed. -/
def changeUnder (registry : Registry) (change : EntityType → Bag → Bag) (model : EntityType)
    (key : String) (value : Value) : Value :=
  match model.relationship? key with
  | none => value
  | some rel =>
    match registry.target? rel with
    | none => value
    | some target => value.mapRelated rel (change target)

/-- A payload whose bags so many levels below the root have nothing but nulls under the keys of
relationships. -/
def cutBag (registry : Registry) : Nat → EntityType → Bag → Bag
  | 0, model, bag =>
    bag.filter fun entry => entry.2.isNull || (model.relationship? entry.1).isNone
  | levels + 1, model, bag =>
    KeyedList.mapKeyed (changeUnder registry (cutBag registry levels) model) bag

/-- What is taken out of a payload counts as related entities alone: no bag on the level that is cut
notes names under the key of a relationship, and no bag above it holds another one under a node key
that is a property of its relationship as well. -/
structure CutsRelatedAlone (registry : Registry) (levels : Nat) (model : EntityType) (bag : Bag) :
    Prop where
  notes : ∀ path owner inner, path.length = levels →
    bagAt? registry model bag path = some (owner, inner) →
    (owner.relationship? defaultedKey).isSome → defaultedNames inner = []
  nodeKeys : ∀ path hop rel far, path.length < levels →
    farAt? registry model bag path hop = some (rel, .map far) → rel.shape.isRelationship →
    rel.property? rel.nodeKey = none

/-- The bags on a level have nothing but nulls under the keys of relationships. -/
def EndsAt (registry : Registry) (levels : Nat) (model : EntityType) (bag : Bag) : Prop :=
  ∀ path owner inner, path.length = levels →
    bagAt? registry model bag path = some (owner, inner) →
    ∀ rel ∈ owner.relationships, inner.present? rel.name = none

variable {registry : Registry} {limit other : WriteLimit} {levels : Nat} {mode : WriteMode}
  {var : String} {model target : EntityType} {rel : Relationship} {bag : Bag} {plan : WritePlan}
  {change : Bag → Bag} {item value : Value}

/-- Where an item has a far side, it can have another one. -/
theorem farSide?_putFar {far after : Value} (h : farSide? rel item = some far) :
    farSide? rel (item.putFar rel after) = some after := by
  cases hshape : rel.shape.isRelationship with
  | true =>
    obtain ⟨held, rfl, -⟩ := exists_held hshape h
    simp [Value.putFar, farSide?, hshape, Value.entries?, KeyedList.get?_put]
  | false => simp [Value.putFar, farSide?, hshape]

/-- An item that has a bag at its far side stays a map when it has another one. -/
theorem exists_putFar {far : Bag} (h : farSide? rel item = some (.map far)) (after : Bag) :
    ∃ entries, item.putFar rel (.map after) = .map entries := by
  unfold Value.putFar
  split
  · next hshape =>
    obtain ⟨held, rfl, -⟩ := exists_held hshape h
    exact ⟨_, rfl⟩
  · exact ⟨after, rfl⟩

/-- An item has a bag at its far side, which is changed, or it is left as it is. -/
theorem mapFar_cases (rel : Relationship) (change : Bag → Bag) (item : Value) :
    (∃ far, farSide? rel item = some (.map far) ∧
      item.mapFar rel change = item.putFar rel (.map (change far))) ∨
    (∀ far, farSide? rel item ≠ some (.map far)) ∧ item.mapFar rel change = item := by
  unfold Value.mapFar
  split
  · next far hfar => exact .inl ⟨far, hfar, rfl⟩
  · next hnone => exact .inr ⟨hnone, rfl⟩

/-- An item that is changed is a map before and after. -/
theorem mapFar_map_or_eq (rel : Relationship) (change : Bag → Bag) (item : Value) :
    (∃ before after, item = .map before ∧ item.mapFar rel change = .map after) ∨
      item.mapFar rel change = item := by
  rcases mapFar_cases rel change item with ⟨far, hfar, hchanged⟩ | ⟨-, hsame⟩
  · obtain ⟨after, hafter⟩ := exists_putFar hfar (change far)
    have hbag := isSome_entries?_of_farSide? hfar
    obtain ⟨before, hbefore⟩ := Option.isSome_iff_exists.mp hbag
    exact .inl ⟨before, after, Value.entries?_eq_some.mp hbefore, hchanged.trans hafter⟩
  · exact .inr hsame

/-- What is no list is changed as one item, and stays none. -/
theorem mapRelated_of_not_list (h : value.items? = none) :
    value.mapRelated rel change = value.mapFar rel change ∧
      (value.mapFar rel change).items? = none := by
  constructor
  · cases value with
    | list items => cases h
    | _ => rfl
  · rcases mapFar_map_or_eq rel change value with ⟨_, _, -, hmap⟩ | hsame
    · rw [hmap]
      rfl
    · rw [hsame, h]

/-- The items under a key are changed one by one, unless a list is where one item belongs. -/
theorem relatedItems_mapRelated (hshape : rel.shape.isCollection = true ∨ value.items? = none) :
    relatedItems rel.shape (value.mapRelated rel change) =
      (relatedItems rel.shape value).map (Value.mapFar rel change) := by
  cases hvalue : value.items? with
  | some items =>
    obtain rfl := Value.items?_eq_some.mp hvalue
    have hcollection : rel.shape.isCollection = true := by simpa [Value.items?] using hshape
    simp [Value.mapRelated, hcollection, relatedItems]
  | none =>
    obtain ⟨hone, hchanged⟩ := @mapRelated_of_not_list rel change value hvalue
    rw [hone, relatedItems_of_not_list hvalue, relatedItems_of_not_list hchanged]
    rfl

/-- A hop leads to what it led to, changed. -/
theorem item?_mapRelated (hop : Hop) (value : Value) :
    hop.item? (value.mapRelated rel change) =
      (hop.item? value).map (Value.mapFar rel change) := by
  cases hvalue : value.items? with
  | some items =>
    obtain rfl := Value.items?_eq_some.mp hvalue
    simp only [Value.mapRelated, Hop.item?]
    cases hop.index <;> simp
  | none =>
    obtain ⟨hone, hchanged⟩ := @mapRelated_of_not_list rel change value hvalue
    rw [hone, item?_of_not_list hvalue, item?_of_not_list hchanged]
    split <;> rfl

/-- What is under a key notes the same names, whatever bags are changed. -/
theorem noted_mapRelated : (value.mapRelated rel change).noted = value.noted := by
  have hstring : ∀ item : Value, (item.mapFar rel change).string? = item.string? := by
    intro item
    rcases mapFar_map_or_eq rel change item with ⟨_, _, rfl, hmap⟩ | hsame
    · rw [hmap]
      rfl
    · rw [hsame]
  cases hvalue : value.items? with
  | some items =>
    obtain rfl := Value.items?_eq_some.mp hvalue
    simp [Value.mapRelated, Value.noted, List.filterMap_map, hstring]
  | none =>
    rw [(mapRelated_of_not_list hvalue).1]
    rcases mapFar_map_or_eq rel change value with ⟨_, _, rfl, hmap⟩ | hsame
    · rw [hmap]
      rfl
    · rw [hsame]

/-- What is under a key is null exactly if it is when bags are changed. -/
theorem isNull_mapRelated : (value.mapRelated rel change).isNull = value.isNull := by
  cases hvalue : value.items? with
  | some items =>
    obtain rfl := Value.items?_eq_some.mp hvalue
    rfl
  | none =>
    rw [(mapRelated_of_not_list hvalue).1]
    rcases mapFar_map_or_eq rel change value with ⟨_, _, rfl, hmap⟩ | hsame
    · rw [hmap]
      rfl
    · rw [hsame]

/-! ## Bags that are cut -/

section

variable {below : EntityType → Bag → Bag} {key : String}

/-- Under the key of no relationship nothing is changed. -/
theorem changeUnder_of_none (hrel : model.relationship? key = none) :
    changeUnder registry below model key value = value := by
  unfold changeUnder
  rw [hrel]

/-- Under the key of a relationship the bags are changed as those of its target are, if that is
registered. -/
theorem changeUnder_of_mem (hrel : rel ∈ model.relationships) :
    changeUnder registry below model rel.name value =
      match registry.target? rel with
      | none => value
      | some target => value.mapRelated rel (below target) := by
  unfold changeUnder
  rw [EntityType.relationship?_of_mem hrel]

/-- Nothing is changed under a key, or bags of a relationship are. -/
theorem changeUnder_cases (registry : Registry) (below : EntityType → Bag → Bag)
    (model : EntityType) (key : String) (value : Value) :
    changeUnder registry below model key value = value ∨
      ∃ rel change, changeUnder registry below model key value = value.mapRelated rel change := by
  unfold changeUnder
  split
  · exact .inl rfl
  · next rel _ =>
    split
    · exact .inl rfl
    · next target _ => exact .inr ⟨rel, below target, rfl⟩

/-- What is under a key is null exactly if it is when bags are changed. -/
theorem isNull_changeUnder :
    (changeUnder registry below model key value).isNull = value.isNull := by
  rcases changeUnder_cases registry below model key value with hsame | ⟨rel, change, hchanged⟩
  · rw [hsame]
  · rw [hchanged, isNull_mapRelated]

/-- What is under a key notes the same names when bags are changed. -/
theorem noted_changeUnder : (changeUnder registry below model key value).noted = value.noted := by
  rcases changeUnder_cases registry below model key value with hsame | ⟨rel, change, hchanged⟩
  · rw [hsame]
  · rw [hchanged, noted_mapRelated]

end

/-- On the last level nothing is left under the key of a relationship but nulls. -/
theorem isNull_of_get?_cutBag {key : String} (hrel : (model.relationship? key).isSome)
    (h : KeyedList.get? (cutBag registry 0 model bag) key = some value) : value.isNull = true := by
  obtain ⟨-, hkept⟩ := List.mem_filter.mp (KeyedList.mem_of_get?_eq_some h)
  simpa [Option.isSome_iff_ne_none.mp hrel] using hkept

/-- On the last level all else is left. -/
theorem get?_cutBag_zero {key : String} (hrel : model.relationship? key = none) :
    KeyedList.get? (cutBag registry 0 model bag) key = KeyedList.get? bag key :=
  KeyedList.get?_filter fun value => by simp [hrel]

/-- Above the last level the bags under the keys of relationships are cut. -/
theorem get?_cutBag_succ {key : String} :
    KeyedList.get? (cutBag registry (levels + 1) model bag) key =
      (KeyedList.get? bag key).map (changeUnder registry (cutBag registry levels) model key) :=
  KeyedList.get?_mapKeyed _ _ _

/-- On the last level no relationship has a value. -/
theorem present?_cutBag_zero (hrel : rel ∈ model.relationships) :
    (cutBag registry 0 model bag).present? rel.name = none := by
  refine Option.eq_none_iff_forall_ne_some.mpr fun value hvalue => ?_
  obtain ⟨hget, hnull⟩ := present?_eq_some.mp hvalue
  have hrel' : (model.relationship? rel.name).isSome := by
    rw [EntityType.relationship?_of_mem hrel]
    rfl
  rw [isNull_of_get?_cutBag hrel' hget] at hnull
  cases hnull

/-- Above the last level the values under keys are those of the bag, with bags cut. -/
theorem present?_cutBag_succ {key : String} :
    (cutBag registry (levels + 1) model bag).present? key =
      (bag.present? key).map (changeUnder registry (cutBag registry levels) model key) := by
  rw [Bag.present?, Bag.present?, get?_cutBag_succ]
  cases KeyedList.get? bag key with
  | none => rfl
  | some value =>
    rw [Option.map_some, Option.filter_some, Option.filter_some, isNull_changeUnder]
    split <;> rfl

/-- What a bag has under the keys of properties is left, and so is what it notes, if a bag on the
last level notes nothing under the key of a relationship. -/
theorem sameDeclared_cutBag (hnotes : levels = 0 → (model.relationship? defaultedKey).isSome →
    defaultedNames bag = []) : SameDeclared model bag (cutBag registry levels model bag) := by
  constructor
  case declared =>
    intro p hp
    have hkey := EntityType.relationship?_of_property hp
    cases levels with
    | zero => exact present?_congr (get?_cutBag_zero hkey)
    | succ levels =>
      rw [present?_cutBag_succ]
      cases bag.present? p.name with
      | none => rfl
      | some value => rw [Option.map_some, changeUnder_of_none hkey]
  case noted =>
    cases levels with
    | zero =>
      cases hrel : model.relationship? defaultedKey with
      | none => exact defaultedNames_congr (present?_congr (get?_cutBag_zero hrel))
      | some rel =>
        have hrel' : (model.relationship? defaultedKey).isSome := by simp [hrel]
        rw [hnotes rfl hrel', defaultedNames_eq]
        cases hget : KeyedList.get? (cutBag registry 0 model bag) defaultedKey with
        | none => rfl
        | some value =>
          rw [Value.isNull_iff.mp (isNull_of_get?_cutBag hrel' hget)]
          rfl
    | succ levels =>
      rw [defaultedNames_eq, defaultedNames_eq, get?_cutBag_succ]
      cases KeyedList.get? bag defaultedKey with
      | none => rfl
      | some value => rw [Option.map_some, Option.map_some, Option.map_some, noted_changeUnder]

/-- Where a bag is at the far side of an item, the changed one is there when it is changed, and all
else is there as it was. -/
theorem farSide?_mapFar (rel : Relationship) (change : Bag → Bag) (item : Value) :
    farSide? rel (item.mapFar rel change) = (farSide? rel item).map (Value.mapBag change) := by
  rcases mapFar_cases rel change item with ⟨far, hfar, hchanged⟩ | ⟨hnone, hsame⟩
  · rw [hchanged, farSide?_putFar hfar, hfar]
    rfl
  · rw [hsame]
    cases hfar : farSide? rel item with
    | none => rfl
    | some far =>
      cases far with
      | map entries => exact absurd hfar (hnone entries)
      | _ => rfl

/-- A hop leads to what it led to, with the bag there cut. -/
theorem lead?_cutBag (hop : Hop) :
    hop.lead? model (cutBag registry (levels + 1) model bag) =
      (hop.lead? model bag).map fun lead => (lead.1,
        match registry.target? lead.1 with
        | none => lead.2
        | some target => lead.2.mapBag (cutBag registry levels target)) := by
  unfold Hop.lead?
  cases hrel : model.relationship? hop.name with
  | none => rfl
  | some rel =>
    have hmem := (NamedList.of_find?_eq_some hrel).1
    simp only [Option.bind_some, get?_cutBag_succ]
    cases KeyedList.get? bag rel.name with
    | none => rfl
    | some value =>
      simp only [Option.map_some, Option.bind_some, changeUnder_of_mem hmem]
      cases htarget : registry.target? rel with
      | none => cases hop.item? value <;> simp [htarget, Function.comp_def]
      | some target =>
        simp only [item?_mapRelated]
        cases hop.item? value <;> simp [htarget, farSide?_mapFar, Function.comp_def]

/-- Hops lead to the bag that they led to, cut for the levels that are left. -/
theorem bagAt?_cutBag (path : List Hop) (more : Nat) :
    bagAt? registry model (cutBag registry (path.length + more) model bag) path =
      (bagAt? registry model bag path).map fun found =>
        (found.1, cutBag registry more found.1 found.2) := by
  induction path generalizing model bag with
  | nil => simp [bagAt?]
  | cons hop rest ih =>
    rw [List.length_cons, Nat.add_right_comm, bagAt?, bagAt?, lead?_cutBag]
    cases hop.lead? model bag with
    | none => rfl
    | some lead =>
      obtain ⟨rel, far⟩ := lead
      rw [Option.map_some]
      cases htarget : registry.target? rel with
      | none => cases far <;> simp [htarget]
      | some target =>
        cases far with
        | map entries => simp [htarget, Value.mapBag, ih]
        | _ => simp [Value.mapBag]

/-- A payload that is cut on a level ends there. -/
theorem endsAt_cutBag : EndsAt registry levels model (cutBag registry levels model bag) := by
  rintro path owner inner rfl hinner rel hrel
  -- No levels are left where the path ends, and the bag there is cut as one on the last level.
  rw [show path.length = path.length + 0 from rfl, bagAt?_cutBag] at hinner
  obtain ⟨⟨_, before⟩, -, hcut⟩ := Option.map_eq_some_iff.mp hinner
  cases hcut
  exact present?_cutBag_zero hrel

/-! ## Plans of bags that are cut -/

section

variable {planBag planCut : String → EntityType → Bag → Except CompileError WritePlan}

/-- An item with another far side has the same properties, unless they include the far side. -/
theorem splitItem_putFar {far after : Value} {properties : Bag}
    (hnode : rel.shape.isRelationship → rel.property? rel.nodeKey = none)
    (h : splitItem model rel item = .ok (far, properties)) :
    splitItem model rel (item.putFar rel after) = .ok (after, properties) := by
  cases hshape : rel.shape.isRelationship with
  | true =>
    obtain ⟨held, rfl, hget⟩ := exists_held hshape (farSide?_eq_some.mpr ⟨properties, h⟩)
    simp only [splitItem, hshape, if_true, hget, Except.ok.injEq, Prod.mk.injEq, true_and] at h
    simp [splitItem, Value.putFar, hshape, KeyedList.get?_put, linkProperties_put (hnode hshape), h]
  | false =>
    simp only [splitItem, hshape, Bool.false_eq_true, if_false, Except.ok.injEq, Prod.mk.injEq] at h
    simp [splitItem, Value.putFar, hshape, h.2]

/-- How a far node that is no bag is obtained does not depend on how bags are planned. -/
theorem planFar_of_not_bag {node : Value} (h : node.entries? = none) :
    planFar planBag model rel target var node = planFar planCut model rel target var node := by
  cases node with
  | map entries => cases h
  | _ => rfl

/-- An item is planned as it is with its far bag changed, if the far bag is planned as the changed
one. -/
theorem planItem_mapFar {index : Nat}
    (hnode : ∀ far, farSide? rel item = some (.map far) → rel.shape.isRelationship →
      rel.property? rel.nodeKey = none)
    (hbags : ∀ far, farSide? rel item = some (.map far) → ∀ var,
      planBag var target far = planCut var target (change far)) :
    planItem planBag var model rel target (item, index) =
      planItem planCut var model rel target (item.mapFar rel change, index) := by
  rcases mapFar_cases rel change item with ⟨far, hfar, hchanged⟩ | ⟨hnone, hsame⟩
  · obtain ⟨properties, hsplit⟩ := (@farSide?_eq_some model rel _ _).mp hfar
    have hsplit' : splitItem model rel (item.mapFar rel change) =
        .ok (.map (change far), properties) := by
      rw [hchanged]
      exact splitItem_putFar (hnode far hfar) hsplit
    simp only [planItem, hsplit, hsplit', bind, Except.bind, planFar, hbags far hfar]
  · rw [hsame, planItem, planItem]
    cases hsplit : splitItem model rel item with
    | error e => rfl
    | ok sides =>
      obtain ⟨node, properties⟩ := sides
      have hbag : node.entries? = none := by
        refine Option.eq_none_iff_forall_ne_some.mpr fun entries hentries => hnone entries ?_
        rw [farSide?_eq_some.mpr ⟨properties, hsplit⟩, Value.entries?_eq_some.mp hentries]
      simp only [bind, Except.bind, @planFar_of_not_bag _ _ _ _ planBag planCut _ hbag]

end

/-- What is taken out below the far bag that a hop leads to counts as related entities alone if what
is taken out below the whole bag does. -/
theorem CutsRelatedAlone.far (h : CutsRelatedAlone registry (levels + 1) model bag) {hop : Hop}
    {entries : Bag} (hlead : hop.lead? model bag = some (rel, .map entries))
    (htarget : registry.target? rel = some target) :
    CutsRelatedAlone registry levels target entries := by
  have hbelow : ∀ {path found}, bagAt? registry target entries path = some found →
      bagAt? registry model bag (hop :: path) = some found := fun hfound =>
    bagAt?_cons_eq_some.mpr ⟨rel, entries, target, hlead, htarget, hfound⟩
  constructor
  case notes =>
    exact fun path owner inner hlength hinner =>
      h.notes (hop :: path) owner inner (congrArg Nat.succ hlength) (hbelow hinner)
  case nodeKeys =>
    intro path last lastRel far hlength hfar
    obtain ⟨found, hfound, hlast⟩ := Option.bind_eq_some_iff.mp hfar
    refine h.nodeKeys (hop :: path) last lastRel far (Nat.succ_lt_succ hlength) ?_
    exact Option.bind_eq_some_iff.mpr ⟨found, hbelow hfound, hlast⟩

/-- What a bag holds under a relationship is planned as it is with the far bags cut, if each far bag
is planned as it is when it is cut. -/
theorem planRelated_cutBag {planBag planCut : String → EntityType → Bag → Except CompileError WritePlan}
    (hcuts : CutsRelatedAlone registry (levels + 1) model bag) (hrel : rel ∈ model.relationships)
    (hbags : ∀ var target entries, CutsRelatedAlone registry levels target entries →
      planBag var target entries = planCut var target (cutBag registry levels target entries)) :
    planRelated registry planBag var model bag rel =
      planRelated registry planCut var model (cutBag registry (levels + 1) model bag) rel := by
  unfold planRelated
  rw [present?_cutBag_succ]
  cases hvalue : bag.present? rel.name with
  | none => rfl
  | some value =>
    rw [Option.map_some, changeUnder_of_mem hrel]
    cases htarget : registry.target? rel with
    | none => rfl
    | some target =>
      by_cases hshape : rel.shape.isCollection = true ∨ value.items? = none
      · simp only [relatedItems_mapRelated hshape, List.zipIdx_map]
        refine mapM_eq_of_forall₂ (List.forall₂_map_right_iff.mpr (List.forall₂_same.mpr ?_))
        rintro ⟨item, index⟩ hplace
        have hitem : item ∈ relatedItems rel.shape value := (List.mem_zipIdx hplace).2.2 ▸ by simp
        have hlead : ∀ far, farSide? rel item = some (.map far) →
            ∃ hop : Hop, hop.lead? model bag = some (rel, .map far) := fun far hfar =>
          exists_lead_of_far_bag hrel (present?_eq_some.mp hvalue).1 hitem hfar
        refine planItem_mapFar (fun far hfar => ?_) fun far hfar var => ?_
        · obtain ⟨hop, hlead⟩ := hlead far hfar
          exact hcuts.nodeKeys [] hop rel far (Nat.succ_pos levels) hlead
        · obtain ⟨hop, hlead⟩ := hlead far hfar
          exact hbags var target far (hcuts.far hlead htarget)
      · -- A list where one item belongs is refused as a whole.
        rw [not_or] at hshape
        obtain ⟨items, hlist⟩ := Option.ne_none_iff_exists'.mp hshape.2
        obtain rfl := Value.items?_eq_some.mp hlist
        simp [Value.mapRelated, relatedItems, hshape.1, planItem_list]

/-- Where the limit truncates, a bag is planned as it is under any limit when it is cut on the last
level. -/
theorem planNode_cutBag (htruncates : limit.overflow = .truncate) (more : Nat)
    (hcuts : CutsRelatedAlone registry levels model bag) :
    planNode registry limit levels mode var model bag =
      planNode registry other (levels + more) mode var model (cutBag registry levels model bag) := by
  -- The bag that is cut has no links on the last level, so that the levels to spare are not used.
  induction levels generalizing mode var model bag with
  | zero =>
    have hsplit : splitProperties mode model (cutBag registry 0 model bag) =
        splitProperties mode model bag :=
      (sameDeclared_cutBag fun _ => hcuts.notes [] model bag rfl rfl).splitProperties_eq
    rw [planNode_of_unrelated fun rel hrel => present?_cutBag_zero hrel, hsplit]
    exact planNode_zero_eq_ok.mpr ⟨by simp [htruncates], rfl⟩
  | succ levels ih =>
    have hsplit : splitProperties mode model (cutBag registry (levels + 1) model bag) =
        splitProperties mode model bag :=
      (sameDeclared_cutBag fun h => absurd h (Nat.succ_ne_zero levels)).splitProperties_eq
    have hlinks : model.relationships.mapM
        (planRelated registry (planNode registry limit levels .merge) var model bag) =
        model.relationships.mapM (planRelated registry
          (planNode registry other (levels + more) .merge) var model
          (cutBag registry (levels + 1) model bag)) :=
      mapM_eq_of_forall₂ (List.forall₂_same.mpr fun rel hrel =>
        planRelated_cutBag hcuts hrel fun var target entries => ih)
    rw [Nat.add_right_comm, planNode, planNode, hlinks, hsplit]

/-! ## Plans under the limit -/

/-- Behind links there are no more levels than behind each of them at most. -/
theorem linksDepth_le {links : List WriteLink} {bound : Nat}
    (h : ∀ link ∈ links, link.target.depth ≤ bound) : linksDepth links ≤ bound := by
  induction links with
  | nil => exact Nat.zero_le bound
  | cons link rest ih =>
    have hlink := h link List.mem_cons_self
    obtain ⟨_, _, _, _, _, _⟩ := link
    exact Nat.max_le.mpr ⟨hlink, ih fun link hmem => h link (List.mem_cons_of_mem _ hmem)⟩

/-- A plan has no more levels below the root than it was made for. -/
theorem depth_le_of_planNode (h : planNode registry limit levels mode var model bag = .ok plan) :
    plan.depth ≤ levels := by
  induction levels generalizing mode var model bag plan with
  | zero =>
    obtain ⟨-, rfl⟩ := planNode_zero_eq_ok.mp h
    exact Nat.le_refl 0
  | succ levels ih =>
    obtain ⟨links, hlinks, rfl⟩ := planNode_succ_eq_ok.mp h
    refine linksDepth_le fun link hlink => ?_
    obtain ⟨rel, target, item, node, properties, far, -, hfar, rfl⟩ :=
      exists_plannedLink_of_mem hlinks hlink
    cases hfar with
    | existing => exact Nat.succ_le_succ (Nat.zero_le levels)
    | nested entries plan hplan =>
      have hdepth := ih hplan
      change 1 + plan.depth ≤ levels + 1
      omega
    | reference => exact Nat.succ_le_succ (Nat.zero_le levels)

/-- The bags below the far bag that a hop leads to end on a level if those below the whole bag end
on the next one. -/
theorem EndsAt.far (h : EndsAt registry (levels + 1) model bag) {hop : Hop} {entries : Bag}
    (hlead : hop.lead? model bag = some (rel, .map entries))
    (htarget : registry.target? rel = some target) : EndsAt registry levels target entries :=
  fun path owner inner hlength hinner =>
    h (hop :: path) owner inner (congrArg Nat.succ hlength)
      (bagAt?_cons_eq_some.mpr ⟨rel, entries, target, hlead, htarget, hinner⟩)

/-- A link is planned under another limit as it is if its far bag is. -/
theorem plannedLink_of_limit {item : Value × Nat} {link : WriteLink}
    (hbags : ∀ entries var plan, farSide? rel item.1 = some (.map entries) →
      planNode registry limit levels .merge var target entries = .ok plan →
      planNode registry other levels .merge var target entries = .ok plan)
    (h : PlannedLink registry limit levels var model rel target item link) :
    PlannedLink registry other levels var model rel target item link := by
  obtain ⟨node, properties, far, hsplit, hfar, rfl⟩ := h
  refine ⟨node, properties, far, hsplit, ?_, rfl⟩
  cases hfar with
  | existing identity labels stored => exact .existing identity labels stored
  | nested entries plan hplan =>
    have hside : farSide? rel item.1 = some (.map entries) :=
      (@farSide?_eq_some model rel _ _).mpr ⟨properties, hsplit⟩
    exact .nested entries plan (hbags entries _ plan hside hplan)
  | reference value key hscalar hkey => exact .reference node key hscalar hkey

/-- A plan is the same under any other limit, unless that refuses what is below the last level. -/
theorem planNode_of_endsAt
    (hends : other.overflow = .error → EndsAt registry levels model bag)
    (h : planNode registry limit levels mode var model bag = .ok plan) :
    planNode registry other levels mode var model bag = .ok plan := by
  -- The two limits are told apart on the last level alone, where there is nothing to refuse.
  induction levels generalizing mode var model bag plan with
  | zero =>
    obtain ⟨-, rfl⟩ := planNode_zero_eq_ok.mp h
    refine planNode_zero_eq_ok.mpr ⟨fun hrefuses rel hrel => ?_, rfl⟩
    exact hends hrefuses [] model bag rfl rfl rel hrel
  | succ levels ih =>
    obtain ⟨links, hlinks, rfl⟩ := planNode_succ_eq_ok.mp h
    refine planNode_succ_eq_ok.mpr ⟨links, ?_, rfl⟩
    refine forall₂_imp_of_mem hlinks fun rel hrel planned hrelated => ?_
    unfold PlannedLinks at hrelated ⊢
    cases hvalue : bag.present? rel.name with
    | none => simpa [hvalue] using hrelated
    | some value =>
      rw [hvalue] at hrelated
      obtain ⟨target, htarget, hitems⟩ := hrelated
      refine ⟨target, htarget, ?_⟩
      refine forall₂_imp_of_mem hitems fun item hplace link hlink => plannedLink_of_limit ?_ hlink
      intro entries var plan hside hplan
      have hitem : item.1 ∈ relatedItems rel.shape value := (List.mem_zipIdx hplace).2.2 ▸ by simp
      obtain ⟨hop, hlead⟩ :=
        exists_lead_of_far_bag hrel (present?_eq_some.mp hvalue).1 hitem hside
      exact ih (fun hrefuses => (hends hrefuses).far hlead htarget) hplan

/-- Where a limit refuses what is below the last level and there is a plan, there is nothing. -/
theorem endsAt_of_planNode (hrefuses : limit.overflow = .error)
    (h : planNode registry limit levels mode var model bag = .ok plan) :
    EndsAt registry levels model bag := by
  rintro path owner inner rfl hinner rel hrel
  obtain ⟨_, node, -, hnode⟩ := exists_nodeAt h hinner (Nat.le_refl _)
  rw [Nat.sub_self] at hnode
  exact (planNode_zero_eq_ok.mp hnode).1 hrefuses rel hrel

/-- Nothing is left below the limit in a payload that is cut there. Where the limit truncates, a
payload is planned as the one that is cut is under this or any higher limit, if what is taken out
counts as related entities alone, and the plan has no more levels than the limit allows. Where it
refuses, a payload has a plan exactly if it has one where the limit truncates and has nothing below
the limit, and the plan is that one. -/
theorem ofPayload_truncated {depth : Nat} {payload : Bag} :
    EndsAt registry depth model (cutBag registry depth model payload) ∧
      (CutsRelatedAlone registry depth model payload →
        ∀ higher : WriteLimit, depth ≤ higher.depth →
          WritePlan.ofPayload registry ⟨depth, .truncate⟩ mode var model payload =
            WritePlan.ofPayload registry higher mode var model
              (cutBag registry depth model payload)) ∧
      (∀ plan, WritePlan.ofPayload registry ⟨depth, .truncate⟩ mode var model payload = .ok plan →
        plan.depth ≤ depth) ∧
      ∀ plan, WritePlan.ofPayload registry ⟨depth, .error⟩ mode var model payload = .ok plan ↔
        WritePlan.ofPayload registry ⟨depth, .truncate⟩ mode var model payload = .ok plan ∧
          EndsAt registry depth model payload := by
  refine ⟨endsAt_cutBag, fun hcuts higher hdepth => ?_, fun plan => depth_le_of_planNode,
    fun plan => ⟨?_, ?_⟩⟩
  · obtain ⟨more, hmore⟩ := Nat.exists_eq_add_of_le hdepth
    rw [WritePlan.ofPayload, WritePlan.ofPayload, hmore]
    exact planNode_cutBag rfl more hcuts
  · exact fun h => ⟨planNode_of_endsAt nofun h, endsAt_of_planNode rfl h⟩
  · exact fun ⟨h, hends⟩ => planNode_of_endsAt (fun _ => hends) h

/-- Nothing but related entities is taken out of payloads of friends. -/
theorem cutsRelatedAlone_friends (levels : Nat) (bag : Bag) :
    CutsRelatedAlone friends levels friend bag := by
  have howner : ∀ {path owner inner}, bagAt? friends friend bag path = some (owner, inner) →
      owner = friend := fun hinner =>
    List.mem_singleton.mp (mem_models_of_bagAt? (List.mem_singleton.mpr rfl) hinner)
  constructor
  case notes =>
    intro path owner inner _ hinner hreserved
    rw [howner hinner] at hreserved
    exact absurd hreserved (by decide)
  case nodeKeys =>
    intro path hop rel far _ hfar _
    obtain ⟨⟨owner, inner⟩, hinner, hlead⟩ := Option.bind_eq_some_iff.mp hfar
    obtain ⟨_, _, hrel, -⟩ := lead?_eq_some.mp hlead
    have hmem := (NamedList.of_find?_eq_some hrel).1
    rw [howner hinner] at hmem
    rw [List.mem_singleton.mp hmem]
    decide

/-- Of somebody whose friend has a friend, under the limit one the friend of the friend is not
written, and a policy that refuses finds it. -/
theorem befriended_truncated :
    CutsRelatedAlone friends 1 friend befriended ∧ 1 ≤ WriteLimit.depth {} ∧
      cutBag friends 1 friend befriended = [
        ("best friends", .list [.map [
          ("node", .map [("nickname", .string "Bob")]), ("since", .int 1999)]]),
        ("nickname", .string "Ann")] ∧
      WritePlan.ofPayload friends ⟨1, .truncate⟩ .merge rootVar friend befriended =
        WritePlan.ofPayload friends {} .merge rootVar friend
          (cutBag friends 1 friend befriended) ∧
      (∃ plan, WritePlan.ofPayload friends ⟨1, .truncate⟩ .merge rootVar friend befriended =
        .ok plan ∧ plan.depth ≤ 1) ∧
      ¬ EndsAt friends 1 friend befriended := by
  have hcuts := cutsRelatedAlone_friends 1 befriended
  obtain ⟨-, hsame, hdepth, hrefuses⟩ :=
    @ofPayload_truncated friends .merge rootVar friend 1 befriended
  have hplan : ∃ plan, WritePlan.ofPayload friends ⟨1, .truncate⟩ .merge rootVar friend befriended =
      .ok plan := ⟨_, rfl⟩
  obtain ⟨plan, hplan⟩ := hplan
  refine ⟨hcuts, by decide, rfl, hsame hcuts {} (by decide), ⟨plan, hplan, hdepth plan hplan⟩, ?_⟩
  intro hends
  have hrefused := (hrefuses plan).mpr ⟨hplan, hends⟩
  cases hrefused

/-- A parcel has a code and a state. The parcels that it replaces stand under the key of the notes,
and the one that it is packed in under a relationship that has a property of the name of its node
key. -/
def parcel : EntityType where
  name := "Parcel"
  labels := ["Parcel"]
  properties := [Property.asPrimary { name := "code", type := .string },
    { name := "state", type := .string }]
  relationships := [
    { name := defaultedKey, shape := .nodes, type := "REPLACES", direction := .outgoing,
      target := .model "Parcel" },
    { name := "outer", shape := .relationship, type := "PACKED_IN", direction := .outgoing,
      target := .model "Parcel", properties := [{ name := "node", type := .any }] }]
  labels_ne_nil := by decide
  labels_ascending := by decide
  properties_nodup := by decide
  relationships_nodup := by decide
  keys_disjoint := by decide
  primary_le_one := by decide

/-- The registry of parcels. -/
def parcels : Registry := ⟨[parcel], by decide⟩

/-- A parcel that notes that its state was filled in. -/
def notedParcel : Bag := [
  (defaultedKey, .list [.string "state"]), ("code", .string "P1"), ("state", .string "new")]

/-- A parcel that is packed in another one. -/
def packedParcel : Bag := [
  ("code", .string "P2"), ("outer", .map [("node", .map [("code", .string "P3")])])]

/-- Neither case that `CutsRelatedAlone` excludes can be left out. Under the limit zero the note of a
parcel is still read, and its state is set on creation only; without what is under the key the state
is set in any case. Under the limit one the parcel that a parcel is packed in is a property of the
relationship too, with what is below the limit. -/
theorem parcels_cut :
    (∃ plan cut, WritePlan.ofPayload parcels ⟨0, .truncate⟩ .merge rootVar parcel notedParcel =
        .ok plan ∧
      WritePlan.ofPayload parcels ⟨0, .truncate⟩ .merge rootVar parcel
        (cutBag parcels 0 parcel notedParcel) = .ok cut ∧ plan ≠ cut ∧
      plan.split.onCreate = [("state", .string "new")] ∧ plan.split.set = [] ∧
      cut.split.onCreate = [] ∧ cut.split.set = [("state", .string "new")]) ∧
    ∃ payload plan cut, payload = [
        ("code", .string "P1"), ("outer", .map [("node", .map packedParcel)])] ∧
      WritePlan.ofPayload parcels ⟨1, .truncate⟩ .merge rootVar parcel payload = .ok plan ∧
      WritePlan.ofPayload parcels ⟨1, .truncate⟩ .merge rootVar parcel
        (cutBag parcels 1 parcel payload) = .ok cut ∧ plan ≠ cut ∧
      plan.links.map WriteLink.properties = [[("node", .map packedParcel)]] ∧
      cut.links.map WriteLink.properties = [[("node", .map [("code", .string "P2")])]] := by
  refine ⟨⟨_, _, rfl, rfl, fun hsame => ?_, rfl, rfl, rfl, rfl⟩,
    ⟨_, _, _, rfl, rfl, rfl, fun hsame => ?_, rfl, rfl⟩⟩
  · have hset : ([] : Bag) = [("state", .string "new")] := congrArg (·.split.set) hsame
    cases hset
  · have hlinks : [[("node", Value.map packedParcel)]] =
        [[("node", .map [("code", .string "P2")])]] :=
      congrArg (fun plan => plan.links.map WriteLink.properties) hsame
    cases hlinks

end GraphMapper

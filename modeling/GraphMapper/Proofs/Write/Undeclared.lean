import GraphMapper.Proofs.Write.Shorthand

/-!
# Undeclared keys have no effect

A payload may hold anything under keys that its type does not declare, and so may the bags within
it. Two payloads that have the same entries under all other keys are `SameButUndeclared`. In a bag
for a type the declared keys are those of properties and relationships and the reserved one; in a
relationship that is held they are the keys of its properties and its node key. What is related to a
bag is compared item by item and may itself have other undeclared entries, on as many levels.

Every look-up of a plan is under a declared key, and the two payloads have the same plan
(`planNode_same`). A relationship with a property of the name of its node key is an exception: its
far bag is a property as a whole, whatever it holds (`parcel_colour_written`).
-/

namespace GraphMapper

open Cypher

/-- Two bags have the same entries under the keys that are kept: in the same order, and under each
key values that are related. -/
def SameUnder (keep : String → Bool) (related : String → Value → Value → Prop) (bag other : Bag) :
    Prop :=
  List.Forall₂ (fun entry entry' => entry'.1 = entry.1 ∧ related entry.1 entry.2 entry'.2)
    (bag.filter fun entry => keep entry.1) (other.filter fun entry => keep entry.1)

/-- A type declares the keys of its properties and of its relationships. The reserved key has a
meaning for every type. -/
def EntityType.declares (model : EntityType) (key : String) : Bool :=
  (model.property? key).isSome || (model.relationship? key).isSome || key == defaultedKey

/-- A relationship that is held declares the keys of its properties and its node key. -/
def Relationship.declares (rel : Relationship) (key : String) : Bool :=
  (rel.property? key).isSome || key == rel.nodeKey

/-- Two far sides are equal; or they are bags that are the same for the type that they are taken
for, if there is one. -/
inductive SameFar (same : EntityType → Bag → Bag → Prop) (target : Option EntityType) :
    Value → Value → Prop
  | same (far : Value) : SameFar same target far far
  | bag {bag other : Bag} (h : ∀ model, target = some model → same model bag other) :
    SameFar same target (.map bag) (.map other)

/-- Two items of a relationship are equal or have the same far side. Where the relationship is held,
they also have the same properties. -/
inductive SameItem (far : Value → Value → Prop) (rel : Relationship) : Value → Value → Prop
  | same (item : Value) : SameItem far rel item item
  | direct {item other : Value} (hshape : rel.shape.isRelationship = false) (h : far item other) :
    SameItem far rel item other
  | held {entries others : Bag} (hshape : rel.shape.isRelationship = true)
      (h : SameUnder rel.declares
        (fun key value value' => value' = value ∨ key = rel.nodeKey ∧ far value value')
        entries others) :
    SameItem far rel (.map entries) (.map others)

/-- Two values under the key of a relationship hold the same items. -/
inductive SameRelated (far : Value → Value → Prop) (rel : Relationship) : Value → Value → Prop
  | one {value value' : Value} (h : SameItem far rel value value') : SameRelated far rel value value'
  | list {items items' : List Value} (hshape : rel.shape.isCollection = true)
      (h : List.Forall₂ (SameItem far rel) items items') :
    SameRelated far rel (.list items) (.list items')

/-- Two values under a key of a type are equal, or they hold the same items of the relationship that
has this key. -/
def SameEntry (registry : Registry) (same : EntityType → Bag → Bag → Prop) (model : EntityType)
    (key : String) (value value' : Value) : Prop :=
  value' = value ∨ ∃ rel ∈ model.relationships, rel.name = key ∧
    SameRelated (SameFar same (registry.target? rel)) rel value value'

/-- Two bags for a type differ in undeclared keys alone, on as many levels. -/
def SameButUndeclared (registry : Registry) : Nat → EntityType → Bag → Bag → Prop
  | 0, _, bag, other => other = bag
  | levels + 1, model, bag, other =>
    SameUnder model.declares (SameEntry registry (SameButUndeclared registry levels) model) bag
      other

variable {registry : Registry} {limit : WriteLimit} {levels : Nat} {mode : WriteMode}
  {var key : String} {model : EntityType} {rel : Relationship} {bag other : Bag}
  {value value' : Value}

/-! ## Entries under the keys that are kept -/

section

variable {keep : String → Bool} {related : String → Value → Value → Prop}

/-- Under a key that is kept, two bags have related values or nothing at all. -/
theorem SameUnder.get? (h : SameUnder keep related bag other) (hkeep : keep key = true) :
    Option.Rel (related key) (KeyedList.get? bag key) (KeyedList.get? other key) := by
  have hfilter (entries : Bag) :
      KeyedList.get? (entries.filter fun entry => keep entry.1) key = KeyedList.get? entries key :=
    KeyedList.get?_filter fun _ => hkeep
  unfold SameUnder at h
  rw [← hfilter bag, ← hfilter other]
  generalize (bag.filter fun entry => keep entry.1) = kept at h ⊢
  generalize (other.filter fun entry => keep entry.1) = kept' at h ⊢
  induction h with
  | nil => exact .none
  | @cons entry entry' _ _ hentry _ ih =>
    obtain ⟨name, value⟩ := entry
    obtain ⟨name', value'⟩ := entry'
    obtain ⟨rfl, hrelated⟩ := hentry
    rw [KeyedList.get?, KeyedList.get?]
    by_cases hname : name' = key
    · subst hname
      rw [if_pos rfl, if_pos rfl]
      exact .some hrelated
    · rw [if_neg hname, if_neg hname]
      exact ih

/-- Of two bags the same entries are chosen, if only kept ones are and these have equal values. -/
theorem SameUnder.filter_eq {choose : String × Value → Bool} (h : SameUnder keep related bag other)
    (hkept : ∀ entry, choose entry = true → keep entry.1 = true)
    (hequal : ∀ key value value', related key value value' →
      choose (key, value) = true ∨ choose (key, value') = true → value' = value) :
    other.filter choose = bag.filter choose := by
  have hfilter (entries : Bag) :
      entries.filter choose = (entries.filter fun entry => keep entry.1).filter choose := by
    rw [List.filter_filter]
    refine List.filter_congr fun entry _ => ?_
    cases hchoose : choose entry with
    | false => rfl
    | true => rw [hkept entry hchoose]; rfl
  unfold SameUnder at h
  rw [hfilter bag, hfilter other]
  generalize (bag.filter fun entry => keep entry.1) = kept at h ⊢
  generalize (other.filter fun entry => keep entry.1) = kept' at h ⊢
  induction h with
  | nil => rfl
  | @cons entry entry' _ _ hentry _ ih =>
    obtain ⟨name, value⟩ := entry
    obtain ⟨name', value'⟩ := entry'
    obtain ⟨rfl, hrelated⟩ := hentry
    rw [List.filter_cons, List.filter_cons, ih]
    by_cases hchoose : choose (name', value) = true ∨ choose (name', value') = true
    · rw [hequal name' value value' hrelated hchoose]
    · rw [not_or] at hchoose
      rw [if_neg hchoose.1, if_neg hchoose.2]

/-- A bag has the same entries as itself. -/
theorem SameUnder.refl (hrelated : ∀ key value, related key value value) (bag : Bag) :
    SameUnder keep related bag bag :=
  List.forall₂_same.mpr fun entry _ => ⟨rfl, hrelated entry.1 entry.2⟩

/-- What is stored under a key that is not kept changes nothing. -/
theorem SameUnder.put (h : SameUnder keep related bag other) (hkeep : keep key = false)
    (value : Value) : SameUnder keep related bag (KeyedList.put other key value) := by
  have hfilter : ((KeyedList.put other key value).filter fun entry => keep entry.1) =
      other.filter fun entry => keep entry.1 := by
    clear h
    induction other with
    | nil => simp [KeyedList.put, hkeep]
    | cons entry rest ih =>
      obtain ⟨name, held⟩ := entry
      rw [KeyedList.put]
      split
      · next hname => simp [← hname, hkeep]
      · split
        · simp [hkeep]
        · rw [List.filter_cons, List.filter_cons, ih]
  rw [SameUnder, hfilter]
  exact h

/-- What is taken out from under a key that is not kept changes nothing. -/
theorem SameUnder.remove (h : SameUnder keep related bag other) (hkeep : keep key = false) :
    SameUnder keep related bag (KeyedList.remove other key) := by
  have hfilter : ((KeyedList.remove other key).filter fun entry => keep entry.1) =
      other.filter fun entry => keep entry.1 := by
    clear h
    induction other with
    | nil => rfl
    | cons entry rest ih =>
      obtain ⟨name, held⟩ := entry
      rw [KeyedList.remove]
      split
      · next hname => simp [hname, hkeep, ih]
      · rw [List.filter_cons, List.filter_cons, ih]
  rw [SameUnder, hfilter]
  exact h

end

/-! ## What is the same of values -/

section

variable {same : EntityType → Bag → Bag → Prop} {target : Option EntityType}

/-- Far sides that are not equal are bags. -/
theorem SameFar.eq_or_map (h : SameFar same target value value') :
    value' = value ∨ ∃ bag other, value = .map bag ∧ value' = .map other := by
  cases h with
  | same => exact .inl rfl
  | bag => exact .inr ⟨_, _, rfl, rfl⟩

/-- Items that are not equal are bags. -/
theorem SameItem.eq_or_map (h : SameItem (SameFar same target) rel value value') :
    value' = value ∨ ∃ bag other, value = .map bag ∧ value' = .map other := by
  cases h with
  | same => exact .inl rfl
  | direct _ h => exact h.eq_or_map
  | held => exact .inr ⟨_, _, rfl, rfl⟩

/-- Items that are the same are the same texts, if any. -/
theorem SameItem.string?_eq (h : SameItem (SameFar same target) rel value value') :
    value'.string? = value.string? := by
  obtain rfl | ⟨bag, other, rfl, rfl⟩ := h.eq_or_map
  · rfl
  · rfl

/-- A value that holds the same items is there if the other one is. -/
theorem SameRelated.isNull_eq (h : SameRelated (SameFar same target) rel value value') :
    value'.isNull = value.isNull := by
  cases h with
  | one h =>
    obtain rfl | ⟨bag, other, rfl, rfl⟩ := h.eq_or_map
    · rfl
    · rfl
  | list => rfl

/-- Values that hold the same items note the same names. -/
theorem SameRelated.noted_eq (h : SameRelated (SameFar same target) rel value value') :
    value'.noted = value.noted := by
  cases h with
  | one h =>
    obtain rfl | ⟨bag, other, rfl, rfl⟩ := h.eq_or_map
    · rfl
    · rfl
  | list _ h => exact filterMap_of_forall₂ (h.imp fun _ _ hitem => hitem.string?_eq)

/-- Values that hold the same items hold them at the same places. -/
theorem SameRelated.relatedItems (h : SameRelated (SameFar same target) rel value value') :
    List.Forall₂ (SameItem (SameFar same target) rel) (relatedItems rel.shape value)
      (relatedItems rel.shape value') := by
  cases h with
  | one h =>
    obtain rfl | ⟨bag, other, rfl, rfl⟩ := h.eq_or_map
    · exact List.forall₂_same.mpr fun item _ => .same item
    · exact .cons h .nil
  | list hshape h => simpa [GraphMapper.relatedItems, hshape] using h

/-! ## What is the same of bags -/

/-- Values under the key of a property are equal. -/
theorem SameEntry.eq_of_property {p : Property} (hp : p ∈ model.properties)
    (h : SameEntry registry same model p.name value value') : value' = value := by
  obtain heq | ⟨rel, hrel, hname, -⟩ := h
  · exact heq
  · have hnone := EntityType.relationship?_of_property hp
    rw [← hname, EntityType.relationship?_of_mem hrel] at hnone
    cases hnone

/-- Values under the key of a relationship hold the same items of it. -/
theorem SameEntry.related (hrel : rel ∈ model.relationships)
    (h : SameEntry registry same model rel.name value value') :
    SameRelated (SameFar same (registry.target? rel)) rel value value' := by
  obtain rfl | ⟨rel', hrel', hname, hrelated⟩ := h
  · exact .one (.same value')
  · have hfound := EntityType.relationship?_of_mem hrel'
    rw [hname, EntityType.relationship?_of_mem hrel, Option.some.injEq] at hfound
    rwa [hfound]

/-- Values under any key note the same names. -/
theorem SameEntry.noted_eq (h : SameEntry registry same model key value value') :
    value'.noted = value.noted := by
  obtain rfl | ⟨rel, -, -, hrelated⟩ := h
  · rfl
  · exact hrelated.noted_eq

/-- Entries under an undeclared key may be added and taken out. -/
theorem sameButUndeclared_edit (hkey : model.declares key = false) (bag : Bag) (value : Value) :
    SameButUndeclared registry (levels + 1) model bag (KeyedList.put bag key value) ∧
      SameButUndeclared registry (levels + 1) model bag (KeyedList.remove bag key) := by
  have hself : SameUnder model.declares
      (SameEntry registry (SameButUndeclared registry levels) model) bag bag :=
    .refl (fun _ _ => .inl rfl) bag
  exact ⟨hself.put hkey value, hself.remove hkey⟩

/-- Bags that differ in undeclared keys alone have the same properties and note the same names. -/
theorem sameDeclared_of_sameUnder
    (h : SameUnder model.declares (SameEntry registry same model) bag other) :
    SameDeclared model bag other := by
  constructor
  case declared =>
    intro p hp
    have hkey : model.declares p.name = true := by
      simp [EntityType.declares, EntityType.property?_of_mem hp]
    refine present?_congr ?_
    generalize KeyedList.get? bag p.name = found, KeyedList.get? other p.name = found',
      h.get? hkey = hfound
    cases hfound with
    | none => rfl
    | some hentry => rw [hentry.eq_of_property hp]
  case noted =>
    have hkey : model.declares defaultedKey = true := by simp [EntityType.declares]
    rw [defaultedNames_eq, defaultedNames_eq]
    generalize KeyedList.get? bag defaultedKey = found, KeyedList.get? other defaultedKey = found',
      h.get? hkey = hfound
    cases hfound with
    | none => rfl
    | some hentry => simp [hentry.noted_eq]

/-- Bags that differ in undeclared keys alone hold the same items of a relationship, or none. -/
theorem related_of_sameUnder
    (h : SameUnder model.declares (SameEntry registry same model) bag other)
    (hrel : rel ∈ model.relationships) :
    Option.Rel (SameRelated (SameFar same (registry.target? rel)) rel) (bag.present? rel.name)
      (other.present? rel.name) := by
  have hkey : model.declares rel.name = true := by
    simp [EntityType.declares, EntityType.relationship?_of_mem hrel]
  -- Nulls count as nothing, and what is the same of a null is one.
  rw [Bag.present?, Bag.present?]
  generalize KeyedList.get? bag rel.name = found, KeyedList.get? other rel.name = found',
    h.get? hkey = hfound
  cases hfound with
  | none => exact .none
  | @some value value' hentry =>
    have hrelated := hentry.related hrel
    have hnull := hrelated.isNull_eq
    cases hvalue : value.isNull with
    | true => simp [hvalue, hnull, Option.filter]
    | false => simpa [hvalue, hnull, Option.filter] using hrelated

end

/-! ## Plans of payloads that differ in undeclared keys -/

section

variable {planBag : String → EntityType → Bag → Except CompileError WritePlan}
  {same : EntityType → Bag → Bag → Prop} {target : EntityType}

/-- Far sides that are the same are obtained in the same way, if bags have the same plans. -/
theorem planFar_same
    (hbags : ∀ var bag other, same target bag other →
      planBag var target other = planBag var target bag)
    (h : SameFar same (some target) value value') :
    planFar planBag model rel target var value' = planFar planBag model rel target var value := by
  cases h with
  | same => rfl
  | bag h => rw [planFar, planFar, hbags var _ _ (h target rfl)]

/-- The declared properties of a relationship are those of one that differs in undeclared keys
alone, where the node key is none of them. -/
theorem linkProperties_same {far : Value → Value → Prop} {entries others : Bag}
    (hnode : rel.property? rel.nodeKey = none)
    (h : SameUnder rel.declares
      (fun key value value' => value' = value ∨ key = rel.nodeKey ∧ far value value')
      entries others) :
    linkProperties rel others = linkProperties rel entries := by
  refine h.filter_eq (fun entry hentry => ?_) fun key value value' hrelated hchoose => ?_
  · rw [Bool.and_eq_true] at hentry
    rw [Relationship.declares, hentry.1, Bool.true_or]
  · obtain heq | ⟨rfl, -⟩ := hrelated
    · exact heq
    · simp [hnode] at hchoose

/-- Items that are the same have the same link, if far sides are obtained in the same way. -/
theorem planItem_same {far : Value → Value → Prop} {index : Nat}
    (hnode : rel.shape.isRelationship → rel.property? rel.nodeKey = none)
    (hfar : ∀ var value value', far value value' →
      planFar planBag model rel target var value' = planFar planBag model rel target var value)
    (h : SameItem far rel value value') :
    planItem planBag var model rel target (value', index) =
      planItem planBag var model rel target (value, index) := by
  cases h with
  | same => rfl
  | direct hshape h => simp [planItem, splitItem, hshape, hfar _ _ _ h, bind, Except.bind]
  | @held entries others hshape h =>
    have hproperties := linkProperties_same (hnode hshape) h
    have hkey : rel.declares rel.nodeKey = true := by simp [Relationship.declares]
    simp only [planItem, splitItem, hshape, if_true]
    generalize KeyedList.get? entries rel.nodeKey = node,
      KeyedList.get? others rel.nodeKey = node', h.get? hkey = hfound
    -- Without a far side both are refused.
    cases hfound with
    | none => rfl
    | some hnodes =>
      obtain rfl | ⟨-, hnodes⟩ := hnodes
      · simp only [hproperties]
      · simp only [hproperties, bind, Except.bind, hfar _ _ _ hnodes]

/-- Under a relationship bags that are the same have the same links, if bags have the same plans. -/
theorem planRelated_same (hnode : rel.shape.isRelationship → rel.property? rel.nodeKey = none)
    (hbags : ∀ target ∈ registry.models, ∀ var bag other, same target bag other →
      planBag var target other = planBag var target bag)
    (h : Option.Rel (SameRelated (SameFar same (registry.target? rel)) rel)
      (bag.present? rel.name) (other.present? rel.name)) :
    planRelated registry planBag var model other rel =
      planRelated registry planBag var model bag rel := by
  unfold planRelated
  generalize bag.present? rel.name = found, other.present? rel.name = found' at h
  cases h with
  | none => rfl
  | @some value value' h =>
    cases htarget : registry.target? rel with
    | none => rfl
    | some target =>
      rw [htarget] at h
      refine (mapM_eq_of_forall₂ ((zipIdx_of_forall₂ h.relatedItems 0).imp ?_)).symm
      rintro ⟨item, index⟩ ⟨item', index'⟩ ⟨rfl, hitem⟩
      have htargetBags := hbags target (mem_models_of_target? htarget)
      exact (planItem_same hnode (fun var value value' => planFar_same htargetBags) hitem).symm

end

/-- Payloads that differ in undeclared keys alone have the same plan, for any number of levels and
under any limit. -/
theorem planNode_same {within : Nat} (hapart : ∀ owner ∈ registry.models, owner.SeparatesNodeKeys)
    (hmodel : model.SeparatesNodeKeys) (h : SameButUndeclared registry within model bag other) :
    planNode registry limit levels mode var model other =
      planNode registry limit levels mode var model bag := by
  -- Bags below are planned for one level less, and are the same on one level less.
  induction levels generalizing within mode var model bag other with
  | zero =>
    cases within with
    | zero => rw [show other = bag from h]
    | succ within =>
      have hthere : ∀ rel ∈ model.relationships,
          (other.present? rel.name).isSome = (bag.present? rel.name).isSome :=
        fun rel hrel => isSome_eq_of_rel (related_of_sameUnder h hrel)
      rw [planNode, planNode, find?_present_congr hthere,
        (sameDeclared_of_sameUnder h).splitProperties_eq]
  | succ levels ih =>
    cases within with
    | zero => rw [show other = bag from h]
    | succ within =>
      have hlinks : ∀ rel ∈ model.relationships,
          planRelated registry (planNode registry limit levels .merge) var model other rel =
            planRelated registry (planNode registry limit levels .merge) var model bag rel :=
        fun rel hrel => planRelated_same (hmodel rel hrel)
          (fun target htarget var bag other => ih (hapart target htarget))
          (related_of_sameUnder h hrel)
      rw [planNode, planNode, (sameDeclared_of_sameUnder h).splitProperties_eq,
        mapM_eq_of_forall₂ (List.forall₂_same.mpr hlinks)]

/-- A payload may hold anything under undeclared keys, and so may the bags and the held
relationships within it, on any levels: the write fails with the same error or is drafted to the
same query with the same parameters, and its plan is the same. No relationship that is held may have
a property of the name of its node key. -/
theorem ofPayload_ignores_undeclared {payload : Bag}
    (hapart : ∀ owner ∈ model :: registry.models, owner.SeparatesNodeKeys)
    (h : SameButUndeclared registry levels model payload other) :
    SameOutcome (fun plan plan' : WritePlan => plan' = plan ∧
        ∃ draft, Draft.run {} plan.steps = .ok draft ∧ Draft.run {} plan'.steps = .ok draft)
      (WritePlan.ofPayload registry limit mode var model payload)
      (WritePlan.ofPayload registry limit mode var model other) := by
  have hmodels := fun owner howner => hapart owner (List.mem_cons_of_mem model howner)
  have hplan : WritePlan.ofPayload registry limit mode var model other =
      WritePlan.ofPayload registry limit mode var model payload :=
    planNode_same hmodels (hapart model List.mem_cons_self) h
  rw [hplan]
  refine .refl fun plan => ⟨rfl, ?_⟩
  obtain ⟨draft, hdraft⟩ := plan.takable_stepsIn [] {}
  exact ⟨draft, hdraft, hdraft⟩

/-- Somebody like `withFriends`, with more that is not declared: of herself, of one of her
friendships and of the friend. -/
def withMore (ofBob ofAnn : Value) : Bag :=
  KeyedList.put [
    ("best friends", .list [
      .map [
        ("colour", .node 7 ["Friend"] []),
        ("node", .map (KeyedList.put [
          ("best friends", .list [.map [("node", ofBob)]]), ("nickname", .string "Bob")]
            "since" (.int 2001))),
        ("since", .int 1999)],
      .map [("node", ofAnn)]]),
    ("nickname", .string "Ann")]
    "enemies" (.list [.map [("nickname", .string "Eve")]])

/-- Friends may have more on two levels. -/
theorem friends_with_more :
    SameButUndeclared friends 2 friend (withFriends (.string "Cleo") (.string "Dora"))
      (withMore (.string "Cleo") (.string "Dora")) ∧
    ∃ plan draft,
      WritePlan.ofPayload friends {} .create rootVar friend
        (withFriends (.string "Cleo") (.string "Dora")) = .ok plan ∧
      WritePlan.ofPayload friends {} .create rootVar friend
        (withMore (.string "Cleo") (.string "Dora")) = .ok plan ∧
      Draft.run {} plan.steps = .ok draft ∧ plan.nodeCount = 4 := by
  have hapart : ∀ owner ∈ friend :: friends.models, owner.SeparatesNodeKeys := by decide
  have hsame : SameButUndeclared friends 2 friend
      (withFriends (.string "Cleo") (.string "Dora"))
      (withMore (.string "Cleo") (.string "Dora")) := by
    refine SameUnder.put ?_ (by decide) _
    refine .cons ⟨rfl, .inr ⟨_, List.mem_cons_self, rfl,
      .list rfl (.cons (.held rfl ?_) (.cons (.same _) .nil))⟩⟩ (.cons ⟨rfl, .inl rfl⟩ .nil)
    refine .cons ⟨rfl, .inr ⟨rfl, .bag fun model hmodel => ?_⟩⟩ (.cons ⟨rfl, .inl rfl⟩ .nil)
    cases hmodel
    exact (sameButUndeclared_edit (by decide) _ _).1
  have hplan : ∃ plan, WritePlan.ofPayload friends {} .create rootVar friend
      (withFriends (.string "Cleo") (.string "Dora")) = .ok plan ∧ plan.nodeCount = 4 :=
    ⟨_, rfl, rfl⟩
  obtain ⟨plan, hplan, hcount⟩ := hplan
  have houtcome :=
    @ofPayload_ignores_undeclared friends {} 2 .create rootVar friend _ _ hapart hsame
  rw [hplan] at houtcome
  generalize hother : WritePlan.ofPayload friends {} .create rootVar friend
    (withMore (.string "Cleo") (.string "Dora")) = outcome at houtcome
  cases houtcome with
  | ok h =>
    obtain ⟨rfl, draft, hdraft, -⟩ := h
    exact ⟨hsame, _, draft, hplan, rfl, hdraft, hcount⟩

/-- A parcel that is packed in another one, of which more is known. -/
def packedIn (outer : Bag) : Bag :=
  [("code", .string "P1"), ("outer", .map [("node", .map outer)])]

/-- Where the node key is the key of a property, the far bag is a property of the relationship with
all that it holds, and so is the colour of a parcel, which is not declared. -/
theorem parcel_colour_written :
    parcel.declares "colour" = false ∧
    SameButUndeclared parcels 2 parcel (packedIn [("code", .string "P2")])
      (packedIn [("code", .string "P2"), ("colour", .string "red")]) ∧
    ∃ plan plan' draft draft',
      WritePlan.ofPayload parcels {} .merge rootVar parcel (packedIn [("code", .string "P2")]) =
        .ok plan ∧
      WritePlan.ofPayload parcels {} .merge rootVar parcel
        (packedIn [("code", .string "P2"), ("colour", .string "red")]) = .ok plan' ∧
      Draft.run {} plan.steps = .ok draft ∧ Draft.run {} plan'.steps = .ok draft' ∧
      KeyedList.get? draft.params "set_this_outer_rel_node" =
        some (.map [("code", .string "P2")]) ∧
      KeyedList.get? draft'.params "set_this_outer_rel_node" =
        some (.map [("code", .string "P2"), ("colour", .string "red")]) := by
  refine ⟨by decide, ?_, _, _, _, _, rfl, rfl, rfl, rfl, rfl, rfl⟩
  refine .cons ⟨rfl, .inl rfl⟩ (.cons ⟨rfl, .inr ⟨_, List.mem_cons_of_mem _ List.mem_cons_self,
    rfl, .one (.held rfl ?_)⟩⟩ .nil)
  refine .cons ⟨rfl, .inr ⟨rfl, .bag fun model hmodel => ?_⟩⟩ .nil
  cases hmodel
  exact .cons ⟨rfl, .inl rfl⟩ .nil

end GraphMapper

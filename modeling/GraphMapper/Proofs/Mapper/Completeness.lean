import GraphMapper.Proofs.Mapper.Agreement
import GraphMapper.Proofs.Write.Likeness

/-!
# Bags with nothing left to prepare

A bag is complete if a preparation has nothing to do in it: what is declared has values of its
types, nothing is left out that is required or has a default, and all this holds of the bags below
it too, for so many levels (`Complete`). A preparation of a complete bag cannot fail and takes
nothing from the supply, and what it gives is planned as the bag itself is (`prepare_settles`). It
need not be the same bag: below a relationship that is held, keys that are not declared are dropped.

A payload whose root is to be prepared, and is complete below that, may then be planned as soon as
the properties of the root are (`prepare_root`).
-/

namespace GraphMapper

namespace Preparing

variable {α β : Type}

/-- From any supply the computation comes to a value of which this holds, and leaves the supply as
it is. -/
def Settles (x : Preparing α) (holds : α → Prop) : Prop :=
  ∀ supply, ∃ a, x.run.run supply = (.ok a, supply) ∧ holds a

variable {x : Preparing α} {holds : α → Prop} {final : β → Prop}

/-- What settles holds of whatever the computation comes to. -/
theorem Settles.of_yields (h : x.Settles holds) {a : α} (ha : x.Yields a) : holds a := by
  obtain ⟨before, after, hrun⟩ := ha
  obtain ⟨b, hb, hholds⟩ := h before
  rw [hb] at hrun
  cases hrun
  exact hholds

/-- What settles comes to something. -/
theorem Settles.imp {weaker : α → Prop} (h : x.Settles holds)
    (himp : ∀ a, x.Yields a → holds a → weaker a) : x.Settles weaker := by
  intro supply
  obtain ⟨a, ha, hholds⟩ := h supply
  exact ⟨a, ha, himp a ⟨supply, supply, ha⟩ hholds⟩

/-- What takes nothing from the supply settles on its own value. -/
theorem Settles.pure {a : α} (h : holds a) : (Pure.pure a : Preparing α).Settles holds :=
  fun _ => ⟨a, rfl, h⟩

/-- A validation settles on what it accepts. -/
theorem Settles.ofValidation {checked : Except ValidationError α} {a : α} (h : checked = .ok a)
    (hholds : holds a) : (Preparing.ofValidation checked).Settles holds := by
  subst h
  exact fun _ => ⟨a, rfl, hholds⟩

/-- Computations one after the other settle. -/
theorem Settles.bind (h : x.Settles holds) {f : α → Preparing β}
    (hnext : ∀ a, holds a → (f a).Settles final) : (x >>= f).Settles final := by
  intro supply
  obtain ⟨a, ha, hholds⟩ := h supply
  obtain ⟨b, hb, hfinal⟩ := hnext a hholds supply
  exact ⟨b, by rw [run_bind_of_run ha, hb], hfinal⟩

/-- To name the fields from further out changes nothing of what settles. -/
theorem Settles.under (h : x.Settles holds) (path : String) : (x.under path).Settles holds := by
  intro supply
  obtain ⟨a, ha, hholds⟩ := h supply
  refine ⟨a, ?_, hholds⟩
  rw [run_under, ha]
  rfl

/-- Computations on the items of a list settle if each does. -/
theorem Settles.mapM {f : α → Preparing β} {related : α → β → Prop} {items : List α}
    (h : ∀ item ∈ items, (f item).Settles (related item)) :
    (items.mapM f).Settles (List.Forall₂ related items) := by
  induction items with
  | nil => exact .pure .nil
  | cons item rest ih =>
    rw [List.mapM_cons]
    refine (h item List.mem_cons_self).bind fun b hb => ?_
    refine (ih fun item hitem => h item (List.mem_cons_of_mem _ hitem)).bind fun bs hbs => ?_
    exact .pure (.cons hb hbs)

end Preparing

open Preparing

/-- All maps in a value have ascending keys. -/
inductive Value.Ordered : Value → Prop
  | list {items : List Value} (h : ∀ item ∈ items, Ordered item) : Ordered (.list items)
  | map {entries : Bag} (hkeys : KeyedList.Ascending entries)
      (h : ∀ entry ∈ entries, Ordered entry.2) : Ordered (.map entries)
  | other {value : Value} (hitems : value.items? = none) (hentries : value.entries? = none) :
      Ordered value

/-- The items that a preparation looks at under the key of a relationship. -/
def Value.itemsOrSelf : Value → List Value
  | .list items => items
  | value => [value]

/-- A bag has a value of the declared type for the property, or may leave it out: it is not required
and nothing is filled in. -/
def Property.Complete (p : Property) (bag : Bag) : Prop :=
  match bag.present? p.name with
  | some value => p.Accepts value
  | none => p.required = false ∧ p.isFilled = false

/-- The bag of a relationship that is held has values of the declared types, and a complete bag, or
nothing, for its far node, which is no property of the relationship. -/
structure HeldComplete (complete : Bag → Prop) (rel : Relationship) (entries : Bag) : Prop where
  accepted : ∀ p ∈ rel.properties, ∀ value, entries.present? p.name = some value → p.Accepts value
  far : ∀ node, KeyedList.get? entries rel.nodeKey = some node →
    rel.property? rel.nodeKey = none ∧ ∃ bag, node = .map bag ∧ complete bag

/-- An item of a relationship is complete, if it is a bag at all. -/
def ItemComplete (complete : Bag → Prop) (rel : Relationship) : Value → Prop
  | .map entries =>
    if rel.shape.isRelationship then HeldComplete complete rel entries else complete entries
  | _ => True

/-- What a bag has under the keys of its relationships to registered types is complete. -/
def CompleteUnder (registry : Registry) (complete : EntityType → Bag → Prop) (model : EntityType)
    (bag : Bag) : Prop :=
  ∀ rel ∈ model.relationships, ∀ target, registry.target? rel = some target →
    ∀ value, bag.present? rel.name = some value → ∀ item ∈ value.itemsOrSelf,
      ItemComplete (complete target) rel item

/-- A bag for a type is complete, with so many levels below it. -/
def Complete (registry : Registry) : Nat → EntityType → Bag → Prop
  | 0, model, bag => ∀ p ∈ model.properties, p.Complete bag
  | levels + 1, model, bag => (∀ p ∈ model.properties, p.Complete bag) ∧
      CompleteUnder registry (Complete registry levels) model bag

/-- All that is below a bag for a type is complete, for so many levels. -/
def CompleteBelow (registry : Registry) : Nat → EntityType → Bag → Prop
  | 0, _, _ => True
  | levels + 1, model, bag => CompleteUnder registry (Complete registry levels) model bag

variable {registry : Registry} {levels : Nat} {model target : EntityType} {rel : Relationship}
  {bag : Bag}

/-! ## Properties -/

/-- Whether a bag is complete in a property depends on what is there. -/
theorem Property.Complete.congr {p : Property} (h : p.Complete bag) {other : Bag}
    (hpresent : other.present? p.name = bag.present? p.name) : p.Complete other := by
  rw [Property.Complete, hpresent]
  exact h

/-- Nothing is filled in for a property in which a bag is complete. -/
theorem run_applyDefault_of_complete {p : Property} (h : p.Complete bag) (supply : Supply) :
    ∃ filled : Bag, (applyDefault bag p).run supply = (filled, supply) ∧
      ∀ key, filled.present? key = bag.present? key := by
  unfold Property.Complete at h
  cases hvalue : bag.present? p.name with
  | some value =>
    refine ⟨bag, ?_, fun _ => rfl⟩
    unfold applyDefault
    rw [if_pos (by rw [hvalue]; rfl)]
    rfl
  | none =>
    rw [hvalue] at h
    obtain ⟨-, hfilled⟩ := h
    -- What is left out is a property without a default, or one whose default is null.
    have hrun : (applyDefault bag p).run supply = (bag, supply) ∨
        (applyDefault bag p).run supply = (KeyedList.put bag p.name .null, supply) := by
      unfold applyDefault
      rw [if_neg (by simp [hvalue])]
      unfold Property.isFilled at hfilled
      split
      · next default hdefault =>
        rw [hdefault] at hfilled
        cases default with
        | literal value =>
          obtain rfl : value = .null := Value.isNull_iff.mp (by simpa using hfilled)
          exact .inr rfl
        | generator results => simp at hfilled
      · next hdefault htype => simp [hdefault, htype] at hfilled
      · exact .inl rfl
    rcases hrun with hrun | hrun
    · exact ⟨bag, hrun, fun _ => rfl⟩
    · refine ⟨_, hrun, fun key => ?_⟩
      by_cases hkey : p.name = key
      · subst hkey
        rw [present?_put, hvalue]
        rfl
      · exact present?_put_of_ne hkey .null

/-- Nothing is filled in for properties in which a bag is complete. -/
theorem run_foldlM_applyDefault_of_complete {properties : List Property}
    (h : ∀ p ∈ properties, p.Complete bag) (supply : Supply) :
    ∃ filled : Bag, (properties.foldlM applyDefault bag : StateM Supply Bag).run supply =
        (filled, supply) ∧ ∀ key, filled.present? key = bag.present? key := by
  induction properties generalizing bag with
  | nil => exact ⟨bag, rfl, fun _ => rfl⟩
  | cons p rest ih =>
    obtain ⟨mid, hmid, hsame⟩ := run_applyDefault_of_complete (h p List.mem_cons_self) supply
    obtain ⟨filled, hfilled, hrest⟩ := ih fun q hq =>
      (h q (List.mem_cons_of_mem p hq)).congr (hsame q.name)
    refine ⟨filled, ?_, fun key => (hrest key).trans (hsame key)⟩
    rw [List.foldlM_cons, StateT.run_bind, hmid]
    exact hfilled

/-- A bag that is complete in properties passes the checks of these, which change nothing. -/
theorem foldl_checkProperty_of_complete {properties : List Property} {mode : ValidationMode}
    {checked : Checked} (h : ∀ p ∈ properties, p.Complete checked.bag) :
    (properties.foldl (checkProperty mode) checked).failures = checked.failures ∧
      ∀ key, (properties.foldl (checkProperty mode) checked).bag.present? key =
        checked.bag.present? key := by
  induction properties generalizing checked with
  | nil => exact ⟨rfl, fun _ => rfl⟩
  | cons p rest ih =>
    have hstep : (checkProperty mode checked p).failures = checked.failures ∧
        ∀ key, (checkProperty mode checked p).bag.present? key = checked.bag.present? key := by
      have hp := h p List.mem_cons_self
      unfold Property.Complete at hp
      unfold checkProperty
      cases hvalue : checked.bag.present? p.name with
      | none =>
        rw [hvalue] at hp
        simp [hp.1]
      | some value =>
        rw [hvalue] at hp
        have haccepts : coerce p.type value = .ok value := hp
        have hnull := (present?_eq_some.mp hvalue).2
        simp only [haccepts]
        refine ⟨trivial, fun key => ?_⟩
        by_cases hkey : p.name = key
        · subst hkey
          rw [present?_put, hnull, hvalue]
          rfl
        · rw [present?_put_of_ne hkey, present?_remove, if_neg hkey]
    obtain ⟨hfailures, hsame⟩ := ih fun q hq =>
      (h q (List.mem_cons_of_mem p hq)).congr (hstep.2 q.name)
    rw [List.foldl_cons]
    exact ⟨hfailures.trans hstep.1, fun key => (hsame key).trans (hstep.2 key)⟩

/-- The preparation of properties settles on a bag that is complete in them, and changes nothing
that is there. -/
theorem prepareProperties_settles (h : ∀ p ∈ model.properties, p.Complete bag) :
    (prepareProperties model bag).Settles fun checked =>
      ∀ key, checked.present? key = bag.present? key := by
  intro supply
  obtain ⟨filled, hfilled, hsame⟩ := run_foldlM_applyDefault_of_complete h supply
  have hnote : noteOf model bag filled = [] := by
    refine List.eq_nil_iff_forall_not_mem.mpr fun name hname => ?_
    obtain ⟨p, -, rfl, hmissing, hsome⟩ := mem_noteOf.mp hname
    rw [hsame, hmissing] at hsome
    cases hsome
  have hmarked : (fillDefaults model bag).run supply = (filled, supply) := by
    have hrun : (fillDefaults model bag).run supply =
        (markDefaulted filled (noteOf model bag filled), supply) := by
      simp only [fillDefaults, applyDefaults, StateT.run_bind]
      rw [hfilled]
      rfl
    rw [hrun, hnote]
    rfl
  obtain ⟨hfailures, hchecked⟩ := @foldl_checkProperty_of_complete model.properties .create
    { bag := filled } fun p hp => (h p hp).congr (hsame p.name)
  refine ⟨_, ?_, fun key => (hchecked key).trans (hsame key)⟩
  have hlift : (liftM (fillDefaults model bag) : Preparing Bag).run.run supply =
      (.ok filled, supply) := by
    change (Except.ok ((fillDefaults model bag).run supply).1,
      ((fillDefaults model bag).run supply).2) = _
    rw [hmarked]
  rw [prepareProperties, run_bind_of_run hlift, validate, Checked.result, hfailures]
  rfl

/-! ## Relationships that are held -/

/-- A name that finds no property is that of none. -/
theorem ne_of_property?_eq_none {key : String} (h : rel.property? key = none) {p : Property}
    (hp : p ∈ rel.properties) : p.name ≠ key := by
  rintro rfl
  simpa using List.find?_eq_none.mp h p hp

/-- Properties that are taken from what is given, and have values of their types, are kept as they
are. -/
theorem foldl_keepProperty_of_accepted {properties : List Property} {given : Bag} {kept : Checked}
    (h : ∀ p ∈ properties, ∀ value, given.present? p.name = some value → p.Accepts value) :
    (properties.foldl keepProperty (given, kept)).2.failures = kept.failures ∧
      ∀ key, (properties.foldl keepProperty (given, kept)).2.bag.present? key =
        if key ∈ properties.map Property.name then
          (given.present? key).or (kept.bag.present? key)
        else kept.bag.present? key := by
  induction properties generalizing given kept with
  | nil => simp
  | cons p rest ih =>
    have hleft : ∀ q ∈ rest, ∀ value,
        Bag.present? (KeyedList.remove given p.name) q.name = some value → q.Accepts value := by
      intro q hq value hvalue
      rw [present?_remove] at hvalue
      split at hvalue
      · cases hvalue
      · exact h q (List.mem_cons_of_mem p hq) value hvalue
    rw [List.foldl_cons]
    cases hvalue : given.present? p.name with
    | none =>
      have hstep : keepProperty (given, kept) p = (KeyedList.remove given p.name, kept) := by
        simp only [keepProperty, hvalue]
      obtain ⟨hfailures, hkept⟩ := @ih (KeyedList.remove given p.name) kept hleft
      rw [hstep]
      refine ⟨hfailures, fun key => ?_⟩
      rw [hkept key, present?_remove]
      by_cases hkey : p.name = key
      · subst hkey
        simp [hvalue]
      · simp [hkey, Ne.symm hkey]
    | some value =>
      have haccepts : coerce p.type value = .ok value := h p List.mem_cons_self value hvalue
      have hnull := (present?_eq_some.mp hvalue).2
      have hstep : keepProperty (given, kept) p = (KeyedList.remove given p.name,
          { kept with bag := KeyedList.put kept.bag p.name value }) := by
        simp only [keepProperty, hvalue, haccepts]
      obtain ⟨hfailures, hkept⟩ := @ih (KeyedList.remove given p.name)
        { kept with bag := KeyedList.put kept.bag p.name value } hleft
      rw [hstep]
      refine ⟨hfailures, fun key => ?_⟩
      rw [hkept key, present?_remove]
      by_cases hkey : p.name = key
      · subst hkey
        simp [hvalue, present?_put, hnull]
      · simp [hkey, Ne.symm hkey, present?_put_of_ne hkey]

/-- What is kept of the bag of a relationship has ascending keys. -/
theorem ascending_of_relationshipBag {kept : Bag} (h : relationshipBag rel bag = .ok kept) :
    KeyedList.Ascending kept := by
  have hfold : ∀ {properties : List Property} {given : Bag} {checked : Checked},
      KeyedList.Ascending checked.bag →
      KeyedList.Ascending (properties.foldl keepProperty (given, checked)).2.bag := by
    intro properties
    induction properties with
    | nil => exact id
    | cons p rest ih =>
      intro given checked hchecked
      rw [List.foldl_cons, keepProperty]
      split
      · exact ih hchecked
      · split
        · exact ih (KeyedList.put_ascending hchecked _ _)
        · exact ih hchecked
  rw [eq_bag_of_result h]
  refine hfold ?_
  rw [farEntry]
  split <;> simp [KeyedList.Ascending]

/-- Where the properties of a relationship have values of their types they are kept, unless one has
the name under which the far node stands. -/
theorem exists_relationshipBag
    (h : ∀ p ∈ rel.properties, ∀ value, bag.present? p.name = some value → p.Accepts value) :
    ∃ kept, relationshipBag rel bag = .ok kept ∧ ∀ p ∈ rel.properties, p.name ≠ rel.nodeKey →
      kept.present? p.name = bag.present? p.name := by
  have haccepted : ∀ p ∈ rel.properties, ∀ value,
      Bag.present? (KeyedList.remove bag rel.nodeKey) p.name = some value → p.Accepts value := by
    intro p hp value hvalue
    rw [present?_remove] at hvalue
    split at hvalue
    · cases hvalue
    · exact h p hp value hvalue
  obtain ⟨hfailures, hkept⟩ := @foldl_keepProperty_of_accepted rel.properties
    (KeyedList.remove bag rel.nodeKey) { bag := farEntry rel bag } haccepted
  refine ⟨(rel.properties.foldl keepProperty
    (KeyedList.remove bag rel.nodeKey, { bag := farEntry rel bag })).2.bag, ?_, fun p hp hne => ?_⟩
  · simp only [relationshipBag, Checked.result, hfailures]
    rfl
  · have hfar : (farEntry rel bag).present? p.name = none := by
      rw [farEntry]
      split <;> simp [Bag.present?, KeyedList.get?, Ne.symm hne]
    rw [hkept, if_pos (List.mem_map_of_mem hp), present?_remove, if_neg (Ne.symm hne), hfar,
      Option.or_none]

/-- The properties of a relationship are those that its bag has. -/
theorem mem_linkProperties (h : KeyedList.Ascending bag) {entry : String × Value} :
    entry ∈ linkProperties rel bag ↔
      (rel.property? entry.1).isSome ∧ bag.present? entry.1 = some entry.2 := by
  rw [linkProperties, List.mem_filter, Bool.and_eq_true]
  constructor
  · rintro ⟨hmem, hdeclared, hnull⟩
    have hget := KeyedList.get?_of_mem (KeyedList.keys_nodup h) hmem
    exact ⟨hdeclared, present?_eq_some.mpr ⟨hget, by simpa using hnull⟩⟩
  · rintro ⟨hdeclared, hpresent⟩
    obtain ⟨hget, hnull⟩ := present?_eq_some.mp hpresent
    exact ⟨KeyedList.mem_of_get?_eq_some hget, hdeclared, by simpa using hnull⟩

/-- Bags that agree on the properties of a relationship have the same of them. -/
theorem linkProperties_congr {other : Bag} (h : KeyedList.Ascending bag)
    (hother : KeyedList.Ascending other)
    (hsame : ∀ p ∈ rel.properties, other.present? p.name = bag.present? p.name) :
    linkProperties rel other = linkProperties rel bag := by
  refine KeyedList.eq_of_mem_iff (h.filter _) (hother.filter _) fun entry => ?_
  rw [mem_linkProperties h, mem_linkProperties hother]
  refine and_congr_right fun hdeclared => ?_
  obtain ⟨p, hp⟩ := Option.isSome_iff_exists.mp hdeclared
  obtain ⟨hmem, hname⟩ := NamedList.of_find?_eq_some hp
  rw [← hname, hsame p hmem]

/-! ## Items -/

/-- What is no list is looked at as one item. -/
theorem Value.itemsOrSelf_of_not_list {value : Value} (h : value.items? = none) :
    value.itemsOrSelf = [value] := by
  cases value with
  | list items => cases h
  | _ => rfl

section Items

variable {complete : Bag → Prop} {alike : Bag → Bag → Prop} {prepareFar : Bag → Preparing Bag}

/-- Whatever is in the bag has ascending keys in all its maps. -/
def Bag.Ordered (bag : Bag) : Prop :=
  ∀ key value, bag.present? key = some value → value.Ordered

/-- What is in an ordered map is ordered. -/
theorem Value.Ordered.entries (h : Value.Ordered (.map bag)) :
    KeyedList.Ascending bag ∧ bag.Ordered := by
  cases h with
  | map hkeys hentries =>
    refine ⟨hkeys, fun key value hvalue => ?_⟩
    exact hentries (key, value) (KeyedList.mem_of_get?_eq_some (present?_eq_some.mp hvalue).1)
  | other _ hentries => cases hentries

/-- What is in an ordered list is ordered. -/
theorem Value.Ordered.items {value item : Value} (h : value.Ordered)
    (hitem : item ∈ value.itemsOrSelf) : item.Ordered := by
  cases h with
  | list hitems => exact hitems item hitem
  | map hkeys hentries =>
    obtain rfl := List.mem_singleton.mp hitem
    exact .map hkeys hentries
  | other hitems hentries =>
    rw [Value.itemsOrSelf_of_not_list hitems, List.mem_singleton] at hitem
    subst hitem
    exact .other hitems hentries

/-- An item that is no bag is like itself. -/
theorem itemAlike_self {item : Value} (hitem : item.entries? = none) :
    ItemAlike Eq (FarAlike Eq alike) rel item item := by
  cases hshape : rel.shape.isRelationship with
  | true => exact .refused hshape hitem hitem
  | false =>
    refine .node hshape ?_
    cases item with
    | map entries => cases hitem
    | node => exact .node rfl
    | bool | int | float | string => exact .scalar rfl rfl rfl
    | _ => exact .refused rfl rfl

/-- A complete item settles on one like itself, if complete far bags do. -/
theorem prepareItem_settles
    (hfar : ∀ far : Bag, complete far → far.Ordered → (prepareFar far).Settles (alike far))
    {item : Value} (h : ItemComplete complete rel item) (hordered : item.Ordered) :
    (prepareItem prepareFar rel item).Settles (ItemAlike Eq (FarAlike Eq alike) rel item) := by
  cases item with
  | map entries =>
    obtain ⟨hascending, hentries⟩ := hordered.entries
    cases hshape : rel.shape.isRelationship with
    | false =>
      simp only [ItemComplete, hshape] at h
      simp only [prepareItem, hshape]
      exact (hfar entries h hentries).bind fun others halike => .pure (.node hshape (.bag halike))
    | true =>
      simp only [ItemComplete, hshape, if_true] at h
      simp only [prepareItem, hshape, if_true]
      obtain ⟨kept, hkept, hsame⟩ := exists_relationshipBag h.accepted
      have hkeptAscending := ascending_of_relationshipBag hkept
      have hsettled : (Preparing.ofValidation (relationshipBag rel entries)).Settles (· = kept) :=
        .ofValidation hkept rfl
      refine hsettled.bind ?_
      rintro _ rfl
      rw [get?_nodeKey_of_relationshipBag hkept]
      cases hget : KeyedList.get? entries rel.nodeKey with
      | none =>
        -- Nothing stands under the node key, not even a property.
        have hproperties := linkProperties_congr hascending
          (KeyedList.remove_ascending hkeptAscending rel.nodeKey) fun p hp => by
            rw [present?_remove]
            split
            · next hkey => rw [← hkey, Bag.present?, hget, Option.filter_none]
            · next hkey => exact hsame p hp (Ne.symm hkey)
        refine .pure (.held hshape ?_ ?_)
        · rw [hproperties]
          exact List.forall₂_same.mpr fun _ _ => ⟨rfl, rfl⟩
        · rw [hget, KeyedList.get?_remove, if_pos rfl]
          exact .none
      | some node =>
        obtain ⟨hseparate, far, rfl, hcomplete⟩ := h.far node hget
        have hfarOrdered : Bag.Ordered far := by
          refine (hentries rel.nodeKey (.map far) ?_).entries.2
          rw [Bag.present?, hget]
          rfl
        refine ((hfar far hcomplete hfarOrdered).under rel.nodeKey).bind fun others halike => ?_
        have hproperties := linkProperties_congr hascending
          (KeyedList.put_ascending hkeptAscending rel.nodeKey (.map others)) fun p hp => by
            have hne := ne_of_property?_eq_none hseparate hp
            rw [present?_put_of_ne (Ne.symm hne), hsame p hp hne]
        refine .pure (.held hshape ?_ ?_)
        · rw [hproperties]
          exact List.forall₂_same.mpr fun _ _ => ⟨rfl, rfl⟩
        · rw [hget, KeyedList.get?_put, if_pos rfl]
          exact .some (.bag halike)
  | _ => exact .pure (itemAlike_self rfl)

/-- What is complete under the key of a relationship settles on items like its own. -/
theorem prepareRelated_settles
    (hfar : ∀ far : Bag, complete far → far.Ordered → (prepareFar far).Settles (alike far))
    {value : Value} (h : ∀ item ∈ value.itemsOrSelf, ItemComplete complete rel item)
    (hordered : value.Ordered) :
    (prepareRelated prepareFar rel value).Settles fun after =>
      List.Forall₂ (ItemAlike Eq (FarAlike Eq alike) rel) (relatedItems rel.shape value)
        (relatedItems rel.shape after) := by
  have hitem : ∀ item ∈ value.itemsOrSelf, (prepareItem prepareFar rel item).Settles
      (ItemAlike Eq (FarAlike Eq alike) rel item) :=
    fun item hitem => prepareItem_settles hfar (h item hitem) (hordered.items hitem)
  cases hvalue : value.items? with
  | some items =>
    obtain rfl := Value.items?_eq_some.mp hvalue
    have hlisted : ∀ item ∈ items.zipIdx, (prepareListed prepareFar rel item).Settles
        (ItemAlike Eq (FarAlike Eq alike) rel item.1) := fun item hmem =>
      (hitem item.1 (List.fst_mem_of_mem_zipIdx hmem)).under _
    refine (Settles.mapM hlisted).bind fun others hothers => .pure ?_
    have halike : List.Forall₂ (ItemAlike Eq (FarAlike Eq alike) rel) items others := by
      rw [← List.zipIdx_map_fst 0 items]
      exact List.forall₂_map_left_iff.mpr hothers
    cases hshape : rel.shape.isCollection with
    | true => simpa only [relatedItems, hshape, if_true] using halike
    | false =>
      -- A list where one item belongs is refused, whatever is in it.
      simp only [relatedItems, hshape, Bool.false_eq_true, if_false]
      refine .cons ?_ .nil
      cases hheld : rel.shape.isRelationship with
      | true => exact .refused hheld rfl rfl
      | false => exact .node hheld (.refused rfl rfl)
  | none =>
    have hself := hitem value (by simp [Value.itemsOrSelf_of_not_list hvalue])
    rw [prepareRelated_of_not_list hvalue]
    refine (hself.under rel.name).imp fun after hafter halike => ?_
    rw [relatedItems_of_not_list hvalue,
      relatedItems_of_not_list (items?_of_prepareItem hafter.of_under hvalue)]
    exact .cons halike .nil

end Items

/-! ## Whole bags -/

/-- The preparation under the keys of relationships settles if it does so under each of them. -/
theorem foldlM_prepareUnder_settles {prepareFar : EntityType → Bag → Preparing Bag}
    {rels : List Relationship} (hnodup : (rels.map Relationship.name).Nodup)
    (h : ∀ rel ∈ rels, ∀ target, registry.target? rel = some target →
      ∀ value, KeyedList.get? bag rel.name = some value →
        (prepareRelated (prepareFar target) rel value).Settles fun _ => True) :
    (rels.foldlM (prepareUnder registry prepareFar) bag).Settles fun _ => True := by
  induction rels generalizing bag with
  | nil => exact .pure trivial
  | cons rel rest ih =>
    rw [List.map_cons, List.nodup_cons] at hnodup
    have hhead : (prepareUnder registry prepareFar bag rel).Settles fun _ => True := by
      unfold prepareUnder
      split
      · next value target hvalue htarget =>
        exact (h rel List.mem_cons_self target htarget value hvalue).bind fun _ _ => .pure trivial
      · exact .pure trivial
    -- What is under the other keys is still there.
    have hkept : (prepareUnder registry prepareFar bag rel).Settles fun after =>
        ∀ other ∈ rest, KeyedList.get? after other.name = KeyedList.get? bag other.name :=
      hhead.imp fun after hafter _ other hother => get?_of_prepareUnder hafter fun hname =>
        hnodup.1 (hname ▸ List.mem_map_of_mem hother)
    rw [List.foldlM_cons]
    refine hkept.bind fun after hafter => ih hnodup.2 ?_
    intro other hother target htarget value hvalue
    rw [hafter other hother] at hvalue
    exact h other (List.mem_cons_of_mem rel hother) target htarget value hvalue

/-- Bags with the same properties have related ones. -/
theorem propertiesAlike_of_sameDeclared {other : Bag} (h : SameDeclared model bag other) :
    PropertiesAlike Eq model bag other := by
  refine ⟨h.noted, fun p hp => ?_⟩
  rw [h.declared p hp]
  cases bag.present? p.name with
  | some value => exact .some rfl
  | none => exact .none

/-- What is planned like a bag is planned like any bag in which the same is there. -/
theorem BagsAlike.congr {checked prepared : Bag}
    (h : BagsAlike Eq registry levels model checked prepared)
    (hsame : ∀ key, checked.present? key = bag.present? key) :
    BagsAlike Eq registry levels model bag prepared := by
  have hproperties : PropertiesAlike Eq model checked prepared →
      PropertiesAlike Eq model bag prepared := by
    intro hchecked
    refine ⟨hchecked.noted.trans (defaultedNames_congr (hsame defaultedKey)), fun p hp => ?_⟩
    rw [← hsame p.name]
    exact hchecked.declared p hp
  cases levels with
  | zero =>
    refine ⟨hproperties h.1, fun rel hrel => ?_⟩
    rw [← hsame rel.name]
    exact h.2 rel hrel
  | succ levels =>
    refine ⟨hproperties h.1, fun rel hrel => ?_⟩
    have hrelated := h.2 rel hrel
    unfold RelatedAlike at hrelated ⊢
    rw [← hsame rel.name]
    exact hrelated

/-- Complete bags with that many levels below them settle on bags that are planned alike. -/
def SettlesComplete (registry : Registry) (levels : Nat) : Prop :=
  ∀ (model : EntityType) (bag : Bag), Complete registry levels model bag → bag.Ordered →
    (prepare registry levels model bag).Settles (BagsAlike Eq registry levels model bag)

/-- What is complete below a bag settles on what is planned alike, if complete bags do. -/
theorem below_settles (ih : SettlesComplete registry levels)
    (h : CompleteUnder registry (Complete registry levels) model bag)
    (hordered : ∀ rel ∈ model.relationships, ∀ value, bag.present? rel.name = some value →
      value.Ordered) :
    (model.relationships.foldlM (prepareUnder registry (prepare registry levels)) bag).Settles
      (BagsAlike Eq registry (levels + 1) model bag) := by
  -- A null is left as it is, and anything else is complete.
  have hrelated : ∀ rel ∈ model.relationships, ∀ target, registry.target? rel = some target →
      ∀ value, bag.present? rel.name = some value →
        (prepareRelated (prepare registry levels target) rel value).Settles fun after =>
          List.Forall₂ (ItemAlike Eq (FarAlike Eq (BagsAlike Eq registry levels target)) rel)
            (relatedItems rel.shape value) (relatedItems rel.shape after) :=
    fun rel hrel target htarget value hvalue => prepareRelated_settles (ih target)
      (h rel hrel target htarget value hvalue) (hordered rel hrel value hvalue)
  have hsettles : ∀ rel ∈ model.relationships, ∀ target, registry.target? rel = some target →
      ∀ value, KeyedList.get? bag rel.name = some value →
        (prepareRelated (prepare registry levels target) rel value).Settles fun _ => True := by
    intro rel hrel target htarget value hvalue
    cases hnull : value.isNull with
    | true =>
      obtain rfl := Value.isNull_iff.mp hnull
      exact (Settles.pure trivial).under rel.name
    | false =>
      have hpresent := present?_eq_some.mpr ⟨hvalue, hnull⟩
      exact (hrelated rel hrel target htarget value hpresent).imp fun _ _ _ => trivial
  refine (foldlM_prepareUnder_settles model.relationships_nodup hsettles).imp
    fun prepared hprepared _ => ?_
  have hbelow := preparedBelow_of_foldlM hprepared
  refine ⟨propertiesAlike_of_sameDeclared hbelow.sameDeclared, fun rel hrel => ?_⟩
  unfold RelatedAlike
  cases hvalue : KeyedList.get? bag rel.name with
  | none =>
    have hnone := hbelow.absent rel hrel hvalue
    rw [Bag.present?, Bag.present?, hvalue, hnone]
    split
    · rfl
    · exact .none
  | some value =>
    obtain ⟨after, hafter, hunder⟩ := hbelow.under rel hrel value hvalue
    unfold PreparedUnder at hunder
    split
    · next htarget =>
      rw [htarget] at hunder
      obtain rfl : after = value := hunder
      rw [Bag.present?, Bag.present?, hvalue, hafter]
    · next target htarget =>
      rw [htarget] at hunder
      have hyields : (prepareRelated (prepare registry levels target) rel value).Yields after :=
        hunder
      have hnull := isNull_of_prepareRelated hyields
      cases hpresent : bag.present? rel.name with
      | none =>
        have hafterNone : prepared.present? rel.name = none := by
          rw [Bag.present?, hvalue] at hpresent
          rw [Bag.present?, hafter]
          simpa [Option.filter_eq_none_iff, hnull] using hpresent
        rw [hafterNone]
        exact .none
      | some found =>
        obtain ⟨hget, hfound⟩ := present?_eq_some.mp hpresent
        rw [hvalue] at hget
        cases hget
        rw [present?_eq_some.mpr ⟨hafter, hnull.trans hfound⟩]
        exact .some ((hrelated rel hrel target htarget value hpresent).of_yields hyields)

/-- A preparation settles on a bag that is planned like the one it was given, if that one is
complete. -/
theorem prepare_settles : SettlesComplete registry levels := by
  induction levels with
  | zero =>
    intro model bag h _
    refine (prepareProperties_settles h).imp fun prepared _ hsame => ?_
    have hself : BagsAlike Eq registry 0 model prepared prepared :=
      ⟨propertiesAlike_of_sameDeclared ⟨fun _ _ => rfl, rfl⟩, fun _ _ => rfl⟩
    exact hself.congr hsame
  | succ levels ih =>
    rintro model bag ⟨hproperties, hunder⟩ hordered
    refine (prepareProperties_settles hproperties).bind fun checked hsame => ?_
    have hcheckedUnder : CompleteUnder registry (Complete registry levels) model checked := by
      intro rel hrel target htarget value hvalue
      exact hunder rel hrel target htarget value (hsame rel.name ▸ hvalue)
    have hcheckedOrdered : ∀ rel ∈ model.relationships, ∀ value,
        checked.present? rel.name = some value → value.Ordered := fun rel _ value hvalue =>
      hordered rel.name value (hsame rel.name ▸ hvalue)
    exact (below_settles ih hcheckedUnder hcheckedOrdered).imp fun _ _ halike => halike.congr hsame

/-- Where all below a payload is complete, its preparation comes to something exactly when that of
its properties does, with the same supply left, and what it comes to is planned as what has only its
properties prepared. -/
theorem prepare_root (h : CompleteBelow registry levels model bag) (hordered : bag.Ordered)
    {supply rest : Supply} {checked : Bag}
    (hchecked : (prepareProperties model bag).run.run supply = (.ok checked, rest)) :
    ∃ prepared, (prepare registry levels model bag).run.run supply = (.ok prepared, rest) ∧
      BagsAlike Eq registry levels model checked prepared := by
  cases levels with
  | zero =>
    exact ⟨checked, hchecked, propertiesAlike_of_sameDeclared ⟨fun _ _ => rfl, rfl⟩,
      fun _ _ => rfl⟩
  | succ levels =>
    obtain ⟨note, hfilled, -⟩ := exists_filled ⟨supply, rest, hchecked⟩
    -- Under the reserved key there may be a note now, which holds no bags.
    have hnote : ∀ rel ∈ model.relationships, ∀ value, checked.present? rel.name = some value →
        bag.present? rel.name = some value ∨ value = .list (note.map .string) := by
      intro rel hrel value hvalue
      have hkey := model.keys_disjoint rel.name (List.mem_map_of_mem hrel)
      by_cases hmarked : note = [] ∨ rel.name ≠ defaultedKey
      · rw [present?_congr (hfilled.other rel.name hkey hmarked)] at hvalue
        exact .inl hvalue
      · simp only [not_or, Decidable.not_not] at hmarked
        rw [hmarked.2, Bag.present?, hfilled.marked hmarked.1] at hvalue
        cases hvalue
        exact .inr rfl
    have hunder : CompleteUnder registry (Complete registry levels) model checked := by
      intro rel hrel target htarget value hvalue item hitem
      rcases hnote rel hrel value hvalue with hgiven | rfl
      · exact h rel hrel target htarget value hgiven item hitem
      · obtain ⟨name, -, rfl⟩ := List.mem_map.mp hitem
        trivial
    have hvalues : ∀ rel ∈ model.relationships, ∀ value, checked.present? rel.name = some value →
        value.Ordered := by
      intro rel hrel value hvalue
      rcases hnote rel hrel value hvalue with hgiven | rfl
      · exact hordered rel.name value hgiven
      · refine .list fun item hitem => ?_
        obtain ⟨name, -, rfl⟩ := List.mem_map.mp hitem
        exact .other rfl rfl
    obtain ⟨prepared, hprepared, halike⟩ := below_settles prepare_settles hunder hvalues rest
    exact ⟨prepared, by rw [prepare, run_bind_of_run hchecked, hprepared], halike⟩

end GraphMapper

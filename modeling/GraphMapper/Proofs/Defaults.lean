import GraphMapper.Proofs.Mapper.Filling
import GraphMapper.Proofs.Write.Partition

/-!
# What is filled in, and what is noted

A bag that is filled in keeps what the caller gave, and gets the defaults of all other properties,
each from its own place in the supply (`FilledIn`). The names of those that got a value are noted in
the order of the declarations, and a note that the caller put there is replaced by them.

Where nothing is filled in there is nothing to note, and a note that the caller put there stays
(`fillDefaults_notes`): a merge then writes what the caller gave, but noted, as if a default had
filled it in (`own_note_kept`).
-/

namespace GraphMapper

/-! ## What is taken from a supply -/

/-- Whether a property is filled in with a fresh identifier. -/
def Property.takesUuid (bag : Bag) (p : Property) : Bool :=
  (bag.present? p.name).isNone && p.defaultValue.isNone && p.type = .uuid

/-- Whether a property is filled in with the result of a generator. -/
def Property.takesResult (bag : Bag) (p : Property) : Bool :=
  (bag.present? p.name).isNone &&
    match p.defaultValue with
    | some (.generator _) => true
    | _ => false

/-- The supply that is left once these properties are filled in. -/
def Supply.after (supply : Supply) (bag : Bag) (properties : List Property) : Supply :=
  { supply with
    uuidsTaken := supply.uuidsTaken + properties.countP (Property.takesUuid bag)
    resultsTaken := supply.resultsTaken + properties.countP (Property.takesResult bag) }

/-- What a property that is left out is filled in with. -/
def Property.filling? (p : Property) (supply : Supply) : Option Value :=
  match p.defaultValue with
  | some (.literal value) => some value
  | some (.generator results) => some (results supply.resultsTaken)
  | none => if p.type = .uuid then some (.string (supply.uuids supply.uuidsTaken).text) else none

/-- A bag that was filled in from a supply, but for what is noted. -/
structure FilledIn (model : EntityType) (bag : Bag) (supply : Supply) (filled : Bag) : Prop where
  /-- What the caller gave is kept. -/
  given : ∀ p ∈ model.properties, (bag.present? p.name).isSome →
    KeyedList.get? filled p.name = KeyedList.get? bag p.name
  /-- Every other property gets its default from what the properties before it have left, if it has
  one. -/
  missing : ∀ before p rest, model.properties = before ++ p :: rest → bag.present? p.name = none →
    KeyedList.get? filled p.name =
      (p.filling? (supply.after bag before)).or (KeyedList.get? bag p.name)
  /-- Nothing else changes. -/
  other : ∀ key ∉ model.properties.map Property.name, key ≠ defaultedKey →
    KeyedList.get? filled key = KeyedList.get? bag key

/-- What stands under the reserved key when these names are noted. -/
def noteValue? (names : List String) : Option Value :=
  if names = [] then none else some (.list (names.map .string))

/-- A merge sets what the caller gave on creation alone only if the type says so: the property may
not change, and entities are not found by it. -/
def SparesGiven (model : EntityType) (bag filled : Bag) : Prop :=
  ∀ p ∈ model.properties, (bag.present? p.name).isSome →
    p.name ∈ KeyedList.keys (splitProperties .merge model filled).onCreate →
    model.mergeFields ≠ [] ∧ p.name ∉ model.mergeFields ∧ p.isWritable = false

variable {model : EntityType} {bag : Bag} {p : Property} {supply : Supply}
  {properties before rest : List Property}

/-- A property that is left out gets what it is filled in with, if there is anything, and takes that
from the supply. -/
theorem run_applyDefault_of_missing (hmissing : bag.present? p.name = none) (supply : Supply) :
    (applyDefault bag p).run supply =
      ((p.filling? supply).elim bag (KeyedList.put bag p.name), supply.after bag [p]) := by
  unfold applyDefault
  rw [if_neg (by simp [hmissing])]
  cases hdefault : p.defaultValue with
  | some default =>
    cases default <;> simp [Property.filling?, Supply.after, Property.takesUuid,
      Property.takesResult, hdefault, hmissing] <;> rfl
  | none =>
    by_cases htype : p.type = .uuid
    · simp [Property.filling?, Supply.after, Property.takesUuid, Property.takesResult, hdefault,
        hmissing, htype]
      rfl
    · have hafter : supply.after bag [p] = supply := by
        simp [Supply.after, Property.takesUuid, Property.takesResult, hdefault, htype]
      have hfilling : p.filling? supply = none := by simp [Property.filling?, hdefault, htype]
      rw [hafter, hfilling]
      cases hcase : p.type <;> first
        | rfl
        | exact absurd hcase htype

/-- A property that is there takes nothing. -/
theorem run_applyDefault_of_present (hpresent : (bag.present? p.name).isSome) (supply : Supply) :
    (applyDefault bag p).run supply = (bag, supply.after bag [p]) := by
  obtain ⟨value, hvalue⟩ := Option.isSome_iff_exists.mp hpresent
  unfold applyDefault
  rw [if_pos hpresent]
  simp [Supply.after, Property.takesUuid, Property.takesResult, hvalue]
  rfl

/-- What a property takes depends on what the bag has under its name. -/
theorem supply_after_congr {other : Bag}
    (h : ∀ p ∈ properties, other.present? p.name = bag.present? p.name) :
    supply.after other properties = supply.after bag properties := by
  have huuid : properties.countP (Property.takesUuid other) =
      properties.countP (Property.takesUuid bag) :=
    List.countP_congr fun p hp => by rw [Property.takesUuid, Property.takesUuid, h p hp]
  have hresult : properties.countP (Property.takesResult other) =
      properties.countP (Property.takesResult bag) :=
    List.countP_congr fun p hp => by rw [Property.takesResult, Property.takesResult, h p hp]
  rw [Supply.after, Supply.after, huuid, hresult]

/-- What properties take one after the other adds up. -/
theorem supply_after_cons (supply : Supply) (bag : Bag) (p : Property)
    (properties : List Property) :
    (supply.after bag [p]).after bag properties = supply.after bag (p :: properties) := by
  simp only [Supply.after, List.countP_cons, List.countP_nil, Supply.mk.injEq, true_and]
  omega

/-- One property takes what it is filled in with, and leaves what there is under other names. -/
theorem supply_applyDefault (bag : Bag) (p : Property) (supply : Supply) :
    ((applyDefault bag p).run supply).2 = supply.after bag [p] := by
  cases hpresent : bag.present? p.name with
  | none => rw [run_applyDefault_of_missing hpresent]
  | some value => rw [run_applyDefault_of_present (by rw [hpresent]; rfl)]

/-- Properties that are filled in one after the other take what each of them takes. -/
theorem supply_foldlM_applyDefault (hnodup : (properties.map Property.name).Nodup)
    (supply : Supply) :
    ((properties.foldlM applyDefault bag : StateM Supply Bag).run supply).2 =
      supply.after bag properties := by
  induction properties generalizing bag supply with
  | nil => rfl
  | cons p rest ih =>
    rw [List.map_cons, List.nodup_cons] at hnodup
    rw [List.foldlM_cons, StateT.run_bind]
    refine (ih hnodup.2 _).trans ?_
    -- The names of the rest are others, under which nothing has changed.
    have hrest : ∀ q ∈ rest, Bag.present? ((applyDefault bag p).run supply).1 q.name =
        bag.present? q.name := fun q hq =>
      present?_congr (get?_applyDefault (fun hname => hnodup.1 (hname ▸ List.mem_map_of_mem hq)) _)
    rw [supply_after_congr hrest, supply_applyDefault, supply_after_cons]

/-- A property that is left out gets its default from what the properties before it have left. -/
theorem get?_applyDefaults_of_missing (hproperties : model.properties = before ++ p :: rest)
    (hmissing : bag.present? p.name = none) (supply : Supply) :
    KeyedList.get? ((applyDefaults model bag).run supply).1 p.name =
      (p.filling? (supply.after bag before)).or (KeyedList.get? bag p.name) := by
  have hnodup := model.properties_nodup
  rw [hproperties, List.map_append, List.map_cons, List.nodup_append, List.nodup_cons] at hnodup
  obtain ⟨hbefore, ⟨hrest, -⟩, hapart⟩ := hnodup
  have hnotBefore : p.name ∉ before.map Property.name := fun hmem =>
    hapart p.name hmem p.name List.mem_cons_self rfl
  -- The properties before it leave the property alone, and so do those behind it.
  have hsame := @get?_foldlM_applyDefault bag _ _ hnotBefore supply
  have hsupply := @supply_foldlM_applyDefault bag _ hbefore supply
  rw [applyDefaults, hproperties, List.foldlM_append, StateT.run_bind]
  generalize (before.foldlM applyDefault bag : StateM Supply Bag).run supply = first
    at hsame hsupply
  obtain ⟨mid, left⟩ := first
  obtain rfl : left = supply.after bag before := hsupply
  have hmid : mid.present? p.name = none := (present?_congr hsame).trans hmissing
  have hfold : ∀ state : Bag × Supply,
      KeyedList.get? ((rest.foldlM applyDefault state.1 : StateM Supply Bag).run state.2).1 p.name =
        KeyedList.get? state.1 p.name := fun state => get?_foldlM_applyDefault hrest state.2
  change KeyedList.get? ((List.foldlM applyDefault mid (p :: rest) : StateM Supply Bag).run
    (supply.after bag before)).1 p.name = _
  rw [List.foldlM_cons, StateT.run_bind]
  refine (hfold _).trans ?_
  rw [run_applyDefault_of_missing hmid, ← hsame]
  cases p.filling? (supply.after bag before) with
  | none => rfl
  | some value => exact (KeyedList.get?_put mid p.name p.name value).trans (if_pos rfl)

/-! ## What is noted -/

/-- The bag that is filled in, with what is noted. -/
theorem fillDefaults_eq (model : EntityType) (bag : Bag) (supply : Supply) :
    ((fillDefaults model bag).run supply).1 =
      markDefaulted ((applyDefaults model bag).run supply).1
        (noteOf model bag ((applyDefaults model bag).run supply).1) :=
  rfl

/-- What is noted depends on what is there under the names of the properties. -/
theorem noteOf_congr {filled other : Bag}
    (h : ∀ p ∈ model.properties, other.present? p.name = filled.present? p.name) :
    noteOf model bag other = noteOf model bag filled := by
  rw [noteOf, noteOf]
  refine List.filter_congr fun name hname => ?_
  obtain ⟨p, hp, rfl⟩ := List.mem_map.mp hname
  rw [h p (List.mem_filter.mp hp).1]

section

variable (hreserved : model.property? defaultedKey = none)

include hreserved

/-- No property has the reserved name. -/
theorem name_ne_of_reserved (hp : p ∈ model.properties) : p.name ≠ defaultedKey := by
  intro hname
  rw [← hname, EntityType.property?_of_mem hp] at hreserved
  cases hreserved

/-- What is noted leaves the properties alone. -/
theorem get?_markDefaulted_of_mem (hp : p ∈ model.properties) (filled : Bag)
    (names : List String) :
    KeyedList.get? (markDefaulted filled names) p.name = KeyedList.get? filled p.name :=
  get?_markDefaulted (name_ne_of_reserved hreserved hp) names

/-- A bag is filled in. -/
theorem filledIn_fillDefaults (bag : Bag) (supply : Supply) :
    FilledIn model bag supply ((fillDefaults model bag).run supply).1 := by
  rw [fillDefaults_eq]
  constructor
  case given =>
    intro p hp hgiven
    obtain ⟨value, hvalue⟩ := Option.isSome_iff_exists.mp hgiven
    obtain ⟨hkept, -⟩ := @present?_foldlM_applyDefault bag p _ model.properties_nodup hp supply
    rw [get?_markDefaulted_of_mem hreserved hp, (present?_eq_some.mp hvalue).1]
    exact (present?_eq_some.mp (hkept value hvalue)).1
  case missing =>
    intro before p rest hproperties hmissing
    have hp : p ∈ model.properties := by simp [hproperties]
    rw [get?_markDefaulted_of_mem hreserved hp]
    exact get?_applyDefaults_of_missing hproperties hmissing supply
  case other =>
    intro key hkey hne
    rw [get?_markDefaulted hne]
    exact get?_foldlM_applyDefault hkey supply

/-- What is noted are the properties that were left out and are there now. -/
theorem noteOf_fillDefaults (bag : Bag) (supply : Supply) :
    noteOf model bag ((fillDefaults model bag).run supply).1 =
      noteOf model bag ((applyDefaults model bag).run supply).1 := by
  rw [fillDefaults_eq]
  exact noteOf_congr fun p hp => present?_congr (get?_markDefaulted_of_mem hreserved hp _ _)

/-- Under the reserved key stands what is noted or, where that is nothing, what the caller put
there. -/
theorem get?_fillDefaults_reserved (bag : Bag) (supply : Supply) :
    let filled := ((fillDefaults model bag).run supply).1
    KeyedList.get? filled defaultedKey =
      (noteValue? (noteOf model bag filled)).or (KeyedList.get? bag defaultedKey) := by
  intro filled
  rw [noteOf_fillDefaults hreserved, show filled = _ from fillDefaults_eq model bag supply]
  by_cases h : noteOf model bag ((applyDefaults model bag).run supply).1 = []
  · have hkey : defaultedKey ∉ model.properties.map Property.name := by
      rintro hmem
      obtain ⟨p, hp, hname⟩ := List.mem_map.mp hmem
      exact name_ne_of_reserved hreserved hp hname
    rw [get?_markDefaulted_other (.inl h), noteValue?, if_pos h, Option.none_or]
    exact get?_foldlM_applyDefault hkey supply
  · rw [get?_markDefaulted_note h, noteValue?, if_neg h, Option.some_or]

/-- What was filled in is noted or, where that is nothing, what the caller noted. -/
theorem defaultedNames_fillDefaults (bag : Bag) (supply : Supply) :
    let filled := ((fillDefaults model bag).run supply).1
    defaultedNames filled =
      if noteOf model bag filled = [] then defaultedNames bag else noteOf model bag filled := by
  intro filled
  have hget : KeyedList.get? filled defaultedKey =
      (noteValue? (noteOf model bag filled)).or (KeyedList.get? bag defaultedKey) :=
    get?_fillDefaults_reserved hreserved bag supply
  rw [noteValue?] at hget
  split
  · next hnote =>
    rw [if_pos hnote, Option.none_or] at hget
    exact defaultedNames_congr (present?_congr hget)
  · next hnote =>
    rw [if_neg hnote, Option.some_or] at hget
    exact defaultedNames_of_marked hget

end

/-- Only defaults are noted as defaults, unless there are none and the caller noted something. What
the caller gave is kept, and every other property gets its default, a fresh identifier or the result
of a generator, or stays as it was; nothing else changes but the note. Under the reserved key stand
the names of the properties that were left out and have a value now, in the order in which they are
declared, and nothing if there are none, exactly if there are some or the caller put nothing there.
What the caller gave is noted exactly if nothing is filled in and the caller noted it; otherwise a
merge sets it on creation alone only if the type says so. No property may have the reserved name. -/
theorem fillDefaults_notes (model : EntityType) (bag : Bag) (supply : Supply)
    (hreserved : model.property? defaultedKey = none) :
    let filled := ((fillDefaults model bag).run supply).1
    let note := noteOf model bag filled
    FilledIn model bag supply filled ∧
      (KeyedList.get? filled defaultedKey = noteValue? note ↔
        note ≠ [] ∨ KeyedList.get? bag defaultedKey = none) ∧
      (∀ p ∈ model.properties, (bag.present? p.name).isSome →
        (p.name ∈ defaultedNames filled ↔ note = [] ∧ p.name ∈ defaultedNames bag)) ∧
      (note ≠ [] ∨ KeyedList.get? bag defaultedKey = none →
        defaultedNames filled = note ∧ SparesGiven model bag filled) := by
  intro filled note
  have hentry : KeyedList.get? filled defaultedKey =
      (noteValue? note).or (KeyedList.get? bag defaultedKey) :=
    get?_fillDefaults_reserved hreserved bag supply
  have hnames : defaultedNames filled = if note = [] then defaultedNames bag else note :=
    defaultedNames_fillDefaults hreserved bag supply
  have hgiven : ∀ p ∈ model.properties, (bag.present? p.name).isSome → p.name ∉ note := by
    intro p hp hthere hnote
    obtain ⟨q, -, hname, hmissing, -⟩ := mem_noteOf.mp hnote
    rw [← hname, hmissing] at hthere
    cases hthere
  refine ⟨filledIn_fillDefaults hreserved bag supply, ?_, fun p hp hthere => ?_,
    fun hcondition => ?_⟩
  · rw [hentry, noteValue?]
    by_cases hnote : note = []
    · simp [hnote]
    · simp [hnote]
  · rw [hnames]
    split
    · next hnote => simp [hnote]
    · next hnote => simp [hnote, hgiven p hp hthere]
  · have hnoted : defaultedNames filled = note := by
      rw [hnames]
      split
      · next hnote =>
        have hnone := hcondition.resolve_left (not_not_intro hnote)
        rw [hnote, defaultedNames_eq, hnone]
        rfl
      · rfl
    refine ⟨hnoted, fun p hp hthere hkey => ?_⟩
    obtain ⟨-, hpart⟩ := (@name_mem_keys_part .merge model filled .onCreate p hp).mp hkey
    exact of_mergePart_eq_onCreate (hnoted ▸ hgiven p hp hthere) hpart

/-- Tasks have a title, are open unless told otherwise, and get a token of their own. -/
def task : EntityType where
  name := "Task"
  labels := ["Task"]
  properties := [
    Property.asPrimary { name := "title", type := .string },
    { name := "done", type := .boolean, defaultValue := some (.literal (.bool false)) },
    { name := "token", type := .uuid }]
  relationships := []
  labels_ne_nil := by decide
  labels_ascending := by decide
  properties_nodup := by decide
  relationships_nodup := List.nodup_nil
  keys_disjoint := by decide
  primary_le_one := by decide

/-- Identifiers that are counted. -/
def counted : Supply := { uuids := fun n => ⟨n⟩ }

/-- A task that has a title, of which the caller notes that it is a default. -/
def titledTask : Bag := [
  (defaultedKey, .list [.string "title"]), ("title", .string "Sweep")]

/-- The state and the token of the task are filled in, and are noted in the place of the title, by
which a merge finds it. -/
theorem titled_task_noted :
    ∃ filled, ((fillDefaults task titledTask).run counted).1 = filled ∧
      task.property? defaultedKey = none ∧
      FilledIn task titledTask counted filled ∧
      KeyedList.get? filled "done" = some (.bool false) ∧
      KeyedList.get? filled "token" = some (.string (Uuid.text ⟨0⟩)) ∧
      KeyedList.get? filled defaultedKey = some (.list [.string "done", .string "token"]) ∧
      defaultedNames filled = ["done", "token"] ∧ SparesGiven task titledTask filled ∧
      (splitProperties .merge task filled).inline = [("title", .string "Sweep")] := by
  obtain ⟨hfilled, hentry, -, hnotes⟩ := fillDefaults_notes task titledTask counted rfl
  have hnote : noteOf task titledTask ((fillDefaults task titledTask).run counted).1 ≠ [] := by
    decide
  obtain ⟨hnoted, hspares⟩ := hnotes (.inl hnote)
  exact ⟨_, rfl, rfl, hfilled, rfl, rfl, hentry.mpr (.inl hnote), hnoted, hspares, rfl⟩

/-- A task with a value for every property, of which the caller notes that its state is a
default. -/
def doneTask : Bag := [
  (defaultedKey, .list [.string "done"]), ("done", .bool true), ("title", .string "Sweep"),
  ("token", .string "t1")]

/-- Nothing is filled in, and what the caller noted stays: there is an entry although nothing is to
be noted, and a merge sets the state that the caller gave on creation alone, but not the token. -/
theorem own_note_kept :
    ∃ filled, ((fillDefaults task doneTask).run counted).1 = filled ∧
      noteOf task doneTask filled = [] ∧
      KeyedList.get? filled defaultedKey = some (.list [.string "done"]) ∧
      doneTask.present? "done" = some (.bool true) ∧
      (splitProperties .merge task filled).onCreate = [("done", .bool true)] ∧
      (splitProperties .merge task filled).set = [("token", .string "t1")] ∧
      ¬ SparesGiven task doneTask filled := by
  refine ⟨_, rfl, rfl, rfl, rfl, rfl, rfl, fun hspares => ?_⟩
  have hdone := hspares { name := "done", type := .boolean,
                          defaultValue := some (.literal (.bool false)) }
    (List.mem_cons_of_mem _ List.mem_cons_self) rfl (List.mem_singleton.mpr rfl)
  cases hdone.2.2

end GraphMapper

import GraphMapper.Proofs.Mapper.Requests
import GraphMapper.Proofs.Mapper.Visits

/-!
# A refused payload is told what is wrong with it

A preparation stops at the first bag in which something is refused, and reports all that is refused
there and nothing else, each field by its path from the root of the payload (`prepare_reports`). The
paths are put together from the inside to the outside while the failure is passed on, one or two
segments for each level; in `Visit.report` they are the segments that lead to the bag. As nothing
else that a creation or a merge does ends in a failed validation, that is what they report too
(`refused_at_first_offender`).

`Preparing.Reports` says of any preparation that it reports the first offender of some visits, or
else comes to a value and leaves what these leave of the supply.
-/

namespace GraphMapper

open Preparing

variable {model target : EntityType} {rel : Relationship} {bag filled : Bag} {p : Property}
  {properties : List Property}

/-! ## What is refused in one bag -/

/-- Whether a property fails depends on what is there for it alone. -/
theorem failure?_congr {needed : Bool} {other : Bag}
    (h : other.present? p.name = bag.present? p.name) :
    p.failure? needed other = p.failure? needed bag := by
  simp only [Property.failure?, h]

/-- A check adds the failure of its property. -/
theorem failures_checkProperty (checked : Checked) (p : Property) :
    (checkProperty .create checked p).failures =
      checked.failures ++ (p.failure? p.required checked.bag).toList := by
  unfold checkProperty Property.failure?
  cases hvalue : checked.bag.present? p.name with
  | none => cases hrequired : p.required <;> simp [Checked.refuse]
  | some value => cases hcoerce : coerce p.type value <;> simp [Checked.refuse, hcoerce]

/-- Checks add the failures of their properties, each by itself. -/
theorem failures_foldl_checkProperty (hnodup : (properties.map Property.name).Nodup)
    (checked : Checked) :
    (properties.foldl (checkProperty .create) checked).failures =
      checked.failures ++ properties.filterMap fun p => p.failure? p.required checked.bag := by
  induction properties generalizing checked with
  | nil => simp
  | cons p rest ih =>
    rw [List.map_cons, List.nodup_cons] at hnodup
    have hrest : (rest.filterMap fun q =>
        q.failure? q.required (checkProperty .create checked p).bag) =
          rest.filterMap fun q => q.failure? q.required checked.bag := by
      refine List.filterMap_congr fun q hq => failure?_congr (present?_congr ?_)
      exact get?_checkProperty fun hname => hnodup.1 (hname ▸ List.mem_map_of_mem hq)
    rw [List.foldl_cons, ih hnodup.2, hrest, failures_checkProperty, List.filterMap_cons]
    cases p.failure? p.required checked.bag <;> simp

/-- A bag for a type is accepted if nothing is refused in it, and otherwise all that is refused is
reported. -/
theorem validate_create (model : EntityType) (bag filled : Bag) :
    validate .create model filled =
      if (Visited.entity model bag filled).failures = [] then
        .ok (model.properties.foldl (checkProperty .create) { bag := filled }).bag
      else .error ⟨(Visited.entity model bag filled).failures⟩ := by
  simp only [validate, Checked.result, failures_foldl_checkProperty model.properties_nodup,
    List.nil_append, List.isEmpty_iff]
  rfl

/-- To keep a property adds its failure. -/
theorem failures_keepProperty (given : Bag) (kept : Checked) (p : Property) :
    (keepProperty (given, kept) p).2.failures =
      kept.failures ++ (p.failure? false given).toList := by
  simp only [keepProperty, Property.failure?]
  cases hvalue : given.present? p.name with
  | none => simp
  | some value => cases hcoerce : coerce p.type value <;> simp [Checked.refuse, hcoerce]

/-- To keep properties adds the failures of those that are the first of their names. -/
theorem failures_foldl_keepProperty {taken : List String} {given : Bag}
    (hgiven : ∀ key, given.present? key = if key ∈ taken then none else bag.present? key)
    (kept : Checked) :
    (properties.foldl keepProperty (given, kept)).2.failures =
      kept.failures ++ (firstNamed taken properties).filterMap fun p => p.failure? false bag := by
  induction properties generalizing taken given kept with
  | nil => simp [firstNamed]
  | cons p rest ih =>
    have hstep : keepProperty (given, kept) p =
        (KeyedList.remove given p.name, (keepProperty (given, kept) p).2) := by
      unfold keepProperty
      dsimp only
      split
      · rfl
      · split <;> rfl
    have hleft : ∀ key, Bag.present? (KeyedList.remove given p.name) key =
        if key ∈ p.name :: taken then none else bag.present? key := by
      intro key
      rw [present?_remove, hgiven]
      by_cases hkey : p.name = key
      · simp [hkey]
      · simp [hkey, Ne.symm hkey]
    rw [List.foldl_cons, hstep, firstNamed]
    by_cases htaken : p.name ∈ taken
    · -- What was taken is no longer there, and is not taken again.
      have hfailure : p.failure? false given = none := by
        simp [Property.failure?, hgiven, htaken]
      have hsame : ∀ key, Bag.present? (KeyedList.remove given p.name) key =
          if key ∈ taken then none else bag.present? key := by
        intro key
        rw [hleft]
        by_cases hkey : key = p.name
        · simp [hkey, htaken]
        · simp [hkey]
      rw [if_pos htaken, ih hsame, failures_keepProperty, hfailure]
      simp
    · have hfailure : p.failure? false given = p.failure? false bag :=
        failure?_congr ((hgiven p.name).trans (if_neg htaken))
      rw [if_neg htaken, ih hleft, failures_keepProperty, hfailure, List.filterMap_cons]
      cases p.failure? false bag <;> simp

/-- The bag of a relationship is accepted if nothing is refused in it, and otherwise all that is
refused is reported. -/
theorem relationshipBag_eq (rel : Relationship) (bag : Bag) :
    ∃ kept, relationshipBag rel bag =
      if (Visited.link rel bag).failures = [] then .ok kept
      else .error ⟨(Visited.link rel bag).failures⟩ := by
  have hgiven : ∀ key, Bag.present? (KeyedList.remove bag rel.nodeKey) key =
      if key ∈ [rel.nodeKey] then none else bag.present? key := by
    intro key
    simp only [present?_remove, List.mem_singleton, eq_comm]
  refine ⟨(rel.properties.foldl keepProperty
    (KeyedList.remove bag rel.nodeKey, { bag := farEntry rel bag })).2.bag, ?_⟩
  simp only [relationshipBag, Checked.result, failures_foldl_keepProperty hgiven, List.nil_append,
    List.isEmpty_iff]
  rfl

/-! ## The first offender -/

namespace Preparing

variable {α β : Type} {x : Preparing α} {v w : Visiting}

/-- The computation reports the first of the visits in which something is refused. If there is none,
it comes to a value, and leaves of the supply what the visits leave. -/
def Reports (x : Preparing α) (v : Visiting) : Prop :=
  ∀ supply,
    match firstOffending? (v.run supply).1 with
    | none => ∃ a, x.run.run supply = (.ok a, (v.run supply).2)
    | some visit => ∃ rest, x.run.run supply = (.error (.validation visit.report), rest)

/-- What takes nothing from the supply and refuses nothing makes no visits. -/
theorem Reports.pure (a : α) : Reports (Pure.pure a) (Pure.pure []) :=
  fun _ => ⟨a, rfl⟩

/-- Two computations in a row make the visits of both. -/
theorem Reports.bind (hx : Reports x v) {f : α → Preparing β}
    (hf : ∀ a, x.Yields a → Reports (f a) w) :
    Reports (x >>= f) (do return (← v) ++ (← w)) := by
  intro supply
  have hxs := hx supply
  have hvisits : ((do return (← v) ++ (← w) : Visiting).run supply) =
      ((v.run supply).1 ++ (w.run (v.run supply).2).1, (w.run (v.run supply).2).2) := rfl
  rw [hvisits]
  -- The first offender of both is that of the first computation, if it has one.
  simp only [firstOffending?, List.find?_append] at hxs ⊢
  cases hfirst : (v.run supply).1.find? fun visit => !visit.visited.failures.isEmpty with
  | none =>
    rw [hfirst] at hxs
    obtain ⟨a, ha⟩ := hxs
    rw [run_bind_of_run ha]
    exact hf a ⟨_, _, ha⟩ _
  | some visit =>
    rw [hfirst] at hxs
    obtain ⟨rest, hrest⟩ := hxs
    exact ⟨rest, run_bind_of_run_error hrest⟩

/-- To change the value changes no visits. -/
theorem Reports.map (hx : Reports x v) (g : α → β) :
    Reports (do return g (← x)) v := by
  intro supply
  have hxs := hx supply
  cases hfirst : firstOffending? (v.run supply).1 with
  | none =>
    rw [hfirst] at hxs
    obtain ⟨a, ha⟩ := hxs
    exact ⟨g a, run_bind_of_run ha⟩
  | some visit =>
    rw [hfirst] at hxs
    obtain ⟨rest, hrest⟩ := hxs
    exact ⟨rest, run_bind_of_run_error hrest⟩

/-- Computations on the items of a list make the visits of each. -/
theorem Reports.mapM {f : α → Preparing β} {visitOne : α → Visiting} {items : List α}
    (h : ∀ item ∈ items, Reports (f item) (visitOne item)) :
    Reports (items.mapM f) (visitEach visitOne items) := by
  induction items with
  | nil => exact .pure []
  | cons item rest ih =>
    rw [List.mapM_cons]
    refine (h item List.mem_cons_self).bind fun b _ => ?_
    exact (ih fun item hitem => h item (List.mem_cons_of_mem _ hitem)).map (b :: ·)

/-- Seen from further out, a visit is reported with the segments that lead there in front. -/
theorem report_under {segments : List String} (hsegments : segments ≠ []) (visit : Visit) :
    (visit.under segments).report = visit.report.under (Text.joined "." segments) := by
  unfold Visit.report ValidationError.under Visit.under
  simp only [List.map_map]
  congr 2
  funext failure
  simp only [Function.comp_apply, List.append_assoc]
  rw [Text.joined_append hsegments (by simp)]

/-- To name fields from further out is to see the visits from there. -/
theorem Reports.under (hx : Reports x v) {segments : List String} (hsegments : segments ≠ []) :
    Reports (x.under (Text.joined "." segments)) (v.under segments) := by
  intro supply
  have hxs := hx supply
  have hfirst : firstOffending? ((v.under segments).run supply).1 =
      (firstOffending? (v.run supply).1).map (Visit.under segments) := List.find?_map
  rw [hfirst]
  cases hvisit : firstOffending? (v.run supply).1 with
  | none =>
    rw [hvisit] at hxs
    obtain ⟨a, ha⟩ := hxs
    refine ⟨a, ?_⟩
    rw [run_under, ha]
    rfl
  | some visit =>
    rw [hvisit] at hxs
    obtain ⟨rest, hrest⟩ := hxs
    refine ⟨rest, ?_⟩
    rw [run_under, hrest]
    simp only [report_under hsegments]
    rfl

/-- To name fields from one segment further out is to see the visits from there. -/
theorem Reports.under_one (hx : Reports x v) (segment : String) :
    Reports (x.under segment) (v.under [segment]) := by
  have hunder := hx.under (List.cons_ne_nil segment [])
  rwa [Text.joined] at hunder

/-- A validation that reports what is refused in one bag makes one visit. -/
theorem Reports.ofValidation {checked : Except ValidationError α} {visited : Visited}
    (h : ∃ a, checked = if visited.failures = [] then .ok a else .error ⟨visited.failures⟩) :
    Reports (ofValidation checked) (Pure.pure [{ visited := visited }]) := by
  intro supply
  obtain ⟨a, rfl⟩ := h
  have hvisits : (Pure.pure [{ visited := visited }] : Visiting).run supply =
      ([{ visited := visited }], supply) := rfl
  rw [hvisits]
  by_cases hfailures : visited.failures = []
  · have hfirst : firstOffending? [{ visited := visited }] = none := by
      simp [firstOffending?, hfailures]
    rw [hfirst, if_pos hfailures]
    exact ⟨a, rfl⟩
  · have hfirst : firstOffending? [{ visited := visited }] = some { visited := visited } := by
      simp [firstOffending?, hfailures]
    have hreport : Visit.report { visited := visited } = ⟨visited.failures⟩ := by
      simp [Visit.report, Text.joined]
    rw [hfirst, if_neg hfailures]
    exact ⟨supply, by rw [hreport]; rfl⟩

/-- What is drawn from the supply is drawn for the visits as well. -/
theorem Reports.draw {γ : Type} {draw : StateM Supply γ} {f : γ → Preparing α} {v : γ → Visiting}
    (h : ∀ c, Reports (f c) (v c)) : Reports ((liftM draw : Preparing γ) >>= f) (draw >>= v) :=
  fun supply => h (draw.run supply).1 (draw.run supply).2

end Preparing

/-! ## The preparation of a payload -/

section

variable {prepareFar : Bag → Preparing Bag} {visitFar : Bag → Visiting}

section

variable (hfar : ∀ far, Reports (prepareFar far) (visitFar far))

include hfar

/-- The preparation of an item reports the first offender of its visits. -/
theorem reports_prepareItem (rel : Relationship) (item : Value) :
    Reports (prepareItem prepareFar rel item) (visitItem visitFar rel item) := by
  cases item with
  | map entries =>
    rw [prepareItem, visitItem]
    split
    · change Reports _ (do
        return (← (Pure.pure [{ visited := .link rel entries }] : Visiting)) ++
          (← visitBehind visitFar rel entries))
      refine (Reports.ofValidation (relationshipBag_eq rel entries)).bind fun kept hkept => ?_
      -- The check keeps the far node as it is.
      rw [get?_nodeKey_of_relationshipBag hkept.of_ofValidation]
      unfold visitBehind
      cases KeyedList.get? entries rel.nodeKey with
      | none => exact .pure _
      | some found =>
        cases found with
        | map far =>
          exact ((hfar far).under_one rel.nodeKey).map
            fun far => Value.map (KeyedList.put kept rel.nodeKey (.map far))
        | _ => exact .pure _
    · exact (hfar entries).map Value.map
  | _ => exact .pure _

/-- The preparation of what is under the key of a relationship reports the first offender of its
visits. -/
theorem reports_prepareRelated (rel : Relationship) (value : Value) :
    Reports (prepareRelated prepareFar rel value) (visitRelated visitFar rel value) := by
  unfold prepareRelated visitRelated
  split
  · next items =>
    refine Reports.map (Reports.mapM fun item _ => ?_) Value.list
    have hitem := (reports_prepareItem hfar rel item.1).under
      (List.cons_ne_nil rel.name [toString item.2])
    simpa only [prepareListed, Text.joined] using hitem
  · next hlist =>
    cases value with
    | list items => exact absurd rfl (hlist items)
    | _ => exact (reports_prepareItem hfar rel _).under_one rel.name

end

variable {registry : Registry} {prepareFar : EntityType → Bag → Preparing Bag}
  {visitFar : EntityType → Bag → Visiting}
  (hfar : ∀ target far, Reports (prepareFar target far) (visitFar target far))

include hfar

/-- The preparation of what is under the keys of relationships reports the first offender of their
visits, in a bag that still has there what it had when its defaults were filled in. -/
theorem reports_foldlM_prepareUnder {rels : List Relationship}
    (hnodup : (rels.map Relationship.name).Nodup)
    (hheld : ∀ rel ∈ rels, KeyedList.get? bag rel.name = KeyedList.get? filled rel.name) :
    Reports (rels.foldlM (prepareUnder registry prepareFar) bag)
      (visitEach (visitUnder registry visitFar filled) rels) := by
  induction rels generalizing bag with
  | nil => exact .pure bag
  | cons rel rest ih =>
    rw [List.map_cons, List.nodup_cons] at hnodup
    rw [List.foldlM_cons]
    have hhead : Reports (prepareUnder registry prepareFar bag rel)
        (visitUnder registry visitFar filled rel) := by
      unfold prepareUnder visitUnder
      rw [hheld rel List.mem_cons_self]
      cases KeyedList.get? filled rel.name with
      | none => exact .pure bag
      | some value =>
        cases registry.target? rel with
        | none => exact .pure bag
        | some target =>
          exact (reports_prepareRelated (hfar target) rel value).map (KeyedList.put bag rel.name)
    refine hhead.bind fun after hafter => ih hnodup.2 fun other hother => ?_
    -- What was put back under one key is not what is looked at under the others.
    have hne : rel.name ≠ other.name := fun hname =>
      hnodup.1 (hname ▸ List.mem_map_of_mem hother)
    rw [get?_of_prepareUnder hafter hne, hheld other (List.mem_cons_of_mem _ hother)]

end

/-- A preparation reports the first bag in which something is refused. -/
theorem prepare_reports (registry : Registry) (levels : Nat) (model : EntityType) (bag : Bag) :
    Reports (prepare registry levels model bag) (visits registry levels model bag) := by
  -- Both recursions go down the levels, and draw the same defaults on the way.
  induction levels generalizing model bag with
  | zero => exact .draw fun filled => .ofValidation ⟨_, validate_create model bag filled⟩
  | succ levels ih =>
    rw [prepare, prepareProperties, bind_assoc]
    refine .draw fun filled => ?_
    have hproperties := Reports.ofValidation ⟨_, validate_create model bag filled⟩
    refine hproperties.bind fun checked hchecked => ?_
    refine reports_foldlM_prepareUnder ih model.relationships_nodup fun rel hrel => ?_
    exact get?_of_validate hchecked.of_ofValidation
      (model.keys_disjoint _ (List.mem_map_of_mem hrel))

/-! ## Creations and merges -/

section

variable {α σ : Type}

/-- A request that is refused ends in a failed validation if that is why. No reply ends in one. -/
theorem result_eq_validation_iff {access : Access} {attempt : Except MapperError (Request α)}
    (h : Requests access attempt) (db : Database σ) (state : σ) (e : ValidationError) :
    (((Dialogue.ofRequest attempt).answeredBy db.logged).run (state, [])).1 =
      .error (.validation e) ↔ attempt = .error (.validation e) := by
  cases attempt with
  | error cause => exact ⟨fun hend => by cases hend; rfl, fun hend => by cases hend; rfl⟩
  | ok request =>
    refine iff_of_false (fun hend => ?_) nofun
    rw [Dialogue.ofRequest, run_send] at hend
    dsimp only at hend
    split at hend
    case h_1 rows _ =>
      have hanswer := h.answer rows
      rw [hend] at hanswer
      exact hanswer
    case h_2 => cases hend

end

/-- What is wrong with the query of a payload is no failed validation. -/
theorem Mapper.writeQuery_ne_validation (mapper : Mapper) (mode : WriteMode) (model : EntityType)
    (payload : Bag) (e : ValidationError) :
    mapper.writeQuery mode model payload ≠ .error (.validation e) := by
  have hother : Ends (fun _ => True) (· ≠ MapperError.validation e)
      (mapper.writeQuery mode model payload) :=
    Ends.bind (Ends.mapError fun _ => nofun) fun plan _ =>
      Ends.bind (Ends.mapError fun _ => nofun) fun expression _ => Ends.mapError fun _ => nofun
  intro h
  rw [h] at hother
  exact hother rfl

/-- A payload for a registered type is refused by its first offender. -/
theorem Mapper.writeRequest_eq_validation_iff (mapper : Mapper) (mode : WriteMode) (name : String)
    (payload : Bag) (supply : Supply) (e : ValidationError) :
    ((mapper.writeRequest mode name payload).run.run supply).1 = .error (.validation e) ↔
      ∃ model visit, mapper.model name = .ok model ∧
        firstOffending? ((visits mapper.registry mapper.config.maxWriteDepth model payload).run
          supply).1 = some visit ∧ e = visit.report := by
  have htype : Ends (fun _ => True) (· ≠ MapperError.validation e) (mapper.model name) :=
    Ends.mapError fun _ => nofun
  rw [Mapper.writeRequest]
  cases hmodel : mapper.model name with
  | error cause =>
    rw [hmodel] at htype
    refine iff_of_false (fun hend => ?_) (by simp)
    cases hend
    exact htype rfl
  | ok model =>
    have hprepare :=
      prepare_reports mapper.registry mapper.config.maxWriteDepth model payload supply
    have hfound : (ofExcept (.ok model)).run.run supply = (.ok model, supply) := rfl
    rw [run_bind_of_run hfound]
    cases hfirst : firstOffending? ((visits mapper.registry mapper.config.maxWriteDepth model
      payload).run supply).1 with
    | none =>
      rw [hfirst] at hprepare
      obtain ⟨prepared, hprepared⟩ := hprepare
      rw [run_bind_of_run hprepared]
      refine iff_of_false (fun hend => ?_) (by simp [hfirst])
      cases hquery : mapper.writeQuery mode model prepared with
      | error cause =>
        rw [hquery] at hend
        cases hend
        exact mapper.writeQuery_ne_validation mode model prepared e hquery
      | ok query =>
        rw [hquery] at hend
        cases hend
    | some visit =>
      rw [hfirst] at hprepare
      obtain ⟨rest, hrefused⟩ := hprepare
      rw [run_bind_of_run_error hrefused]
      simp [hfirst, eq_comm]

/-- A creation ends in a failed validation exactly where something is refused in a bag that the
payload leads to, and so does a merge. The first such bag is reported, with all that is refused in
it and nothing else, each field by the path that leads to it. -/
theorem refused_at_first_offender {σ : Type} (mapper : Mapper) (name : String) (payload : Bag)
    (supply : Supply) (db : Database σ) (state : σ) (e : ValidationError) :
    let levels := mapper.config.maxWriteDepth
    let reported := ∃ model visit, mapper.model name = .ok model ∧
      firstOffending? ((visits mapper.registry levels model payload).run supply).1 = some visit ∧
      LeadsTo mapper.registry levels model payload visit.path visit.visited ∧ e = visit.report
    (((Operation.create name payload).endsOn mapper supply db state).result =
      .error (.validation e) ↔ reported) ∧
    (((Operation.merge name payload).endsOn mapper supply db state).result =
      .error (.validation e) ↔ reported) := by
  intro levels reported
  have hreported (mode : WriteMode) :
      (((Dialogue.ofRequest ((mapper.writeRequest mode name payload).run.run supply).1).answeredBy
        db.logged).run (state, [])).1 = .error (.validation e) ↔ reported := by
    rw [result_eq_validation_iff (mapper.requests_write mode name payload supply),
      mapper.writeRequest_eq_validation_iff]
    refine exists_congr fun model => exists_congr fun visit => and_congr_right fun _ =>
      and_congr_right fun hfirst => (and_iff_right ?_).symm
    exact leadsTo_of_mem_visits (List.mem_of_find?_eq_some hfirst)
  exact ⟨hreported .create, hreported .merge⟩

/-- Somebody knows friends since some year. -/
def acquaintance : Relationship where
  name := "knows"
  shape := .relationships
  type := "KNOWS"
  direction := .outgoing
  target := .model "Person"
  nodeKey := "friend"
  properties := [{ name := "since", type := .integer }]

/-- Persons have a name, and may have an age. -/
def person : EntityType where
  name := "Person"
  labels := ["Person"]
  properties := [{ name := "name", type := .string, required := true },
    { name := "age", type := .integer }]
  relationships := [acquaintance]
  labels_ne_nil := by decide
  labels_ascending := by decide
  properties_nodup := by decide
  relationships_nodup := by decide
  keys_disjoint := by decide
  primary_le_one := by decide

/-- A friend without a name is reported behind the acquaintance, which is the second in its list. -/
example (supply : Supply) :
    (firstOffending? ((visits ⟨[person], by decide⟩ 2 person [
      ("knows", .list [.string "Bob", .map [("friend", .map [("age", .string "old")])]]),
      ("name", .string "Ann")]).run supply).1).map Visit.report =
        some ⟨[⟨"knows.1.friend.name", .required⟩,
          ⟨"knows.1.friend.age", .unreadable "old" "an integer"⟩]⟩ := by
  rfl

end GraphMapper

import GraphMapper.CommandLine.Run
import GraphMapper.Proofs.Mapper.Completeness
import GraphMapper.Proofs.Mapper.Written

/-!
# What the command line shows

The command line prints the query that a creation or a merge would send, without a database. It
prepares the root of the payload as a mapper does, and leaves the bags below alone. Where these are
complete a mapper would do nothing in them either, and the query that is printed is the one that is
sent, for the same identifiers drawn from the supply (`shows_dispatched`). A bag below the root that
leaves out a property with a default is the simplest payload for which the two differ
(`nested_default_not_shown`).
-/

namespace GraphMapper.CommandLine

open Cypher (Query)
open Preparing

/-! ## Payloads from JSON -/

mutual

/-- A value from JSON has ascending keys in all its maps. -/
theorem ordered_ofJson : (json : Json) → (Value.ofJson json).Ordered
  | .null => .other rfl rfl
  | .bool _ => .other rfl rfl
  | .integer n => by
    rw [Value.ofJson, Value.ofInteger]
    split <;> exact .other rfl rfl
  | .float _ => .other rfl rfl
  | .string _ => .other rfl rfl
  | .array items => .list (ordered_ofJsonItems items)
  | .object entries => by
    refine .map (KeyedList.ofPairs_ascending _) fun entry hentry => ?_
    exact ordered_ofJsonEntries entries entry (KeyedList.mem_of_mem_ofPairs hentry)

/-- So have the items of a JSON array. -/
theorem ordered_ofJsonItems : (items : List Json) → ∀ item ∈ Value.ofJsonItems items, item.Ordered
  | [], _, hitem => by cases hitem
  | json :: rest, item, hitem => by
    rcases List.mem_cons.mp hitem with rfl | hitem
    · exact ordered_ofJson json
    · exact ordered_ofJsonItems rest item hitem

/-- So have the entries of a JSON object. -/
theorem ordered_ofJsonEntries : (entries : List (String × Json)) →
    ∀ entry ∈ Value.ofJsonEntries entries, entry.2.Ordered
  | [], _, hentry => by cases hentry
  | (_, json) :: rest, entry, hentry => by
    rcases List.mem_cons.mp hentry with rfl | hentry
    · exact ordered_ofJson json
    · exact ordered_ofJsonEntries rest entry hentry

end

/-- A payload that is read has ascending keys in all its maps. -/
theorem ordered_of_readPayload {text : String} {payload : Bag}
    (h : readPayload text = .ok payload) : payload.Ordered := by
  unfold readPayload at h
  split at h
  · next entries hvalue =>
    cases h
    obtain ⟨json, -, hjson⟩ := Option.map_eq_some_iff.mp hvalue
    exact (hjson ▸ ordered_ofJson json).entries.2
  · cases h
  · cases h

/-! ## The query that is printed and the query that is sent -/

section

variable {mapper : Mapper} {supply rest : Supply} {mode : WriteMode} {name text : String}
  {payload checked prepared : Bag} {model : EntityType} {query : Query}

/-- Payloads that are alike in equal values are written by the same query, or by none. -/
theorem writeQuery_of_alike
    (h : BagsAlike Eq mapper.registry mapper.config.maxWriteDepth model checked prepared) :
    mapper.writeQuery mode model prepared = .ok query ↔
      mapper.writeQuery mode model checked = .ok query := by
  have hplans : SameOutcome (PlanAlike Eq)
      ((WritePlan.ofPayload mapper.registry mapper.config.writeLimit mode rootVar model
        checked).mapError CompileError.untyped)
      ((WritePlan.ofPayload mapper.registry mapper.config.writeLimit mode rootVar model
        prepared).mapError CompileError.untyped) := planNode_alike rootVar model checked prepared h
  unfold Mapper.writeQuery
  cases hchecked : WritePlan.ofPayload mapper.registry mapper.config.writeLimit mode rootVar model
      checked with
  | error e =>
    cases hprepared : WritePlan.ofPayload mapper.registry mapper.config.writeLimit mode rootVar
        model prepared with
    | error e' => exact ⟨nofun, nofun⟩
    | ok plan' =>
      rw [hchecked, hprepared] at hplans
      cases hplans
  | ok plan =>
    cases hprepared : WritePlan.ofPayload mapper.registry mapper.config.writeLimit mode rootVar
        model prepared with
    | error e' =>
      rw [hchecked, hprepared] at hplans
      cases hplans
    | ok plan' =>
      rw [hchecked, hprepared] at hplans
      cases hplans with
      | ok halike =>
        have hsteps : plan'.steps = plan.steps := Cypher.eq_of_alike (halike.steps [])
        simp only [Except.mapError, bind, Except.bind, hsteps]

/-- A query is printed when the properties of the root can be prepared and the bag that comes of it
is written by that query. -/
theorem writeQuery_eq_ok (hpayload : readPayload text = .ok payload) :
    writeQuery mapper supply mode name text = .ok query ↔
      ∃ model checked rest, mapper.model name = .ok model ∧
        (prepareProperties model payload).run.run supply = (.ok checked, rest) ∧
        mapper.writeQuery mode model checked = .ok query := by
  unfold writeQuery
  simp only [hpayload, bind_eq_ok, mapError_eq_ok]
  constructor
  · rintro ⟨model, hmodel, _, hread, checked, hchecked, hquery⟩
    cases hread
    exact ⟨model, checked, _, hmodel, Prod.ext hchecked rfl, hquery⟩
  · rintro ⟨model, checked, rest, hmodel, hchecked, hquery⟩
    exact ⟨model, hmodel, payload, rfl, checked, congrArg Prod.fst hchecked, hquery⟩

/-- A query is sent when the payload can be prepared and what comes of it is written by that
query. -/
theorem write_eq_run :
    (∃ next, ((mapper.write mode name payload).run supply).1 = .run .write query next) ↔
      ∃ model prepared rest, mapper.model name = .ok model ∧
        (prepare mapper.registry mapper.config.maxWriteDepth model payload).run.run supply =
          (.ok prepared, rest) ∧
        mapper.writeQuery mode model prepared = .ok query := by
  have hwrite : ((mapper.write mode name payload).run supply).1 =
      Dialogue.ofRequest ((mapper.writeRequest mode name payload).run.run supply).1 := rfl
  rw [hwrite]
  constructor
  · rintro ⟨next, h⟩
    obtain ⟨request, hrequest, -, rfl⟩ := exists_request_of_run h
    obtain ⟨model, _, hrunModel, h⟩ := exists_run_of_bind (Prod.ext hrequest rfl)
    obtain ⟨hmodel, rfl⟩ := run_ofExcept hrunModel
    obtain ⟨prepared, rest, hprepared, h⟩ := exists_run_of_bind h
    obtain ⟨query, _, hrunQuery, h⟩ := exists_run_of_bind h
    obtain ⟨hquery, rfl⟩ := run_ofExcept hrunQuery
    cases h
    exact ⟨model, prepared, _, hmodel, hprepared, hquery⟩
  · rintro ⟨model, prepared, rest, hmodel, hprepared, hquery⟩
    rw [run_writeRequest hmodel hprepared hquery]
    exact ⟨_, rfl⟩

/-- A preparation that comes to something has prepared the properties first. -/
theorem exists_checked_run {levels : Nat} {registry : Registry}
    (h : (prepare registry levels model payload).run.run supply = (.ok prepared, rest)) :
    ∃ checked mid, (prepareProperties model payload).run.run supply = (.ok checked, mid) := by
  cases levels with
  | zero => exact ⟨prepared, rest, h⟩
  | succ levels =>
    obtain ⟨checked, mid, hchecked, -⟩ := exists_run_of_bind h
    exact ⟨checked, mid, hchecked⟩

/-- Where all below a payload is complete, the query that is printed is the one that is sent. -/
theorem writeQuery_eq_ok_iff (hpayload : readPayload text = .ok payload)
    (hcomplete : ∀ model, mapper.model name = .ok model →
      CompleteBelow mapper.registry mapper.config.maxWriteDepth model payload) :
    writeQuery mapper supply mode name text = .ok query ↔
      ∃ next, ((mapper.write mode name payload).run supply).1 = .run .write query next := by
  have hordered := ordered_of_readPayload hpayload
  rw [writeQuery_eq_ok hpayload, write_eq_run]
  constructor
  · rintro ⟨model, checked, rest, hmodel, hchecked, hquery⟩
    obtain ⟨prepared, hprepared, halike⟩ := prepare_root (hcomplete model hmodel) hordered hchecked
    exact ⟨model, prepared, rest, hmodel, hprepared, (writeQuery_of_alike halike).mpr hquery⟩
  · rintro ⟨model, prepared, rest, hmodel, hprepared, hquery⟩
    obtain ⟨checked, mid, hchecked⟩ := exists_checked_run hprepared
    obtain ⟨prepared', hprepared', halike⟩ :=
      prepare_root (hcomplete model hmodel) hordered hchecked
    rw [hprepared] at hprepared'
    cases hprepared'
    exact ⟨model, checked, rest, hmodel, hchecked, (writeQuery_of_alike halike).mp hquery⟩

end

/-- A run of the command line that asks for a creation or a merge, with the files and the payload
that it names. -/
def IsWriteRun (files : Files) (arguments : List String) (format : OutputFormat) (mapper : Mapper)
    (mode : WriteMode) (name : String) (payload : Bag) : Prop :=
  ∃ schema config text,
    Invocation.ofArguments arguments = .ok ⟨schema, config, format, .write mode name text⟩ ∧
    loadRegistry files schema = .ok mapper.registry ∧ loadConfig files config = .ok mapper.config ∧
    readPayload text = .ok payload

/-- What the command line prints for a creation or a merge of a payload below whose root all is
complete is what a mapper would send: it succeeds exactly if the mapper comes to a query, and then
prints that query. -/
theorem shows_dispatched (diagnosis : Diagnosis) {files : Files} {supply : Supply}
    {arguments : List String} {format : OutputFormat} {mapper : Mapper} {mode : WriteMode}
    {name : String} {payload : Bag}
    (hrun : IsWriteRun files arguments format mapper mode name payload)
    (hcomplete : ∀ model, mapper.model name = .ok model →
      CompleteBelow mapper.registry mapper.config.maxWriteDepth model payload) :
    ((run diagnosis files supply arguments).code = 0 ↔ ∃ query next,
        ((mapper.write mode name payload).run supply).1 = .run .write query next) ∧
    ∀ query next, ((mapper.write mode name payload).run supply).1 = .run .write query next →
      (run diagnosis files supply arguments).output = format.print query := by
  obtain ⟨schema, config, text, harguments, hregistry, hconfig, hpayload⟩ := hrun
  have hshown := fun query =>
    @writeQuery_eq_ok_iff mapper supply mode name text payload query hpayload hcomplete
  have hqueries : Invocation.queries files supply ⟨schema, config, format, .write mode name text⟩ =
      (writeQuery mapper supply mode name text).map ([·]) := by
    simp only [Invocation.queries, hregistry, hconfig, bind, Except.bind, Command.queries]
    cases writeQuery mapper supply mode name text <;> rfl
  unfold run
  rw [harguments]
  dsimp only
  rw [hqueries]
  cases hquery : writeQuery mapper supply mode name text with
  | error failure =>
    have hnone : ∀ query next,
        ((mapper.write mode name payload).run supply).1 ≠ .run .write query next := by
      intro query next hsent
      have hprinted := (hshown query).mpr ⟨next, hsent⟩
      rw [hquery] at hprinted
      cases hprinted
    refine ⟨⟨fun hcode => ?_, fun ⟨query, next, hsent⟩ => absurd hsent (hnone query next)⟩,
      fun query next hsent => absurd hsent (hnone query next)⟩
    exact absurd (show (1 : UInt8) = 0 from hcode) (by decide)
  | ok query =>
    obtain ⟨next, hsent⟩ := (hshown query).mp hquery
    refine ⟨⟨fun _ => ⟨query, next, hsent⟩, fun _ => rfl⟩, fun other next' hother => ?_⟩
    rw [hsent] at hother
    cases hother
    simp [Except.map]

/-! ## Members of staff -/

/-- Whether an operation begins with a query of some kind can be tested. -/
instance decidableExistsRun {α : Type} {access : Access} {p : Query → Prop} [DecidablePred p] :
    (dialogue : Dialogue α) →
      Decidable (∃ query, p query ∧ ∃ next, dialogue = .run access query next)
  | .run other query next =>
    decidable_of_iff (other = access ∧ p query)
      ⟨fun ⟨haccess, h⟩ => ⟨query, h, next, haccess ▸ rfl⟩,
        fun ⟨_, h, _, hrun⟩ => by cases hrun; exact ⟨rfl, h⟩⟩
  | .done _ | .begin _ | .dispatch .. | .commit _ | .rollback _ =>
    .isFalse fun ⟨_, _, _, hrun⟩ => nomatch hrun

/-- A directory with one file, which declares members of staff and whom they report to. Their role
is filled in. -/
def staffFiles : Files := fun path =>
  if path = "s.json" then
    some ("\x7b\"Staff\":\x7b\"name\":\x7b\"type\":\"string\",\"primary\":true\x7d," ++
      "\"role\":\x7b\"type\":\"string\",\"default\":\"staff\"\x7d," ++
      "\"boss\":\x7b\"type\":\"node\",\"relationship\":\"REPORTS_TO\"," ++
      "\"target\":\"Staff\"\x7d\x7d\x7d")
  else none

/-- Someone who reports to the given one. -/
def reportingTo (boss : String) : String :=
  "\x7b\"name\":\"Ann\",\"boss\":" ++ boss ++ "\x7d"

/-- A boss whose role is left out. -/
def bob : String := "\x7b\"name\":\"Bob\"\x7d"

/-- A boss whose role is given. -/
def leadingBob : String := "\x7b\"name\":\"Bob\",\"role\":\"lead\"\x7d"

/-- The command line that asks for the creation of someone who reports to the given one. -/
def createUnder (boss : String) : List String :=
  ["--schema", "s.json", "create", "--model", "Staff", "--props-json", reportingTo boss]

/-- What the command line comes to, where nothing is said of malformed texts. -/
def shownUnder (boss : String) : Report :=
  run (fun _ _ => "") staffFiles sameUuid (createUnder boss)

/-- A bag of texts is complete for a type of texts if it leaves out none of the properties. -/
theorem complete_of_texts {registry : Registry} {levels : Nat} {model : EntityType} {bag : Bag}
    (htexts : ∀ entry ∈ bag, entry.2.string?.isSome)
    (hgiven : ∀ p ∈ model.properties, p.type = .string ∧ (bag.present? p.name).isSome) :
    Complete registry levels model bag := by
  have htext : ∀ key value, bag.present? key = some value → ∃ text, value = .string text := by
    intro key value hvalue
    have hsome := htexts _ (KeyedList.mem_of_get?_eq_some (present?_eq_some.mp hvalue).1)
    cases value <;> simp_all [Value.string?]
  have hproperties : ∀ p ∈ model.properties, p.Complete bag := by
    intro p hp
    obtain ⟨htype, hsome⟩ := hgiven p hp
    obtain ⟨value, hvalue⟩ := Option.isSome_iff_exists.mp hsome
    obtain ⟨text, rfl⟩ := htext p.name value hvalue
    have haccepts : p.Accepts (.string text) := by
      rw [Property.Accepts, htype]
      rfl
    rw [Property.Complete, hvalue]
    exact haccepts
  cases levels with
  | zero => exact hproperties
  | succ levels =>
    refine ⟨hproperties, fun rel _ target _ value hvalue item hitem => ?_⟩
    obtain ⟨text, rfl⟩ := htext rel.name value hvalue
    obtain rfl := List.mem_singleton.mp hitem
    trivial

/-- Registered types hold nodes only, and of a payload every entry is a text, or a bag of texts that
leaves out no property of any registered type. -/
structure TextsGiven (registry : Registry) (payload : Bag) : Prop where
  shapes : ∀ model ∈ registry.models, ∀ rel ∈ model.relationships, rel.shape.isRelationship = false
  single : ∀ entry ∈ payload, entry.2.items?.isNone
  texts : ∀ entry ∈ payload, ∀ far ∈ entry.2.entries?.toList, ∀ part ∈ far, part.2.string?.isSome
  given : ∀ entry ∈ payload, ∀ far ∈ entry.2.entries?.toList, ∀ model ∈ registry.models,
    ∀ p ∈ model.properties, p.type = .string ∧ (Bag.present? far p.name).isSome

instance (registry : Registry) (payload : Bag) : Decidable (TextsGiven registry payload) :=
  decidable_of_iff (_ ∧ _ ∧ _ ∧ _)
    ⟨fun ⟨h₁, h₂, h₃, h₄⟩ => ⟨h₁, h₂, h₃, h₄⟩, fun ⟨h₁, h₂, h₃, h₄⟩ => ⟨h₁, h₂, h₃, h₄⟩⟩

/-- All below such a payload is complete. -/
theorem TextsGiven.completeBelow {registry : Registry} {levels : Nat} {model : EntityType}
    {payload : Bag} (h : TextsGiven registry payload) (hmodel : model ∈ registry.models) :
    CompleteBelow registry levels model payload := by
  cases levels with
  | zero => trivial
  | succ levels =>
    intro rel hrel target htarget value hvalue item hitem
    have hentry := KeyedList.mem_of_get?_eq_some (present?_eq_some.mp hvalue).1
    have hsingle := h.single _ hentry
    rw [Value.itemsOrSelf_of_not_list (Option.isNone_iff_eq_none.mp hsingle)] at hitem
    obtain rfl := List.mem_singleton.mp hitem
    cases hfar : item.entries? with
    | none => cases item <;> simp_all [ItemComplete, Value.entries?]
    | some far =>
      obtain rfl := Value.entries?_eq_some.mp hfar
      have hmem : far ∈ (Value.map far).entries?.toList := List.mem_singleton_self far
      rw [ItemComplete, h.shapes model hmodel rel hrel]
      exact complete_of_texts (h.texts _ hentry far hmem)
        (h.given _ hentry far hmem target (mem_models_of_target? htarget))

/-- The role of a new boss is filled in by a mapper, and not by the command line. -/
theorem nested_default_not_shown : ∃ registry payload sent,
    IsWriteRun staffFiles (createUnder bob) .json ⟨registry, {}⟩ .create "Staff" payload ∧
    (∃ next, ((Mapper.write ⟨registry, {}⟩ .create "Staff" payload).run sameUuid).1 =
      .run .write sent next) ∧
    (shownUnder bob).code = 0 ∧ (shownUnder bob).output ≠ OutputFormat.json.print sent := by
  have hruns : ∃ registry, loadRegistry staffFiles (some "s.json") = .ok registry ∧
      ∃ payload, readPayload (reportingTo bob) = .ok payload ∧
      ∃ sent, ((shownUnder bob).code = 0 ∧
        (shownUnder bob).output ≠ OutputFormat.json.print sent) ∧
      ∃ next, ((Mapper.write ⟨registry, {}⟩ .create "Staff" payload).run sameUuid).1 =
        .run .write sent next := by
    decide +kernel
  obtain ⟨registry, hregistry, payload, hpayload, sent, ⟨hcode, houtput⟩, hsent⟩ := hruns
  exact ⟨registry, payload, sent, ⟨some "s.json", none, _, rfl, hregistry, rfl, hpayload⟩, hsent,
    hcode, houtput⟩

/-- A boss whose role is given is created as it is shown. -/
theorem given_role_shown : ∃ registry payload,
    IsWriteRun staffFiles (createUnder leadingBob) .json ⟨registry, {}⟩ .create "Staff" payload ∧
    (∀ model, Mapper.model ⟨registry, {}⟩ "Staff" = .ok model →
      CompleteBelow registry ({} : Config).maxWriteDepth model payload) ∧
    ∃ query next, ((Mapper.write ⟨registry, {}⟩ .create "Staff" payload).run sameUuid).1 =
        .run .write query next ∧
      (shownUnder leadingBob).output = OutputFormat.json.print query := by
  have hruns : ∃ registry, loadRegistry staffFiles (some "s.json") = .ok registry ∧
      ∃ payload, readPayload (reportingTo leadingBob) = .ok payload ∧
      TextsGiven registry payload ∧
      (shownUnder leadingBob).code = 0 := by
    decide +kernel
  obtain ⟨registry, hregistry, payload, hpayload, htexts, hcode⟩ := hruns
  have hrun : IsWriteRun staffFiles (createUnder leadingBob) .json ⟨registry, {}⟩ .create "Staff"
      payload := ⟨some "s.json", none, _, rfl, hregistry, rfl, hpayload⟩
  have hcomplete : ∀ model, Mapper.model ⟨registry, {}⟩ "Staff" = .ok model →
      CompleteBelow registry ({} : Config).maxWriteDepth model payload :=
    fun model hmodel => htexts.completeBelow (mem_models_of_model hmodel)
  obtain ⟨hcodeIff, hprinted⟩ :=
    @shows_dispatched (fun _ _ => "") _ sameUuid _ _ _ _ _ _ hrun hcomplete
  obtain ⟨query, next, hsent⟩ := hcodeIff.mp hcode
  exact ⟨registry, payload, hrun, hcomplete, query, next, hsent, hprinted query next hsent⟩

end GraphMapper.CommandLine

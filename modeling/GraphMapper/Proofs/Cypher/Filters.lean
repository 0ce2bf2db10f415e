import GraphMapper.Proofs.Cypher.Drafting
import GraphMapper.Proofs.Cypher.Parameters

/-!
# The filter that calls make

A filter is made call by call: a predicate goes to the last group, and a group is opened behind the
others. `whereText` writes the WHERE section from the calls alone, without groups. Between two
predicates stands the connector of their group, or, if groups were opened in between, the join of
the last of these; the ones before it got no predicate, and leave nothing.

`section?_foldl` says that the filter is written so, by induction on the calls: a filter that has a
predicate ends in a parenthesis, and the next predicate goes in front of it or behind it, as the
last group has predicates or not (`section?_add`). For steps on an open statement it follows that
none of their conditions is lost (`filtered_statement`).
-/

namespace GraphMapper.Cypher

open Text (joined joined_append)

/-! ## What calls ask for -/

/-- A call that adds to the filter of a statement. -/
inductive FilterCall where
  | predicate (p : Predicate)
  | group (join connector : Connector)

/-- The predicate that is added. -/
def FilterCall.predicate? : FilterCall → Option Predicate
  | .predicate p => some p
  | .group _ _ => none

/-- What is written behind a predicate, up to the last parenthesis. The group that the calls add to
has the given connector; `opened` is the join of that group if it has no predicate yet. -/
def following (connector : Connector) (opened : Option Connector) : List FilterCall → String
  | [] => ""
  | .group join connector :: calls => following connector (some join) calls
  | .predicate p :: calls =>
    let between := match opened with
      | none => " " ++ connector.text ++ " "
      | some join => ") " ++ join.text ++ " ("
    between ++ p.text ++ following connector none calls

/-- The WHERE section of calls, if they add a predicate. -/
def whereText (connector : Connector) : List FilterCall → Option String
  | [] => none
  | .group _ connector :: calls => whereText connector calls
  | .predicate p :: calls =>
    some ("WHERE (" ++ p.text ++ following connector none calls ++ ")")

/-- There is no WHERE section exactly if no predicate is added. -/
theorem whereText_eq_none_iff {connector : Connector} {calls : List FilterCall} :
    whereText connector calls = none ↔ calls.filterMap FilterCall.predicate? = [] := by
  induction calls generalizing connector with
  | nil => simp [whereText]
  | cons call rest ih =>
    cases call with
    | group join connector => exact ih
    | predicate p => simp [whereText, FilterCall.predicate?]

example : whereText .and [.predicate ⟨.raw "a", false⟩, .predicate ⟨.raw "b", false⟩,
    .group .and .and, .group .or .xor, .predicate ⟨.raw "c", false⟩, .predicate ⟨.raw "d", false⟩] =
    some "WHERE (a AND b) OR (c XOR d)" := by
  rfl

/-! ## Groups and filters -/

namespace FilterGroup

variable {group : FilterGroup}

/-- The group with one more predicate. -/
def add (group : FilterGroup) (p : Predicate) : FilterGroup :=
  { group with predicates := group.predicates ++ [p] }

/-- A group to which a predicate was added has one. -/
theorem predicates_add_ne_nil (p : Predicate) : (group.add p).predicates ≠ [] := by
  simp [add]

/-- The first predicate of a group stands in parentheses. -/
theorem text_add_of_isEmpty (h : group.predicates = []) (p : Predicate) :
    (group.add p).text = "(" ++ p.text ++ ")" := by
  simp [text, add, h, joined]

/-- Further predicates stand behind the connector of the group. -/
theorem text_add (h : group.predicates ≠ []) (p : Predicate) :
    ∃ body, group.text = body ++ ")" ∧
      (group.add p).text = body ++ " " ++ group.connector.text ++ " " ++ p.text ++ ")" := by
  refine ⟨"(" ++ joined (" " ++ group.connector.text ++ " ") (group.predicates.map Predicate.text),
    rfl, ?_⟩
  have hitems : group.predicates.map Predicate.text ≠ [] := by simpa using h
  rw [text, add, List.map_append, joined_append hitems (by simp)]
  simp only [List.map_cons, List.map_nil, joined, String.append_assoc]

end FilterGroup

namespace Filter

/-- The filter after a call. -/
def addTo (filter : Filter) : FilterCall → Filter
  | .predicate p => filter.add p
  | .group join connector => filter.openGroup join connector

/-- All predicates, group by group. -/
def predicates (filter : Filter) : List Predicate :=
  filter.groups.flatMap FilterGroup.predicates

/-- The WHERE section, if there is a predicate. -/
def section? (filter : Filter) : Option String :=
  if filter.isEmpty then none else some filter.text

/-- What is written in front of a further group. -/
def front (filter : Filter) (join : Connector) : String :=
  match filter.section? with
  | none => "WHERE "
  | some text => text ++ " " ++ join.text ++ " "

variable {groups : List FilterGroup} {group : FilterGroup} {filter : Filter}

/-- A filter is empty if none of its groups is written. -/
theorem isEmpty_iff : filter.isEmpty ↔ filter.written = [] := by
  simp [isEmpty, written, List.filter_eq_nil_iff]

/-- A group without predicates leaves no trace behind the others. -/
theorem section?_snoc_of_isEmpty (h : group.predicates = []) :
    (Filter.mk (groups ++ [group])).section? = (Filter.mk groups).section? := by
  have hwritten : (Filter.mk (groups ++ [group])).written = (Filter.mk groups).written := by
    simp [written, h]
  have hempty : (Filter.mk (groups ++ [group])).isEmpty = (Filter.mk groups).isEmpty := by
    rw [Bool.eq_iff_iff, isEmpty_iff, isEmpty_iff, hwritten]
  unfold section? text
  rw [hempty, hwritten]

/-- A group with predicates is written behind the others. -/
theorem section?_snoc (h : group.predicates ≠ []) :
    (Filter.mk (groups ++ [group])).section? =
      some ((Filter.mk groups).front group.join ++ group.text) := by
  have hwritten : (Filter.mk (groups ++ [group])).written =
      (Filter.mk groups).written ++ [group] := by
    simp [written, h]
  have hempty : (Filter.mk (groups ++ [group])).isEmpty = false := by
    rw [← Bool.not_eq_true, isEmpty_iff, hwritten]
    simp
  have hfirst : (Filter.mk groups).isEmpty = true ↔ (Filter.mk groups).written = [] := isEmpty_iff
  unfold front section? text
  rw [hempty, hwritten]
  -- The first group that is written stands behind WHERE, and any other behind its join.
  cases hothers : (Filter.mk groups).written with
  | nil => simp [hfirst.mpr hothers, String.join]
  | cons first rest =>
    have hnot : (Filter.mk groups).isEmpty = false := by
      rw [← Bool.not_eq_true, hfirst, hothers]
      simp
    simp [hnot, String.join, String.append_assoc]

/-- A predicate goes to the last group. -/
theorem add_snoc (p : Predicate) :
    (Filter.mk (groups ++ [group])).add p = ⟨groups ++ [group.add p]⟩ := by
  simp [add, FilterGroup.add]

/-- What stands between the text of a filter and one more predicate. -/
theorem section?_add {text : String} (p : Predicate)
    (h : (Filter.mk (groups ++ [group])).section? = some (text ++ ")")) :
    ((Filter.mk (groups ++ [group])).add p).section? =
      some (text ++ (if group.predicates = [] then ") " ++ group.join.text ++ " ("
        else " " ++ group.connector.text ++ " ") ++ p.text ++ ")") := by
  have hjoin : (group.add p).join = group.join := rfl
  rw [add_snoc, section?_snoc (FilterGroup.predicates_add_ne_nil p), hjoin]
  -- A group without predicates is not in the text yet, and one with predicates ends it.
  by_cases hempty : group.predicates = []
  · rw [section?_snoc_of_isEmpty hempty] at h
    rw [front, h, FilterGroup.text_add_of_isEmpty hempty, if_pos hempty]
    simp only [String.append_assoc]
    rfl
  · obtain ⟨body, hbody, hmore⟩ := FilterGroup.text_add hempty p
    rw [section?_snoc hempty, hbody, ← String.append_assoc, Option.some.injEq,
      String.append_left_inj] at h
    rw [hmore, if_neg hempty, ← h]
    simp only [String.append_assoc]

/-- From a filter that has a predicate on, calls are written behind its text, up to the last
parenthesis. -/
theorem section?_foldl_of_eq_some {calls : List FilterCall} {text : String}
    (h : (Filter.mk (groups ++ [group])).section? = some (text ++ ")")) :
    (calls.foldl addTo ⟨groups ++ [group]⟩).section? =
      some (text ++ following group.connector
        (if group.predicates = [] then some group.join else none) calls ++ ")") := by
  -- The induction is on the calls, over what was written before them.
  induction calls generalizing groups group text with
  | nil => simpa [following] using h
  | cons call rest ih =>
    rw [List.foldl_cons]
    cases call with
    | group join connector =>
      have hopened := @section?_snoc_of_isEmpty (groups ++ [group]) { join, connector } rfl
      exact ih (hopened.trans h)
    | predicate p =>
      have hadded := section?_add p h
      have hconnector : (group.add p).connector = group.connector := rfl
      rw [add_snoc] at hadded
      rw [addTo, add_snoc, ih hadded, if_neg (FilterGroup.predicates_add_ne_nil p), hconnector]
      by_cases hempty : group.predicates = []
      · simp only [if_pos hempty, following, String.append_assoc]
      · simp only [if_neg hempty, following, String.append_assoc]

/-- The connector of the group that a call adds to. -/
def connector (filter : Filter) : Connector :=
  (filter.groups.getLast?.map FilterGroup.connector).getD .and

/-- A filter is empty if all its groups are. -/
theorem isEmpty_snoc :
    (Filter.mk (groups ++ [group])).isEmpty ↔
      (Filter.mk groups).isEmpty ∧ group.predicates = [] := by
  simp [isEmpty]

/-- The first predicate of a filter is written behind WHERE. -/
theorem section?_add_of_isEmpty (h : filter.isEmpty) (p : Predicate) :
    ∃ groups group, filter.add p = ⟨groups ++ [group]⟩ ∧ group.predicates ≠ [] ∧
      group.connector = filter.connector ∧
      (filter.add p).section? = some ("WHERE (" ++ p.text ++ ")") := by
  -- Where there is no group yet, the predicate goes to one as it is unless told otherwise.
  obtain ⟨groups, last, hadd, hgroups, hlast, hconnector⟩ :
      ∃ (groups : List FilterGroup) (last : FilterGroup), filter.add p = ⟨groups ++ [last.add p]⟩ ∧
        (Filter.mk groups).isEmpty ∧ last.predicates = [] ∧
        last.connector = filter.connector := by
    obtain ⟨all⟩ := filter
    rcases List.eq_nil_or_concat all with rfl | ⟨groups, last, rfl⟩
    · exact ⟨[], {}, rfl, rfl, rfl, rfl⟩
    · rw [List.concat_eq_append] at h ⊢
      obtain ⟨hgroups, hlast⟩ := isEmpty_snoc.mp h
      exact ⟨groups, last, add_snoc p, hgroups, hlast, by simp [connector]⟩
  have hnone : (Filter.mk groups).section? = none := if_pos hgroups
  have hadded : (last.add p).predicates ≠ [] := FilterGroup.predicates_add_ne_nil p
  refine ⟨groups, last.add p, hadd, hadded, hconnector, ?_⟩
  rw [hadd, section?_snoc hadded, front, hnone, FilterGroup.text_add_of_isEmpty hlast]
  simp only [← String.append_assoc]
  rfl

/-- **The WHERE section that calls make.** -/
theorem section?_foldl {calls : List FilterCall} (h : filter.isEmpty) :
    (calls.foldl addTo filter).section? = whereText filter.connector calls := by
  -- The induction is on the calls up to the first predicate, from which on there is a text.
  induction calls generalizing filter with
  | nil => simp [section?, h, whereText]
  | cons call rest ih =>
    rw [List.foldl_cons]
    cases call with
    | group join connector =>
      have hopened : (filter.openGroup join connector).isEmpty := isEmpty_snoc.mpr ⟨h, rfl⟩
      have hconnector : (filter.openGroup join connector).connector = connector := by
        simp [Filter.connector, openGroup]
      rw [addTo, ih hopened, hconnector, whereText]
    | predicate p =>
      obtain ⟨groups, group, hadd, hnone, hconnector, hsection⟩ := section?_add_of_isEmpty h p
      rw [hadd] at hsection
      rw [addTo, hadd, section?_foldl_of_eq_some hsection, if_neg hnone, hconnector, whereText]

/-- Calls add their predicates, each once and in their order. -/
theorem predicates_foldl (calls : List FilterCall) (filter : Filter) :
    (calls.foldl addTo filter).predicates =
      filter.predicates ++ calls.filterMap FilterCall.predicate? := by
  induction calls generalizing filter with
  | nil => simp
  | cons call rest ih =>
    rw [List.foldl_cons, ih]
    cases call with
    | group join connector =>
      simp [addTo, openGroup, predicates, FilterCall.predicate?, List.filterMap_cons]
    | predicate p =>
      have hadd : (filter.add p).predicates = filter.predicates ++ [p] := by
        obtain ⟨all⟩ := filter
        rcases List.eq_nil_or_concat all with rfl | ⟨groups, last, rfl⟩
        · rfl
        · rw [List.concat_eq_append, add_snoc]
          simp [predicates, FilterGroup.add]
      simp [addTo, hadd, FilterCall.predicate?]

end Filter

/-! ## Steps on an open statement -/

/-- Whether a step adds to the filter of the open statement. -/
def Step.isFilter : Step → Bool
  | .whereCompare .. | .whereBetween .. | .whereId .. | .whereRaw _ | .openGroup .. => true
  | _ => false

/-- The call on the filter that a step makes. The values of a condition are given by the names that
they are bound to. -/
inductive Step.Makes (params : Bag) : Step → FilterCall → Prop
  | compare {left name : String} {comparison : Comparison} {value : Value} {negated : Bool}
      (hvalue : KeyedList.get? params name = some value) :
    Makes params (.whereCompare left comparison value negated)
      (.predicate ⟨.compare left comparison name, negated⟩)
  | between {expression floorName ceilingName : String} {floor ceiling : Value}
      (hfloor : KeyedList.get? params floorName = some floor)
      (hceiling : KeyedList.get? params ceilingName = some ceiling) :
    Makes params (.whereBetween expression floor ceiling)
      (.predicate ⟨.between expression floorName ceilingName, false⟩)
  | identity {var name : String} {identity : Identity}
      (hidentity : KeyedList.get? params name = some (.int identity)) :
    Makes params (.whereId var identity) (.predicate ⟨.identity var name, false⟩)
  | raw (text : String) : Makes params (.whereRaw text) (.predicate ⟨.raw text, false⟩)
  | group (join connector : Connector) :
    Makes params (.openGroup join connector) (.group join connector)

section

variable {draft : Draft} {s : Statement} {params others : Bag}

/-- A step makes the same call where its values stay bound. -/
theorem Step.Makes.mono {step : Step} {call : FilterCall} (h : step.Makes params call)
    (hkeeps : Keeps params others) : step.Makes others call := by
  cases h with
  | compare hvalue => exact .compare (hkeeps _ _ hvalue)
  | between hfloor hceiling => exact .between (hkeeps _ _ hfloor) (hkeeps _ _ hceiling)
  | identity hidentity => exact .identity (hkeeps _ _ hidentity)
  | raw text => exact .raw text
  | group join connector => exact .group join connector

/-- A step that adds to the filter can be taken on an open statement, and makes one call on its
filter. -/
theorem exists_step_of_isFilter {step : Step} (hstep : step.isFilter)
    (hcurrent : draft.current = some s) :
    ∃ after call, draft.step step = .ok after ∧ step.Makes after.params call ∧
      after.closed = draft.closed ∧
      after.current = some { s with filter := s.filter.addTo call } ∧
      Keeps draft.params after.params := by
  cases step with
  | whereCompare left comparison value negated =>
    obtain ⟨after, name, hafter, hclosed, hchanged, hkeeps, hvalue⟩ :=
      exists_modifyWith hcurrent ("where_" ++ left) value fun name =>
        Draft.addPredicate (.compare left comparison name) negated
    exact ⟨after, _, hafter, .compare hvalue, hclosed, hchanged, hkeeps⟩
  | whereBetween expression floor ceiling =>
    obtain ⟨hfloor, hkeeps⟩ := addParam_keeps draft ("where_" ++ expression ++ "_floor") floor
    obtain ⟨after, name, hafter, hclosed, hchanged, hkeeps', hceiling⟩ :=
      @exists_modifyWith (draft.addParam ("where_" ++ expression ++ "_floor") floor).2 s hcurrent
        ("where_" ++ expression ++ "_ceiling") ceiling fun ceilingName =>
          Draft.addPredicate (.between expression _ ceilingName) false
    refine ⟨after, _, ?_, .between (hkeeps' _ _ hfloor) hceiling, hclosed, hchanged,
      fun key value h => hkeeps' key value (hkeeps key value h)⟩
    rw [Draft.step, hcurrent]
    exact hafter
  | whereId var identity =>
    obtain ⟨after, name, hafter, hclosed, hchanged, hkeeps, hvalue⟩ :=
      exists_modifyWith hcurrent ("where_id_" ++ var) (.int identity) fun name =>
        Draft.addPredicate (.identity var name) false
    exact ⟨after, _, hafter, .identity hvalue, hclosed, hchanged, hkeeps⟩
  | whereRaw text =>
    refine ⟨{ draft with current := some (Draft.addPredicate (.raw text) false s) }, _, ?_,
      .raw text, rfl, rfl, fun _ _ h => h⟩
    simp [Draft.step, Draft.modify, hcurrent]
  | openGroup join connector =>
    refine ⟨{ draft with current := some { s with filter := s.filter.openGroup join connector } },
      _, ?_, .group join connector, rfl, rfl, fun _ _ h => h⟩
    simp [Draft.step, Draft.modify, hcurrent]
  | _ => cases hstep

/-- Steps that add to the filter can be taken one after the other, and make one call each. -/
theorem exists_run_of_isFilter {steps : List Step} (hsteps : ∀ step ∈ steps, step.isFilter)
    (hcurrent : draft.current = some s) :
    ∃ after calls, draft.run steps = .ok after ∧
      List.Forall₂ (Step.Makes after.params) steps calls ∧ after.closed = draft.closed ∧
      after.current = some { s with filter := calls.foldl Filter.addTo s.filter } ∧
      Keeps draft.params after.params := by
  induction steps generalizing draft s with
  | nil => exact ⟨draft, [], rfl, .nil, rfl, hcurrent, fun _ _ h => h⟩
  | cons step rest ih =>
    obtain ⟨hstep, hrest⟩ := List.forall_mem_cons.mp hsteps
    obtain ⟨mid, call, hmid, hcall, hclosed, hchanged, hkeeps⟩ :=
      exists_step_of_isFilter hstep hcurrent
    obtain ⟨after, calls, hrun, hcalls, hclosed', hchanged', hkeeps'⟩ := ih hrest hchanged
    exact ⟨after, call :: calls, run_cons_eq_ok hmid hrun, .cons (hcall.mono hkeeps') hcalls,
      hclosed'.trans hclosed, hchanged', fun key value h => hkeeps' key value (hkeeps key value h)⟩

/-- The WHERE section of a statement is its first. -/
theorem sections_filtered (hfilter : s.filter = {}) (filter : Filter) :
    Statement.sections { s with filter := filter } = filter.section?.toList ++ s.sections := by
  have hnone : s.filter.isEmpty = true := by
    rw [hfilter]
    rfl
  unfold Statement.sections Filter.section?
  cases hempty : filter.isEmpty <;> simp [hnone]

/-- **No filter is lost.** Steps that add to the filter of an open statement, which has none yet,
can be taken. They change its filter alone, which gets the predicates of all the calls that they
make, each once and in their order; and the section that these calls ask for stands behind its
pattern, exactly if one of them adds a predicate. -/
theorem filtered_statement {steps : List Step} (hsteps : ∀ step ∈ steps, step.isFilter)
    (hcurrent : draft.current = some s) (hfilter : s.filter = {}) :
    ∃ after calls filter, draft.run steps = .ok after ∧
      List.Forall₂ (Step.Makes after.params) steps calls ∧ after.closed = draft.closed ∧
      after.current = some { s with filter := filter } ∧
      filter.predicates = calls.filterMap FilterCall.predicate? ∧
      Statement.text { s with filter := filter } =
        joined "\n" (s.pattern :: ((whereText .and calls).toList ++ s.sections)) ∧
      (whereText .and calls = none ↔ calls.filterMap FilterCall.predicate? = []) := by
  obtain ⟨after, calls, hrun, hcalls, hclosed, hchanged, -⟩ :=
    exists_run_of_isFilter hsteps hcurrent
  refine ⟨after, calls, _, hrun, hcalls, hclosed, hchanged, ?_, ?_, whereText_eq_none_iff⟩
  · rw [Filter.predicates_foldl, hfilter]
    rfl
  · have hempty : s.filter.isEmpty := by
      rw [hfilter]
      rfl
    have hconnector : s.filter.connector = .and := by
      rw [hfilter]
      rfl
    rw [Statement.text, sections_filtered hfilter, Filter.section?_foldl hempty, hconnector]
    rfl

end

/-- A statement that finds people. -/
def peopleStatement : Statement where
  head := .paths .find
  paths := [⟨[.node { var := some "p", labels := ["Person"] }]⟩]

/-- Conditions on a person, with groups that are opened in front, behind, and twice in between. -/
def personConditions : List Step :=
  [.openGroup .or .xor, .whereCompare "p.age" .greaterEqual (.int 18) false,
    .whereId "p" 7, .openGroup .xor .and, .openGroup .or .and,
    .whereBetween "p.rank" (.int 1) (.int 3), .whereRaw "p.active", .openGroup .and .and]

/-- The conditions on a person are written in two groups. -/
theorem personConditions_filtered :
    (({ current := some peopleStatement } : Draft).run personConditions).map (·.query.text) =
      .ok ("MATCH (p:Person)\nWHERE (p.age >= $where_p_age XOR id(p) = $where_id_p) OR " ++
        "($where_p_rank_floor <= p.rank <= $where_p_rank_ceiling AND p.active)") ∧
    ∃ after calls filter,
      ({ current := some peopleStatement } : Draft).run personConditions = .ok after ∧
      List.Forall₂ (Step.Makes after.params) personConditions calls ∧ after.closed = [] ∧
      after.current = some { peopleStatement with filter := filter } ∧
      filter.predicates = calls.filterMap FilterCall.predicate? ∧
      Statement.text { peopleStatement with filter := filter } = joined "\n"
        (peopleStatement.pattern :: ((whereText .and calls).toList ++ peopleStatement.sections)) ∧
      (whereText .and calls = none ↔ calls.filterMap FilterCall.predicate? = []) :=
  ⟨by rfl, filtered_statement (by decide) rfl rfl⟩

end GraphMapper.Cypher

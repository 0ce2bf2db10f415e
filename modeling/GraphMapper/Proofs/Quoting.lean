import GraphMapper.Constraints
import GraphMapper.Proofs.Mapper.Expressions

/-!
# Names stay whole

A name that a caller or a schema chooses stands in a query as it is, or between backticks with its
own doubled. A reader of either form takes exactly what was written, if what follows could not
belong to a name, and gets the name back; so no two names are written alike (`quoteName_injective`).

In what is sent to a database, no label, type or key ends early or goes on into what stands behind
it. The text of every part has the lexemes that the part was written for, in which each of them is
one: expressions, the queries of drafts, those of all operations, and the commands that install a
schema (`names_stay_whole`).
-/

namespace GraphMapper

open Cypher

namespace Cypher

/-! ## The two forms of a name -/

/-- A name needs no quoting: it is not empty, has nothing but ASCII letters, digits and underscores,
and does not begin with a digit. -/
def PlainName (name : String) : Prop :=
  name ≠ "" ∧ (∀ c ∈ name.toList, c.isAlphanum ∨ c = '_') ∧ ∀ c ∈ name.toList.head?, ¬ c.isDigit

/-- The identifiers are the names that need no quoting. -/
theorem isIdentifier_iff {name : String} : isIdentifier name.toList ↔ PlainName name := by
  rw [PlainName, ne_eq, ← String.toList_eq_nil_iff]
  cases name.toList with
  | nil => simp [isIdentifier]
  | cons c rest =>
    simp only [isIdentifier, isIdentifierStart_iff, isIdentifierChar, Bool.and_eq_true,
      Bool.or_eq_true, decide_eq_true_eq, List.all_eq_true, List.forall_mem_cons, List.head?_cons,
      Option.mem_some_iff, forall_eq', reduceCtorEq, not_false_eq_true, true_and]
    tauto

/-- A name with its backticks doubled has two in the place of each. -/
theorem doubleBackticks_eq (name : List Char) :
    doubleBackticks name = name.flatMap fun c => if c = backtick then [c, c] else [c] := by
  induction name with
  | nil => rfl
  | cons c rest ih =>
    rw [doubleBackticks, List.flatMap_cons, ih]
    split <;> rfl

/-- A name is written as it is, or between backticks with its own doubled. -/
theorem quoteName_form (name : String) :
    (PlainName name → quoteName name = name) ∧
    (¬ PlainName name → (quoteName name).toList =
      backtick :: (name.toList.flatMap fun c => if c = backtick then [c, c] else [c])
        ++ [backtick]) := by
  rw [← isIdentifier_iff, ← doubleBackticks_eq, quoteName]
  constructor
  · intro h
    rw [if_pos h]
  · intro h
    rw [if_neg h, String.toList_ofList]
    rfl

/-- Names that are written alike are equal. -/
theorem quoteName_injective : Function.Injective quoteName := by
  intro name other h
  have hname := anyName_quoteName name ends_nil
  rw [h, anyName_quoteName other ends_nil] at hname
  cases hname
  rfl

end Cypher

/-! ## Commands -/

namespace Constraint

/-- The lexemes of the command that installs a constraint. -/
def installLexemes (c : Constraint) : List Lexeme :=
  let place := lexemesOf " IF NOT EXISTS FOR (n:" ++ [.name c.label] ++ lexemesOf ")"
  match c.kind with
  | .unique =>
    lexemesOf "CREATE CONSTRAINT " ++ lexemesOf c.name ++ place ++ lexemesOf " REQUIRE n."
      ++ [.name c.property] ++ lexemesOf " IS UNIQUE"
  | .exists =>
    lexemesOf "CREATE CONSTRAINT " ++ lexemesOf c.name ++ place ++ lexemesOf " REQUIRE n."
      ++ [.name c.property] ++ lexemesOf " IS NOT NULL"
  | .index =>
    lexemesOf "CREATE INDEX " ++ lexemesOf c.name ++ place ++ lexemesOf " ON (n."
      ++ [.name c.property] ++ lexemesOf ")"

/-- The command that installs a constraint is read as its lexemes. -/
theorem reads_installText (c : Constraint) : Reads c.installText c.installLexemes := by
  have hname : Standalone c.name :=
    standalone_of_not_mem (backtick_not_mem (isIdentifierChar_identifierPart _))
  have hlabel := (reads_quoteName c.label).opening " IF NOT EXISTS FOR (n:" (by decide)
  have hplace := hlabel.closing ")" (by decide)
  have hends : Cypher.Ends (" IF NOT EXISTS FOR (n:" ++ quoteName c.label ++ ")").toList := by
    rw [String.append_assoc]
    exact ends_append_of_isClosing (by decide) _
  have hproperty := reads_quoteName c.property
  unfold installText installLexemes
  cases c.kind with
  | unique =>
    exact (((hname.opening "CREATE CONSTRAINT " (by decide)).append hplace hends).between
      " REQUIRE n." (by decide) hproperty).closing " IS UNIQUE" (by decide)
  | «exists» =>
    exact (((hname.opening "CREATE CONSTRAINT " (by decide)).append hplace hends).between
      " REQUIRE n." (by decide) hproperty).closing " IS NOT NULL" (by decide)
  | index =>
    exact (((hname.opening "CREATE INDEX " (by decide)).append hplace hends).between
      " ON (n." (by decide) hproperty).closing ")" (by decide)

end Constraint

/-! ## What is sent -/

/-- **Names stay whole.** A name is written as it is if it needs no quoting, and between backticks
with its own doubled if it does. Read before whatever could not belong to a name, it is taken as it
was written and gives the name back, and so no two names are written alike. What is sent has the
lexemes that it was written for, in which every label, type and key is one: expressions and what
types are returned as, the queries of legible steps, such as those that set, filter and order by
properties, the queries of all operations, and the commands that install constraints. -/
theorem names_stay_whole :
    (∀ name, (PlainName name → quoteName name = name) ∧
      (¬ PlainName name → (quoteName name).toList =
        backtick :: (name.toList.flatMap fun c => if c = backtick then [c, c] else [c])
          ++ [backtick])) ∧
    (∀ name rest, Cypher.Ends rest →
      anyName ((quoteName name).toList ++ rest) = some (name, rest)) ∧
    Function.Injective quoteName ∧
    (∀ expression : Expression, expression.Legible →
      Reads expression.text expression.lexemes) ∧
    (∀ registry limit var model text, isIdentifier var.toList →
      Projection.returnExpression registry limit var model = .ok text →
      ∃ projection, Projection.ofModel registry (Projection.levels limit 1) var (some model) =
        .ok projection ∧ Reads text (projection.returnedLexemes var)) ∧
    (∀ var properties key order, isIdentifier var.toList →
      LegibleSteps (Step.setProperties var properties) ∧
      LegibleSteps (Step.createProperties var properties) ∧
      LegibleSteps (Step.whereProperties var properties) ∧
      LegibleSteps [.orderBy (Step.property var key) order]) ∧
    (∀ steps draft, LegibleSteps steps → Draft.run {} steps = .ok draft →
      lexemesOf draft.query.text = draft.lexemes) ∧
    (∀ (α σ : Type) (mapper : Mapper) (operation : Operation α) (supply : Supply)
      (db : Database σ) (state : σ), ∀ call ∈ (operation.endsOn mapper supply db state).calls,
      ∃ steps draft, ExpressionsOnly steps ∧ Draft.run {} steps = .ok draft ∧
        call = .run operation.access draft.query ∧
        lexemesOf draft.query.text = draft.lexemes) ∧
    (∀ c : Constraint, lexemesOf c.installText = c.installLexemes) := by
  refine ⟨quoteName_form, fun name rest hrest => anyName_quoteName name hrest, quoteName_injective,
    fun expression h => h.reads, ?_, ?_, ?_, ?_, fun c => c.reads_installText.lexemesOf_eq⟩
  · intro registry limit var model text hvar h
    obtain ⟨projection, hprojection, hlegible, rfl⟩ :=
      Projection.exists_projection_of_returnExpression hvar h
    exact ⟨projection, hprojection, Projection.reads_returned hlegible hvar⟩
  · intro var properties key order hvar
    have horder : ExpressionsOnly [.orderBy (Step.property var key) order] :=
      List.forall_mem_singleton.mpr (isExpression_property hvar key)
    exact ⟨(expressionsOnly_setProperties hvar properties).legible,
      (expressionsOnly_createProperties hvar properties).legible,
      (expressionsOnly_whereProperties hvar properties).legible, horder.legible⟩
  · intro steps draft hsteps hdraft
    exact lexemesOf_query hsteps hdraft
  · intro α σ mapper operation supply db state call hcall
    obtain ⟨query, rfl, steps, draft, hsteps, hdraft, rfl⟩ :=
      calls_ofExpressions mapper operation supply db state call hcall
    exact ⟨steps, draft, hsteps, hdraft, rfl, lexemesOf_query hsteps.legible hdraft⟩

/-- A type whose label and keys would end a query early, and write another behind it, if they were
not quoted. -/
def oddity : EntityType where
  name := "Oddity"
  labels := ["Odd) DETACH DELETE (n"]
  properties := [{ name := "k` = 1 //", type := .string, indexed := true }]
  relationships := []
  labels_ne_nil := by decide
  labels_ascending := by decide
  properties_nodup := by decide
  relationships_nodup := List.nodup_nil
  keys_disjoint := by decide
  primary_le_one := by decide

/-- The mapper of oddities. -/
def oddities : Mapper := ⟨⟨[oddity], by decide⟩, {}⟩

/-- A database that has nothing. -/
def nothing : Database Unit where
  run _ _ := pure (.ok [])
  begin := pure (.ok ())
  dispatch _ := pure []
  commit := pure (.ok ())
  rollback := pure (.ok ())

/-- The calls by which an oddity is looked for. -/
def oddityCalls : List LogEntry :=
  ((Operation.findBy "Oddity" "k` = 1 //" (.int 7)).endsOn oddities { uuids := fun _ => ⟨0⟩ }
    nothing ()).calls

/-- The text of the query that looks for an oddity. -/
def oddityText : String :=
  "MATCH (this:`Odd) DETACH DELETE (n`)\n" ++
  "WHERE (this.`k`` = 1 //` = $where_this__k_____1____)\n" ++
  "RETURN this \x7b .`k`` = 1 //`, __EAGER_ID__: id(this), __EAGER_LABELS__: labels(this) \x7d " ++
  "AS this\nLIMIT 1"

/-- Steps that merge an oddity and set one more value. -/
def odditySteps : List Step :=
  [.start .merge "n" oddity.labels [("k` = 1 //", .int 7)],
    .set (Step.property "n" "``") (.int 8)]

/-- The steps that merge an oddity write expressions alone. -/
theorem expressionsOnly_odditySteps : ExpressionsOnly odditySteps := by
  have hvar : isIdentifier "n".toList := by decide
  have hset := isExpression_property hvar "``" _ List.mem_cons_self
  simpa [odditySteps, ExpressionsOnly, Step.bare] using ⟨isExpression_var hvar, hset⟩

/-- The names of an oddity stay whole where it is merged, looked for and returned, and where its
index is installed. -/
theorem oddity_stays_whole :
    (PlainName "born_in" ∧ quoteName "born_in" = "born_in") ∧
    (¬ PlainName "a`" ∧ (quoteName "a`").toList = [backtick, 'a', backtick, backtick, backtick]) ∧
    (Cypher.Ends " = 1".toList ∧
      anyName ((quoteName "``").toList ++ " = 1".toList) = some ("``", " = 1".toList)) ∧
    Reads (Step.property "n" "``") [.name "n", .symbol '.', .name "``"] ∧
    (∃ text, Projection.returnExpression oddities.registry 0 "this" oddity = .ok text ∧
      ∃ projection, Reads text (Projection.returnedLexemes projection "this")) ∧
    LegibleSteps (Step.whereProperties "n" [("k` = 1 //", .int 7)]) ∧
    (∃ draft, Draft.run {} odditySteps = .ok draft ∧
      draft.query.text =
        "MERGE (n:`Odd) DETACH DELETE (n` \x7b `k`` = 1 //`: $n_k____1___ \x7d)\n" ++
        "SET n.`````` = $set_n_______" ∧
      lexemesOf draft.query.text = draft.lexemes) ∧
    (∃ draft : Draft, oddityCalls = [.run .read draft.query] ∧ draft.query.text = oddityText ∧
      lexemesOf draft.query.text = draft.lexemes) ∧
    ∀ c ∈ constraints oddities.registry false, lexemesOf c.installText = c.installLexemes := by
  obtain ⟨hform, hread, -, hexpression, hreturned, hproperties, hdraft, hcalls, hinstall⟩ :=
    names_stay_whole
  have hplain : PlainName "born_in" := isIdentifier_iff.mp (by decide)
  have hquoted : ¬ PlainName "a`" := fun h => absurd (isIdentifier_iff.mpr h) (by decide)
  have hends : Cypher.Ends " = 1".toList := ends_cons (by decide) _
  have hvar : isIdentifier "n".toList := by decide
  refine ⟨⟨hplain, (hform _).1 hplain⟩, ⟨hquoted, (hform _).2 hquoted⟩,
    ⟨hends, hread _ _ hends⟩, hexpression (.property "n" "``") hvar, ?_,
    (hproperties "n" _ "" .ascending hvar).2.2.1, ?_, ?_, fun c _ => hinstall c⟩
  · obtain ⟨projection, -, hreads⟩ := hreturned oddities.registry 0 "this" oddity _ (by decide) rfl
    exact ⟨_, rfl, projection, hreads⟩
  · exact ⟨_, rfl, by rfl, hdraft odditySteps _ expressionsOnly_odditySteps.legible rfl⟩
  · have hcall : ∃ query, oddityCalls = [.run .read query] ∧ query.text = oddityText :=
      ⟨_, rfl, by decide +kernel⟩
    obtain ⟨query, hcall, htext⟩ := hcall
    have hmem : .run .read query ∈ oddityCalls := hcall ▸ List.mem_cons_self
    obtain ⟨steps, draft, -, -, hsame, hreads⟩ := hcalls _ _ oddities _ _ nothing () _ hmem
    cases hsame
    exact ⟨draft, hcall, htext, hreads⟩

end GraphMapper

import Mathlib.Data.List.Nodup
import GraphMapper.Constraints
import GraphMapper.Proofs.Cypher.PathReader

/-!
# Which constraints are installed

A schema asks for a constraint wherever it declares a property unique, indexed or required (`Asks`).
What a statement installs or drops is read off its text (`readInstallation?`, `readRemoval?`), in
which label and property may be any strings. `installs_all_iff` says that everything that is asked
for is installed exactly if the names of constraints tell them apart, and that nothing is installed
twice, or under a name by which it is not dropped.

A name is made from label, property and kind, with an underscore between them and in the place of
every character that an identifier may not hold. Where labels are plain words and properties are
plain identifiers, the first underscore ends the label, and names tell constraints apart
(`namesApart_of_plainWords`). A label with an underscore may read like a label and the beginning of
a property; of two constraints with one name the second one is then missing
(`order_item_uninstalled`).
-/

namespace GraphMapper

open Calendar (Reader read_bind literal_cons)
open Cypher

/-- The declarations of a schema ask for a constraint: uniqueness for a unique property, an index
for any other indexed one, and existence for a required one, if the database has such
constraints. -/
inductive Asks (registry : Registry) (existence : Bool) : Constraint → Prop
  | unique {model : EntityType} {p : Property} (hmodel : model ∈ registry.models)
      (hp : p ∈ model.properties) (hunique : p.unique = true) :
    Asks registry existence ⟨.unique, schemaLabel model, p.name⟩
  | index {model : EntityType} {p : Property} (hmodel : model ∈ registry.models)
      (hp : p ∈ model.properties) (hindexed : p.indexed = true) (hunique : p.unique = false) :
    Asks registry existence ⟨.index, schemaLabel model, p.name⟩
  | exists {model : EntityType} {p : Property} (hmodel : model ∈ registry.models)
      (hp : p ∈ model.properties) (hrequired : p.required = true) (hexistence : existence = true) :
    Asks registry existence ⟨.exists, schemaLabel model, p.name⟩

/-- Constraints that a schema asks for have names of their own. -/
def NamesTellApart (registry : Registry) (existence : Bool) : Prop :=
  ∀ c c', Asks registry existence c → Asks registry existence c' → c.name = c'.name → c = c'

/-- The labels that carry constraints are of letters and digits, and the properties of letters,
digits and underscores. -/
def PlainWords (registry : Registry) : Prop :=
  ∀ model ∈ registry.models, (∀ c ∈ (schemaLabel model).toList, c.isAlphanum) ∧
    ∀ p ∈ model.properties, ∀ c ∈ p.name.toList, isIdentifierChar c

/-! ## Statements -/

/-- Reads the name of what a statement installs, and the label it is for. -/
def installedPlace : Reader (String × String) := do
  let name ← identifierRun
  word " IF NOT EXISTS FOR (n:".toList
  let label ← anyName
  word ")".toList
  return (name, label)

/-- Reads a statement that installs a constraint, or an index, under a name. -/
def installation : Reader (String × Constraint) := do
  match ← Cypher.optional (word "CREATE INDEX ".toList) with
  | some () =>
    let (name, label) ← installedPlace
    word " ON (n.".toList
    let property ← anyName
    word ")".toList
    return (name, ⟨.index, label, property⟩)
  | none =>
    word "CREATE CONSTRAINT ".toList
    let (name, label) ← installedPlace
    word " REQUIRE n.".toList
    let property ← anyName
    match ← Cypher.optional (word " IS UNIQUE".toList) with
    | some () => return (name, ⟨.unique, label, property⟩)
    | none =>
      word " IS NOT NULL".toList
      return (name, ⟨.exists, label, property⟩)

/-- Reads a statement that drops what has a name, and whether that is an index. -/
def removal : Reader (String × Bool) := do
  let index ← Cypher.optional (word "DROP INDEX ".toList)
  if index.isNone then word "DROP CONSTRAINT ".toList
  let name ← identifierRun
  word " IF EXISTS".toList
  return (name, index.isSome)

/-- The name and the constraint that a statement installs. -/
def readInstallation? (text : String) : Option (String × Constraint) :=
  match installation text.toList with
  | some (found, []) => some found
  | _ => none

/-- The name that a statement drops, and whether it is that of an index. -/
def readRemoval? (text : String) : Option (String × Bool) :=
  match removal text.toList with
  | some (found, []) => some found
  | _ => none

/-- One of the statements that install a schema installs a constraint under a name. -/
def Installs (registry : Registry) (existence : Bool) (name : String) (c : Constraint) : Prop :=
  ∃ query ∈ installQueries registry existence, readInstallation? query.text = some (name, c)

/-- One of the statements that drop a schema drops the constraint, or the index, of a name. -/
def Drops (registry : Registry) (existence : Bool) (name : String) (c : Constraint) : Prop :=
  ∃ query ∈ dropQueries registry existence,
    readRemoval? query.text = some (name, decide (c.kind = .index))

section Reading

variable {rest : List Char}

/-- The name of a constraint is read up to the blank behind it. -/
theorem identifierRun_name (c : Constraint) (hrest : Cypher.Ends rest) :
    identifierRun (c.name.toList ++ rest) = some (c.name, rest) := by
  have hchars : ∀ d ∈ c.name.toList, isIdentifierChar d := isIdentifierChar_identifierPart _
  rw [identifierRun_append hchars hrest, String.ofList_toList]

/-- The name of a constraint and its label are read. -/
theorem installedPlace_text (c : Constraint) (rest : List Char) :
    installedPlace (c.name.toList ++ (" IF NOT EXISTS FOR (n:".toList
      ++ ((quoteName c.label).toList ++ (")".toList ++ rest)))) =
        some ((c.name, c.label), rest) := by
  have hblank : Cypher.Ends (" IF NOT EXISTS FOR (n:".toList
      ++ ((quoteName c.label).toList ++ (")".toList ++ rest))) := ends_cons (by decide) _
  have hclosing : Cypher.Ends (")".toList ++ rest) := ends_cons (by decide) _
  rw [installedPlace, read_bind (identifierRun_name c hblank), read_bind (word_append _ _),
    read_bind (anyName_quoteName c.label hclosing), read_bind (word_append _ _)]
  rfl

/-- A word is not read where another character stands in it. -/
theorem word_eq_none {c d : Char} (h : d ≠ c) (front cs : List Char) :
    word (front ++ c :: cs) (front ++ d :: rest) = none := by
  induction front with
  | nil =>
    have hliteral : Calendar.literal c (d :: rest) = none := if_neg h
    simp only [List.nil_append, word, bind, StateT.bind, hliteral, Option.bind_none]
  | cons e front ih =>
    rw [List.cons_append, List.cons_append, word, read_bind (literal_cons e _), ih]

/-- What the statement of a constraint installs is that constraint, under its name. -/
theorem readInstallation?_installText (c : Constraint) :
    readInstallation? c.installText = some (c.name, c) := by
  -- The statements of constraints and indexes part at the second word, and those of the two kinds
  -- of constraints at the last but one.
  have hconstraint (rest : List Char) : Cypher.optional (word "CREATE INDEX ".toList)
      ("CREATE CONSTRAINT ".toList ++ rest) = some (none, "CREATE CONSTRAINT ".toList ++ rest) :=
    optional_of_none (word_eq_none (by decide) "CREATE ".toList "NDEX ".toList)
  have hexists : Cypher.optional (word " IS UNIQUE".toList) " IS NOT NULL".toList =
      some (none, " IS NOT NULL".toList) :=
    optional_of_none (word_eq_none (by decide) " IS ".toList "NIQUE".toList)
  have hread : installation c.installText.toList = some ((c.name, c), []) := by
    obtain ⟨kind, label, property⟩ := c
    have hplace := installedPlace_text ⟨kind, label, property⟩
    cases kind with
    | unique =>
      have hend : Cypher.Ends " IS UNIQUE".toList := ends_cons (by decide) _
      simp only [Constraint.installText, String.toList_append, List.append_assoc]
      rw [installation, read_bind (hconstraint _)]
      dsimp only
      rw [read_bind (word_append _ _), read_bind (hplace _)]
      dsimp only
      rw [read_bind (word_append _ _), read_bind (anyName_quoteName property hend),
        read_bind (optional_of_some (List.append_nil " IS UNIQUE".toList ▸ word_append _ []))]
      rfl
    | «exists» =>
      have hend : Cypher.Ends " IS NOT NULL".toList := ends_cons (by decide) _
      simp only [Constraint.installText, String.toList_append, List.append_assoc]
      rw [installation, read_bind (hconstraint _)]
      dsimp only
      rw [read_bind (word_append _ _), read_bind (hplace _)]
      dsimp only
      rw [read_bind (word_append _ _), read_bind (anyName_quoteName property hend),
        read_bind hexists]
      dsimp only
      rw [read_bind (List.append_nil " IS NOT NULL".toList ▸ word_append _ [])]
      rfl
    | index =>
      have hend : Cypher.Ends ")".toList := ends_cons (by decide) _
      simp only [Constraint.installText, String.toList_append, List.append_assoc]
      rw [installation, read_bind (optional_of_some (word_append _ _))]
      dsimp only
      rw [read_bind (hplace _)]
      dsimp only
      rw [read_bind (word_append _ _), read_bind (anyName_quoteName property hend),
        read_bind (List.append_nil ")".toList ▸ word_append _ [])]
      rfl
  rw [readInstallation?, hread]

/-- What the statement of a constraint drops has its name. -/
theorem readRemoval?_dropText (c : Constraint) :
    readRemoval? c.dropText = some (c.name, decide (c.kind = .index)) := by
  have hconstraint (rest : List Char) : Cypher.optional (word "DROP INDEX ".toList)
      ("DROP CONSTRAINT ".toList ++ rest) = some (none, "DROP CONSTRAINT ".toList ++ rest) :=
    optional_of_none (word_eq_none (by decide) "DROP ".toList "NDEX ".toList)
  have hend : Cypher.Ends " IF EXISTS".toList := ends_cons (by decide) _
  have hlast : word " IF EXISTS".toList " IF EXISTS".toList = some ((), []) :=
    List.append_nil " IF EXISTS".toList ▸ word_append _ []
  have hread : removal c.dropText.toList = some ((c.name, decide (c.kind = .index)), []) := by
    cases hkind : c.kind with
    | unique | «exists» =>
      simp only [Constraint.dropText, hkind, String.toList_append, List.append_assoc]
      rw [removal, read_bind (hconstraint _)]
      dsimp only [Option.isNone]
      rw [if_pos rfl, read_bind (word_append _ _), read_bind (identifierRun_name c hend),
        read_bind hlast]
      rfl
    | index =>
      simp only [Constraint.dropText, hkind, String.toList_append, List.append_assoc]
      rw [removal, read_bind (optional_of_some (word_append _ _))]
      dsimp only [Option.isNone]
      rw [if_neg (by decide), read_bind (identifierRun_name c hend), read_bind hlast]
      rfl
  rw [readRemoval?, hread]

end Reading

/-! ## Constraints that are kept -/

section Kept

variable {kept requested : List Constraint} {c : Constraint}

/-- A constraint that is added is kept under its name, or one of that name was kept before. -/
theorem mem_names_addConstraint {name : String} :
    name ∈ (addConstraint kept c).map Constraint.name ↔
      name ∈ kept.map Constraint.name ∨ name = c.name := by
  unfold addConstraint
  split
  · next hany =>
    obtain ⟨other, hother, hname⟩ := List.any_eq_true.mp hany
    have hthere : c.name ∈ kept.map Constraint.name :=
      List.mem_map.mpr ⟨other, hother, of_decide_eq_true hname⟩
    exact ⟨.inl, fun h => h.elim id fun hc => hc ▸ hthere⟩
  · rw [List.map_append, List.mem_append, List.map_singleton, List.mem_singleton]

/-- Constraints are kept under distinct names. -/
theorem addConstraint_nodup (h : (kept.map Constraint.name).Nodup) (c : Constraint) :
    ((addConstraint kept c).map Constraint.name).Nodup := by
  unfold addConstraint
  split
  · exact h
  · next hany =>
    rw [List.map_append, List.map_singleton]
    refine List.nodup_append.mpr ⟨h, List.nodup_singleton _, ?_⟩
    rintro name hname _ hc rfl
    obtain ⟨other, hother, hsame⟩ := List.mem_map.mp hname
    refine hany (List.any_eq_true.mpr ⟨other, hother, decide_eq_true ?_⟩)
    rw [hsame, List.mem_singleton.mp hc]

/-- What is kept was kept before or is requested. -/
theorem mem_of_mem_foldl_addConstraint (h : c ∈ requested.foldl addConstraint kept) :
    c ∈ kept ∨ c ∈ requested := by
  induction requested generalizing kept with
  | nil => exact .inl h
  | cons head rest ih =>
    rcases ih h with hkept | hrest
    · unfold addConstraint at hkept
      split at hkept
      · exact .inl hkept
      · rcases List.mem_append.mp hkept with hkept | hhead
        · exact .inl hkept
        · exact .inr (List.mem_singleton.mp hhead ▸ List.mem_cons_self)
    · exact .inr (List.mem_cons_of_mem head hrest)

/-- The names of what is kept are those that were kept before and those that are requested. -/
theorem mem_names_foldl_addConstraint {name : String} :
    name ∈ (requested.foldl addConstraint kept).map Constraint.name ↔
      name ∈ kept.map Constraint.name ∨ name ∈ requested.map Constraint.name := by
  induction requested generalizing kept with
  | nil => simp
  | cons head rest ih =>
    rw [List.foldl_cons, ih, mem_names_addConstraint, List.map_cons, List.mem_cons, or_assoc]

/-- Constraints that are added one after the other are kept under distinct names. -/
theorem foldl_addConstraint_nodup (h : (kept.map Constraint.name).Nodup)
    (requested : List Constraint) :
    ((requested.foldl addConstraint kept).map Constraint.name).Nodup := by
  induction requested generalizing kept with
  | nil => exact h
  | cons head rest ih => exact ih (addConstraint_nodup h head)

end Kept

section Schema

variable {registry : Registry} {existence : Bool} {name : String} {c : Constraint}

/-- The constraints that a schema requests are those that its declarations ask for. -/
theorem mem_requestedConstraints :
    c ∈ requestedConstraints registry existence ↔ Asks registry existence c := by
  simp only [requestedConstraints, propertyConstraints, List.mem_flatMap, List.mem_append]
  constructor
  · rintro ⟨model, hmodel, p, hp, hc | hc⟩
    · split at hc
      · next hunique => exact List.mem_singleton.mp hc ▸ .unique hmodel hp hunique
      · next hunique =>
        split at hc
        · next hindexed =>
          exact List.mem_singleton.mp hc ▸ .index hmodel hp hindexed (by simpa using hunique)
        · cases hc
    · split at hc
      · next hrequired =>
        rw [Bool.and_eq_true] at hrequired
        exact List.mem_singleton.mp hc ▸ .exists hmodel hp hrequired.2 hrequired.1
      · cases hc
  · rintro (⟨hmodel, hp, hunique⟩ | ⟨hmodel, hp, hindexed, hunique⟩ |
      ⟨hmodel, hp, hrequired, hexistence⟩)
    · exact ⟨_, hmodel, _, hp, .inl (by simp [hunique])⟩
    · exact ⟨_, hmodel, _, hp, .inl (by simp [hindexed, hunique])⟩
    · exact ⟨_, hmodel, _, hp, .inr (by simp [hrequired, hexistence])⟩

/-- What is installed is a constraint of the schema, under its own name. -/
theorem installs_iff :
    Installs registry existence name c ↔ c ∈ constraints registry existence ∧ name = c.name := by
  simp only [Installs, installQueries, List.mem_map]
  constructor
  · rintro ⟨_, ⟨other, hother, rfl⟩, hread⟩
    rw [readInstallation?_installText] at hread
    cases hread
    exact ⟨hother, rfl⟩
  · rintro ⟨hc, rfl⟩
    exact ⟨_, ⟨c, hc, rfl⟩, readInstallation?_installText c⟩

/-- The constraints of a schema have distinct names. -/
theorem names_constraints_nodup (registry : Registry) (existence : Bool) :
    ((constraints registry existence).map Constraint.name).Nodup :=
  foldl_addConstraint_nodup (by simp) _

/-- A constraint of a schema is one that it asks for. -/
theorem asks_of_mem_constraints (h : c ∈ constraints registry existence) :
    Asks registry existence c :=
  mem_requestedConstraints.mp
    ((mem_of_mem_foldl_addConstraint h).resolve_left (List.not_mem_nil))

/-- For whatever a schema asks for it has a constraint of the same name. -/
theorem exists_constraint_of_asks (h : Asks registry existence c) :
    ∃ other ∈ constraints registry existence, other.name = c.name := by
  have hname : c.name ∈ (constraints registry existence).map Constraint.name :=
    mem_names_foldl_addConstraint.mpr
      (.inr (List.mem_map_of_mem (mem_requestedConstraints.mpr h)))
  exact List.mem_map.mp hname

/-- Every constraint that a schema asks for is installed exactly if their names tell them apart. -/
theorem installed_iff_namesApart :
    (∀ c, Asks registry existence c → ∃ name, Installs registry existence name c) ↔
      NamesTellApart registry existence := by
  constructor
  · intro h c c' hc hc' hname
    obtain ⟨_, hinstalls⟩ := h c hc
    obtain ⟨_, hinstalls'⟩ := h c' hc'
    exact List.inj_on_of_nodup_map (names_constraints_nodup registry existence)
      (installs_iff.mp hinstalls).1 (installs_iff.mp hinstalls').1 hname
  · intro h c hc
    obtain ⟨other, hother, hname⟩ := exists_constraint_of_asks hc
    obtain rfl := h other c (asks_of_mem_constraints hother) hc hname
    exact ⟨other.name, installs_iff.mpr ⟨hother, rfl⟩⟩

/-- The statements that install a schema are distinct. -/
theorem installQueries_nodup :
    ((installQueries registry existence).map Cypher.Query.text).Nodup := by
  have hinjective : Function.Injective Constraint.installText := by
    intro c c' htext
    have hread := congrArg readInstallation? htext
    rw [readInstallation?_installText, readInstallation?_installText, Option.some.injEq] at hread
    exact congrArg Prod.snd hread
  rw [installQueries, List.map_map]
  exact (names_constraints_nodup registry existence).of_map.map hinjective

/-- What a schema installs is dropped by its name. -/
theorem drops_of_installs (h : Installs registry existence name c) :
    Drops registry existence name c := by
  obtain ⟨hc, rfl⟩ := installs_iff.mp h
  exact ⟨_, List.mem_map_of_mem hc, readRemoval?_dropText c⟩

end Schema

/-! ## Names -/

/-- An identifier is its own part of one. -/
theorem identifierPart_eq_self {name : String} (h : ∀ c ∈ name.toList, isIdentifierChar c) :
    identifierPart name = name := by
  have hchars : name.toList.map (fun c => if c.isAlphanum then c else '_') = name.toList := by
    refine (List.map_congr_left fun c hc => ?_).trans (List.map_id _)
    have hchar := h c hc
    simp only [isIdentifierChar, Bool.or_eq_true, decide_eq_true_eq] at hchar
    split
    · rfl
    · next hnot => exact (hchar.resolve_left hnot).symm
  rw [identifierPart, hchars, String.ofList_toList]

/-- The name of a constraint whose label and property are identifiers has both as they are. -/
theorem name_of_plain {c : Constraint} (hlabel : ∀ d ∈ c.label.toList, d.isAlphanum)
    (hproperty : ∀ d ∈ c.property.toList, isIdentifierChar d) :
    c.name.toList = c.label.toList ++ '_' :: (c.property.toList ++ '_' :: c.kind.word.toList) := by
  have htext : (c.label ++ "_" ++ c.property ++ "_" ++ c.kind.word).toList =
      c.label.toList ++ '_' :: (c.property.toList ++ '_' :: c.kind.word.toList) := by
    simp [String.toList_append]
  rw [Constraint.name, identifierPart_eq_self, htext]
  intro d hd
  rw [htext] at hd
  have hkind : ∀ d ∈ c.kind.word.toList, isIdentifierChar d := by
    cases c.kind <;> exact List.all_eq_true.mp rfl
  simp only [List.mem_append, List.mem_cons] at hd
  rcases hd with hd | rfl | hd | rfl | hd
  · simp [isIdentifierChar, hlabel d hd]
  · decide
  · exact hproperty d hd
  · decide
  · exact hkind d hd

/-- Constraints with plain words for labels and plain identifiers for properties have names that
tell them apart: the first underscore ends the label, and the kinds end in different characters. -/
theorem eq_of_name_of_plain {c c' : Constraint} (hlabel : ∀ d ∈ c.label.toList, d.isAlphanum)
    (hlabel' : ∀ d ∈ c'.label.toList, d.isAlphanum)
    (hproperty : ∀ d ∈ c.property.toList, isIdentifierChar d)
    (hproperty' : ∀ d ∈ c'.property.toList, isIdentifierChar d) (hname : c.name = c'.name) :
    c = c' := by
  obtain ⟨kind, label, property⟩ := c
  obtain ⟨kind', label', property'⟩ := c'
  have hchars := congrArg String.toList hname
  rw [name_of_plain hlabel hproperty, name_of_plain hlabel' hproperty'] at hchars
  have hfront := congrArg (List.takeWhile Char.isAlphanum) hchars
  rw [List.takeWhile_append_of_pos hlabel, List.takeWhile_append_of_pos hlabel'] at hfront
  have hlabels : label = label' := by
    have hunderscore : Char.isAlphanum '_' = false := rfl
    simpa [List.takeWhile_cons, hunderscore, String.toList_inj] using hfront
  subst hlabels
  have hrest : property.toList ++ '_' :: kind.word.toList =
      property'.toList ++ '_' :: kind'.word.toList := by
    simpa using hchars
  have hkinds : kind = kind' := by
    have hlast := congrArg List.getLast? hrest
    cases kind <;> cases kind' <;> first | rfl | simp [ConstraintKind.word] at hlast
  subst hkinds
  simpa [String.toList_inj] using hrest

/-- Where labels are plain words and properties plain identifiers, names tell constraints apart. -/
theorem namesApart_of_plainWords {registry : Registry} {existence : Bool}
    (h : PlainWords registry) : NamesTellApart registry existence := by
  have hplain : ∀ c, Asks registry existence c → (∀ d ∈ c.label.toList, d.isAlphanum) ∧
      ∀ d ∈ c.property.toList, isIdentifierChar d := by
    rintro _ (⟨hmodel, hp, -⟩ | ⟨hmodel, hp, -, -⟩ | ⟨hmodel, hp, -, -⟩)
    all_goals exact ⟨(h _ hmodel).1, (h _ hmodel).2 _ hp⟩
  intro c c' hc hc' hname
  exact eq_of_name_of_plain (hplain c hc).1 (hplain c' hc').1 (hplain c hc).2 (hplain c' hc').2
    hname

/-- When the installation of a schema is complete. It installs all that the declarations ask for
exactly if the names of constraints tell these apart, as they do where labels are plain words and
properties plain identifiers. In any case it installs nothing else, each constraint under one name
and each name once, no statement occurs twice, and all that is installed is dropped by its name. -/
theorem installs_all_iff (registry : Registry) (existence : Bool) :
    ((∀ c, Asks registry existence c → ∃ name, Installs registry existence name c) ↔
      NamesTellApart registry existence) ∧
    (PlainWords registry → NamesTellApart registry existence) ∧
    ((installQueries registry existence).map Cypher.Query.text).Nodup ∧
    (∀ name name' c c', Installs registry existence name c → Installs registry existence name' c' →
      (name = name' ↔ c = c')) ∧
    ∀ name c, Installs registry existence name c →
      Asks registry existence c ∧ Drops registry existence name c := by
  refine ⟨installed_iff_namesApart, namesApart_of_plainWords, installQueries_nodup, ?_, ?_⟩
  · intro name name' c c' hinstalls hinstalls'
    obtain ⟨hc, rfl⟩ := installs_iff.mp hinstalls
    obtain ⟨hc', rfl⟩ := installs_iff.mp hinstalls'
    exact ⟨List.inj_on_of_nodup_map (names_constraints_nodup registry existence) hc hc',
      congrArg Constraint.name⟩
  · intro name c hinstalls
    exact ⟨asks_of_mem_constraints (installs_iff.mp hinstalls).1, drops_of_installs hinstalls⟩

/-- A type of nodes with one property, which is unique, by the names of both. -/
def keyedType (place : String × String) : EntityType where
  name := place.1
  labels := [place.1]
  properties := [{ name := place.2, type := .string, unique := true }]
  relationships := []
  labels_ne_nil := by simp
  labels_ascending := by simp
  properties_nodup := by simp
  relationships_nodup := List.nodup_nil
  keys_disjoint := by simp
  primary_le_one := by simp

/-- Orders, which know the number of their first item, and the items under a name. -/
def orders (items : String) (hitems : items ≠ "Order") : Registry :=
  ⟨[keyedType ("Order", "item_id"), keyedType (items, "id")], by
    simpa [keyedType] using hitems.symm⟩

/-- Names of types without underscores tell orders and items apart, and the numbers of both are
unique in the database. -/
theorem order_items_installed :
    PlainWords (orders "OrderItem" (by decide)) ∧
    ∀ c, Asks (orders "OrderItem" (by decide)) false c →
      ∃ name, Installs (orders "OrderItem" (by decide)) false name c := by
  have hplain : PlainWords (orders "OrderItem" (by decide)) := by
    intro model hmodel
    simp only [orders, List.mem_cons, List.not_mem_nil, or_false] at hmodel
    rcases hmodel with rfl | rfl
    all_goals
      refine ⟨List.all_eq_true.mp rfl, ?_⟩
      simp only [keyedType, List.mem_singleton, forall_eq]
      exact List.all_eq_true.mp rfl
  obtain ⟨hiff, hapart, -⟩ := installs_all_iff (orders "OrderItem" (by decide)) false
  exact ⟨hplain, hiff.mpr (hapart hplain)⟩

/-- With a name of the items that reads like that of orders and the beginning of a property, the
second of two unique properties gets no constraint. -/
theorem order_item_uninstalled :
    Asks (orders "Order_item" (by decide)) false ⟨.unique, "Order_item", "id"⟩ ∧
    (installQueries (orders "Order_item" (by decide)) false).map Cypher.Query.text =
      ["CREATE CONSTRAINT Order_item_id_unique IF NOT EXISTS FOR (n:Order)"
        ++ " REQUIRE n.item_id IS UNIQUE"] ∧
    ¬∃ name, Installs (orders "Order_item" (by decide)) false name
      ⟨.unique, "Order_item", "id"⟩ := by
  have hkept : constraints (orders "Order_item" (by decide)) false =
      [⟨.unique, "Order", "item_id"⟩] := by decide
  have hmodel : keyedType ("Order_item", "id") ∈ (orders "Order_item" (by decide)).models :=
    List.mem_cons_of_mem _ List.mem_cons_self
  refine ⟨.unique hmodel List.mem_cons_self rfl, by rw [installQueries, hkept]; decide, ?_⟩
  rintro ⟨name, hinstalls⟩
  obtain ⟨hc, -⟩ := installs_iff.mp hinstalls
  rw [hkept] at hc
  exact absurd hc (by decide)

end GraphMapper

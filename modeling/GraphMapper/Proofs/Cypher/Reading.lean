import GraphMapper.Cypher.Statement
import GraphMapper.Proofs.Cypher.Lexemes

/-!
# The lexemes of a statement

Every part of a statement has its lexemes: those of what it is made of, with those of the fixed
texts between. A label, a relationship type and a property key of a pattern are one lexeme each,
whatever strings they are. What is written as it is given (`bare`), variables, names of parameters,
expressions and texts of the caller's, has the lexemes that it has on its own.

A statement is read as its lexemes if it is `Legible`: what is written as it is given must not run
into what stands around it, as a text with one backtick would. `Statement.Legible.reads` is put
together from one lemma for each kind of part.
-/

namespace GraphMapper.Cypher

open Text (joined)

/-! ## Paths -/

/-- The lexemes of a property and its parameter. -/
def PropertyPair.lexemes (pair : PropertyPair) : List Lexeme :=
  [.name pair.key] ++ lexemesOf ": $" ++ lexemesOf pair.param

/-- The lexemes of the properties of a node with what encloses them. -/
def propertiesLexemes (properties : List PropertyPair) : List Lexeme :=
  if properties = [] then []
  else lexemesOf " \x7b " ++ (lexemesOf ", ").intercalate (properties.map PropertyPair.lexemes)
    ++ lexemesOf " \x7d"

/-- The lexemes of labels, each behind its colon. -/
def labelsLexemes (labels : List String) : List Lexeme :=
  (labels.map fun label => lexemesOf ":" ++ [.name label]).flatten

/-- The lexemes of a node pattern. -/
def NodePattern.lexemes (node : NodePattern) : List Lexeme :=
  lexemesOf "(" ++ lexemesOf (node.var.getD "") ++ labelsLexemes node.labels
    ++ propertiesLexemes node.properties ++ lexemesOf ")"

/-- The lexemes of the types of a relationship. -/
def typesLexemes : List String → List Lexeme
  | [] => []
  | types => lexemesOf ":" ++ (lexemesOf "|").intercalate (types.map fun type => [.name type])

/-- The lexemes of what stands between the dashes of a relationship. -/
def detailLexemes (rel : RelationshipPattern) : List Lexeme :=
  if rel.var = none ∧ rel.types = [] ∧ rel.hops = none then []
  else lexemesOf "[" ++ lexemesOf (rel.var.getD "") ++ typesLexemes rel.types
    ++ lexemesOf ((rel.hops.map Hops.text).getD "") ++ lexemesOf "]"

/-- The lexemes of a relationship pattern. -/
def RelationshipPattern.lexemes (rel : RelationshipPattern) : List Lexeme :=
  lexemesOf ((if rel.direction = .incoming then "<" else "") ++ "-") ++ detailLexemes rel
    ++ lexemesOf "-" ++ lexemesOf (if rel.direction = .outgoing then ">" else "")

/-- The lexemes of a node or a relationship. -/
def PathElement.lexemes : PathElement → List Lexeme
  | .node pattern => pattern.lexemes
  | .relationship pattern => pattern.lexemes

/-- The lexemes of a path. -/
def Path.lexemes (path : Path) : List Lexeme :=
  (path.elements.map PathElement.lexemes).flatten

/-- What is written in an element as it is given: the variable and the names of parameters. -/
def PathElement.bare : PathElement → List String
  | .node pattern => pattern.var.toList ++ pattern.properties.map PropertyPair.param
  | .relationship pattern => pattern.var.toList

/-- What is written in a path as it is given. -/
def Path.bare (path : Path) : List String :=
  path.elements.flatMap PathElement.bare

/-- A property and its parameter are read. -/
theorem PropertyPair.reads (pair : PropertyPair) (h : Standalone pair.param) :
    Reads pair.text pair.lexemes :=
  (reads_quoteName pair.key).between ": $" (by decide) h

/-- Properties are read, behind whatever name. -/
theorem reads_propertiesText (properties : List PropertyPair)
    (h : ∀ pair ∈ properties, Standalone pair.param) :
    Reads (propertiesText properties) (propertiesLexemes properties) ∧
      Ends (propertiesText properties).toList := by
  unfold propertiesText propertiesLexemes
  split
  · exact ⟨reads_empty, ends_nil⟩
  · have hpairs := reads_map properties fun pair hpair => pair.reads (h pair hpair)
    have hrow := (reads_joined ", " (by decide) hpairs).opening " \x7b " (by decide)
    refine ⟨hrow.closing " \x7d" (by decide), ?_⟩
    rw [String.append_assoc]
    exact ends_append_of_isClosing (by decide) _

/-- Labels are read, behind whatever name. -/
theorem reads_labels (labels : List String) :
    Reads (String.join (labels.map fun label => ":" ++ quoteName label)) (labelsLexemes labels) ∧
      Ends (String.join (labels.map fun label => ":" ++ quoteName label)).toList := by
  refine reads_join (reads_map labels fun label _ =>
    (reads_quoteName label).opening ":" (by decide)) fun text htext => ?_
  obtain ⟨label, -, rfl⟩ := List.mem_map.mp htext
  exact ends_append_of_isClosing (by decide) _

/-- A variable that may be missing is read. -/
theorem standalone_getD {var : Option String} (h : ∀ text ∈ var.toList, Standalone text) :
    Standalone (var.getD "") := by
  cases var with
  | none => exact reads_empty.standalone
  | some var => exact h var (by simp)

/-- A node pattern is read. -/
theorem NodePattern.reads {node : NodePattern}
    (h : ∀ text ∈ (PathElement.node node).bare, Standalone text) :
    Reads node.text node.lexemes := by
  obtain ⟨hvar, hparams⟩ := List.forall_mem_append.mp h
  obtain ⟨hlabels, hlabelsEnd⟩ := reads_labels node.labels
  obtain ⟨hproperties, hpropertiesEnd⟩ :=
    reads_propertiesText node.properties (List.forall_mem_map.mp hparams)
  have hfront := ((standalone_getD hvar).opening "(" (by decide)).append hlabels hlabelsEnd
  exact (hfront.append hproperties hpropertiesEnd).closing ")" (by decide)

/-- The types of a relationship are read, behind whatever name. -/
theorem reads_typesText (types : List String) :
    Reads (typesText types) (typesLexemes types) ∧ Ends (typesText types).toList := by
  cases types with
  | nil => exact ⟨reads_empty, ends_nil⟩
  | cons type more =>
    have hrow := reads_joined "|" (by decide)
      (reads_map (type :: more) fun type _ => reads_quoteName type)
    rw [typesText, typesLexemes]
    · exact ⟨hrow.opening ":" (by decide), ends_append_of_isClosing (by decide) _⟩
    · simp
    · simp

/-- The length of a relationship is read, behind whatever name. -/
theorem standalone_hops (length : Option Hops) :
    Standalone ((length.map Hops.text).getD "") ∧
      Ends ((length.map Hops.text).getD "").toList := by
  cases length with
  | none => exact ⟨reads_empty.standalone, ends_nil⟩
  | some length =>
    have hbound (bound : Option Nat) : backtick ∉ (boundText bound).toList := by
      cases bound with
      | none => decide
      | some n => exact backtick_not_mem (isIdentifierChar_toString n)
    have hdots : backtick ∉ "..".toList := by decide
    have hmax : backtick ∉
        (if length.min = length.max then "" else ".." ++ boundText length.max).toList := by
      split
      · decide
      · rw [String.toList_append, List.mem_append, not_or]
        exact ⟨hdots, hbound length.max⟩
    simp only [Option.map_some, Option.getD_some, Hops.text_eq]
    refine ⟨standalone_of_not_mem ?_, ?_⟩
    · simp only [String.toList_append, List.mem_append, not_or]
      exact ⟨⟨by decide, hbound length.min⟩, hmax⟩
    · rw [String.append_assoc]
      exact ends_append_of_isClosing (by decide) _

/-- What stands between the dashes of a relationship is read, between whatever. -/
theorem reads_detailText {rel : RelationshipPattern}
    (h : ∀ text ∈ rel.var.toList, Standalone text) :
    Reads (detailText rel) (detailLexemes rel) ∧ Ends (detailText rel).toList := by
  obtain ⟨htypes, htypesEnd⟩ := reads_typesText rel.types
  obtain ⟨hhops, hhopsEnd⟩ := standalone_hops rel.hops
  unfold detailText detailLexemes
  split
  · exact ⟨reads_empty, ends_nil⟩
  · have hfront := ((standalone_getD h).opening "[" (by decide)).append htypes htypesEnd
    refine ⟨(hfront.append hhops hhopsEnd).closing "]" (by decide), ?_⟩
    simp only [String.append_assoc]
    exact ends_append_of_isClosing (by decide) _

/-- A relationship pattern is read. -/
theorem RelationshipPattern.reads {rel : RelationshipPattern}
    (h : ∀ text ∈ rel.var.toList, Standalone text) : Reads rel.text rel.lexemes := by
  obtain ⟨hdetail, hdetailEnd⟩ := reads_detailText h
  have hleft : isOpening ((if rel.direction = .incoming then "<" else "") ++ "-").toList := by
    split <;> decide
  have hright : Standalone (if rel.direction = .outgoing then ">" else "") ∧
      Ends (if rel.direction = .outgoing then ">" else "").toList := by
    split
    · exact ⟨standalone_of_not_mem (by decide), ends_cons (by decide) _⟩
    · exact ⟨reads_empty.standalone, ends_nil⟩
  exact ((hdetail.opening _ hleft).closing "-" (by decide)).append hright.1 hright.2

/-- A node or a relationship is read, behind whatever name. -/
theorem PathElement.reads {element : PathElement}
    (h : ∀ text ∈ element.bare, Standalone text) :
    Reads element.text element.lexemes ∧ Ends element.text.toList := by
  have hhead := element.head?_text []
  rw [List.append_nil] at hhead
  constructor
  · cases element with
    | node pattern => exact NodePattern.reads h
    | relationship pattern => exact RelationshipPattern.reads h
  · -- The first character of an element belongs to no name.
    intro c hc
    rw [hhead] at hc
    cases hc
    cases element with
    | node =>
      rw [PathElement.opening]
      decide
    | relationship pattern =>
      rw [PathElement.opening]
      split <;> decide

/-- A path is read. -/
theorem Path.reads {path : Path} (h : ∀ text ∈ path.bare, Standalone text) :
    Reads path.text path.lexemes := by
  have helements : ∀ element ∈ path.elements,
      Reads element.text element.lexemes ∧ Ends element.text.toList :=
    fun element helement => PathElement.reads fun text htext =>
      h text (List.mem_flatMap.mpr ⟨element, helement, htext⟩)
  refine (reads_join (reads_map path.elements fun element helement =>
    (helements element helement).1) fun text htext => ?_).1
  obtain ⟨element, helement, rfl⟩ := List.mem_map.mp htext
  exact (helements element helement).2

/-! ## Conditions and items -/

/-- The lexemes of a condition. -/
def Condition.lexemes : Condition → List Lexeme
  | .compare left comparison param =>
    lexemesOf left ++ lexemesOf (" " ++ comparison.text ++ " $") ++ lexemesOf param
  | .between expression floor ceiling =>
    lexemesOf "$" ++ lexemesOf floor ++ lexemesOf " <= " ++ lexemesOf expression
      ++ lexemesOf " <= $" ++ lexemesOf ceiling
  | .identity var param =>
    lexemesOf "id(" ++ lexemesOf var ++ lexemesOf ") = $" ++ lexemesOf param
  | .raw text => lexemesOf text

/-- What is written in a condition as it is given. -/
def Condition.bare : Condition → List String
  | .compare left _ param => [left, param]
  | .between expression floor ceiling => [expression, floor, ceiling]
  | .identity var param => [var, param]
  | .raw text => [text]

/-- The lexemes of a predicate. -/
def Predicate.lexemes (p : Predicate) : List Lexeme :=
  if p.negated then lexemesOf "NOT (" ++ p.condition.lexemes ++ lexemesOf ")"
  else p.condition.lexemes

/-- The lexemes of a group of predicates. -/
def FilterGroup.lexemes (group : FilterGroup) : List Lexeme :=
  lexemesOf "(" ++ (lexemesOf (" " ++ group.connector.text ++ " ")).intercalate
    (group.predicates.map Predicate.lexemes) ++ lexemesOf ")"

/-- The lexemes of a filter. -/
def Filter.lexemes (filter : Filter) : List Lexeme :=
  match filter.written with
  | [] => []
  | first :: rest =>
    lexemesOf "WHERE " ++ first.lexemes
      ++ (rest.map fun group => lexemesOf (" " ++ group.join.text ++ " ") ++ group.lexemes).flatten

/-- What is written in a filter as it is given. -/
def Filter.bare (filter : Filter) : List String :=
  filter.groups.flatMap fun group => group.predicates.flatMap fun p => p.condition.bare

/-- The lexemes of an item that sets something. -/
def SetItem.lexemes : SetItem → List Lexeme
  | .value target operator param =>
    lexemesOf target ++ lexemesOf (" " ++ operator.text ++ " $") ++ lexemesOf param
  | .raw text => lexemesOf text

/-- What is written in an item that sets something as it is given. -/
def SetItem.bare : SetItem → List String
  | .value target _ param => [target, param]
  | .raw text => [text]

/-- The lexemes of an expression by which rows are ordered. -/
def OrderItem.lexemes (item : OrderItem) : List Lexeme :=
  lexemesOf item.expression ++ lexemesOf (" " ++ item.order.text)

/-- An operator is read between what it is applied to and a parameter. -/
theorem Reads.operator {text param : String} {items others : List Lexeme} (h : Reads text items)
    (operator : String) (hoperator : IsSeparator (" " ++ operator ++ " $").toList)
    (hparam : Reads param others) :
    Reads (text ++ " " ++ operator ++ " $" ++ param)
      (items ++ lexemesOf (" " ++ operator ++ " $") ++ others) := by
  have hread := h.between _ hoperator hparam
  rwa [← String.append_assoc, ← String.append_assoc] at hread

/-- A condition is read. -/
theorem Condition.reads {condition : Condition} (h : ∀ text ∈ condition.bare, Standalone text) :
    Reads condition.text condition.lexemes := by
  cases condition with
  | compare left comparison param =>
    exact (h left (by simp [bare])).operator comparison.text (by cases comparison <;> decide)
      (h param (by simp [bare]))
  | between expression floor ceiling =>
    exact (((h floor (by simp [bare])).opening "$" (by decide)).between " <= " (by decide)
      (h expression (by simp [bare]))).between " <= $" (by decide) (h ceiling (by simp [bare]))
  | identity var param =>
    exact ((h var (by simp [bare])).opening "id(" (by decide)).between ") = $" (by decide)
      (h param (by simp [bare]))
  | raw text => exact h text (by simp [bare])

/-- An item that sets something is read. -/
theorem SetItem.reads {item : SetItem} (h : ∀ text ∈ item.bare, Standalone text) :
    Reads item.text item.lexemes := by
  cases item with
  | value target operator param =>
    exact (h target (by simp [bare])).operator operator.text (by cases operator <;> decide)
      (h param (by simp [bare]))
  | raw text => exact h text (by simp [bare])

/-- An expression by which rows are ordered is read. -/
theorem OrderItem.reads {item : OrderItem} (h : Standalone item.expression) :
    Reads item.text item.lexemes := by
  have hread := h.closing (" " ++ item.order.text) (by cases item.order <;> decide)
  rwa [← String.append_assoc] at hread

/-- A predicate is read. -/
theorem Predicate.reads {p : Predicate} (h : ∀ text ∈ p.condition.bare, Standalone text) :
    Reads p.text p.lexemes := by
  have hcondition := Condition.reads h
  unfold Predicate.text Predicate.lexemes
  split
  · exact (hcondition.opening "NOT (" (by decide)).closing ")" (by decide)
  · exact hcondition

/-- A connector may stand between any two predicates or groups. -/
theorem isSeparator_connector (connector : Connector) :
    IsSeparator (" " ++ connector.text ++ " ").toList := by
  cases connector <;> decide

/-- A group of predicates is read. -/
theorem FilterGroup.reads {group : FilterGroup}
    (h : ∀ p ∈ group.predicates, ∀ text ∈ p.condition.bare, Standalone text) :
    Reads group.text group.lexemes := by
  have hpredicates := reads_map group.predicates fun p hp => Predicate.reads (h p hp)
  have hrow := reads_joined _ (isSeparator_connector group.connector) hpredicates
  exact (hrow.opening "(" (by decide)).closing ")" (by decide)

/-- A filter is read. -/
theorem Filter.reads {filter : Filter} (h : ∀ text ∈ filter.bare, Standalone text) :
    Reads filter.text filter.lexemes := by
  have hgroup : ∀ group ∈ filter.written, Reads group.text group.lexemes := by
    intro group hgroup
    have hgroup : group ∈ filter.groups := List.mem_of_mem_filter hgroup
    refine FilterGroup.reads fun p hp text htext => h text ?_
    exact List.mem_flatMap.mpr ⟨group, hgroup, List.mem_flatMap.mpr ⟨p, hp, htext⟩⟩
  unfold Filter.text Filter.lexemes
  cases hwritten : filter.written with
  | nil => exact reads_empty
  | cons first rest =>
    rw [hwritten] at hgroup
    obtain ⟨hfirst, hrest⟩ := List.forall_mem_cons.mp hgroup
    have hjoins := reads_map rest fun group hmem => (hrest group hmem).opening
      (" " ++ group.join.text ++ " ") (isSeparator_connector group.join).2
    obtain ⟨hmore, hmoreEnd⟩ := reads_join hjoins fun text htext => by
      obtain ⟨group, -, rfl⟩ := List.mem_map.mp htext
      exact ends_append_of_isClosing (isSeparator_connector group.join).1 _
    exact (hfirst.opening "WHERE " (by decide)).append hmore hmoreEnd

/-! ## Statements -/

/-- What is written at the head of a statement as it is given. -/
def Head.bare : Head → List String
  | .paths _ => []
  | .carry vars => vars

namespace Statement

/-- The lexemes of the head of a statement and of what follows it. -/
def patternLexemes (s : Statement) : List Lexeme :=
  match s.head with
  | .paths verb =>
    lexemesOf (verb.text ++ " ") ++ (lexemesOf ", ").intercalate (s.paths.map Path.lexemes)
  | .carry vars => lexemesOf "WITH " ++ (lexemesOf ", ").intercalate (vars.map lexemesOf)

/-- The lexemes of a section, if it is written. -/
def sectionLexemes (keyword : String) (items : List (List Lexeme)) : List (List Lexeme) :=
  if items.isEmpty then [] else [lexemesOf (keyword ++ " ") ++ (lexemesOf ", ").intercalate items]

/-- The lexemes of each line behind the first. -/
def sectionsLexemes (s : Statement) : List (List Lexeme) :=
  (if s.filter.isEmpty then [] else [s.filter.lexemes])
    ++ sectionLexemes "REMOVE" (s.remove.map lexemesOf)
    ++ sectionLexemes "ON CREATE SET" (s.onCreateSet.map SetItem.lexemes)
    ++ sectionLexemes "ON MATCH SET" (s.onMatchSet.map SetItem.lexemes)
    ++ sectionLexemes "SET" (s.set.map SetItem.lexemes)
    ++ sectionLexemes "DELETE" (s.delete.map lexemesOf)
    ++ sectionLexemes "DETACH DELETE" (s.detachDelete.map lexemesOf)
    ++ sectionLexemes (if s.distinct then "RETURN DISTINCT" else "RETURN")
      (s.returns.map lexemesOf)
    ++ sectionLexemes "ORDER BY" (s.orderBy.map OrderItem.lexemes)
    ++ sectionLexemes "SKIP" ((s.skip.map toString).toList.map lexemesOf)
    ++ sectionLexemes "LIMIT" ((s.limit.map toString).toList.map lexemesOf)

/-- The lexemes of a statement. -/
def lexemes (s : Statement) : List Lexeme :=
  (lexemesOf "\n").intercalate (s.patternLexemes :: s.sectionsLexemes)

/-- All that is written in a statement as it is given is read as it is on its own. -/
structure Legible (s : Statement) : Prop where
  head : ∀ var ∈ s.head.bare, Standalone var
  paths : ∀ path ∈ s.paths, ∀ text ∈ path.bare, Standalone text
  filter : ∀ text ∈ s.filter.bare, Standalone text
  remove : ∀ expression ∈ s.remove, Standalone expression
  onCreateSet : ∀ item ∈ s.onCreateSet, ∀ text ∈ item.bare, Standalone text
  onMatchSet : ∀ item ∈ s.onMatchSet, ∀ text ∈ item.bare, Standalone text
  set : ∀ item ∈ s.set, ∀ text ∈ item.bare, Standalone text
  delete : ∀ var ∈ s.delete, Standalone var
  detachDelete : ∀ var ∈ s.detachDelete, Standalone var
  returns : ∀ expression ∈ s.returns, Standalone expression
  orderBy : ∀ item ∈ s.orderBy, Standalone item.expression

/-- A section is read if its items are. -/
theorem reads_section (keyword : String) (hkeyword : isOpening (keyword ++ " ").toList)
    {texts : List String} {rows : List (List Lexeme)} (h : List.Forall₂ Reads texts rows) :
    List.Forall₂ Reads (sectionLines keyword texts) (sectionLexemes keyword rows) := by
  have hrow := (reads_joined ", " (by decide) h).opening _ hkeyword
  unfold sectionLines sectionLexemes
  cases h with
  | nil => exact .nil
  | cons => exact .cons hrow .nil

/-- A number of rows is read. -/
theorem standalone_rows (rows : Option Nat) :
    ∀ text ∈ (rows.map toString).toList, Standalone text := by
  intro text htext
  obtain ⟨n, -, rfl⟩ := Option.map_eq_some_iff.mp (Option.mem_toList.mp htext)
  exact standalone_of_not_mem (backtick_not_mem (isIdentifierChar_toString n))

variable {s : Statement}

/-- The head of a statement is read with what follows it. -/
theorem reads_pattern (h : s.Legible) : Reads s.pattern s.patternLexemes := by
  have hvars := h.head
  unfold pattern patternLexemes
  cases hhead : s.head with
  | paths verb =>
    have hpaths := reads_map s.paths fun path hpath => Path.reads (h.paths path hpath)
    exact (reads_joined ", " (by decide) hpaths).opening _ (by cases verb <;> decide)
  | carry vars =>
    rw [hhead] at hvars
    exact (reads_joined ", " (by decide) (reads_texts hvars)).opening "WITH " (by decide)

/-- The lines of a statement behind the first are read one by one. -/
theorem reads_sections (h : s.Legible) : List.Forall₂ Reads s.sections s.sectionsLexemes := by
  have hfilter : List.Forall₂ Reads (if s.filter.isEmpty then [] else [s.filter.text])
      (if s.filter.isEmpty then [] else [s.filter.lexemes]) := by
    split
    · exact .nil
    · exact .cons (Filter.reads h.filter) .nil
  have hitems {items : List SetItem}
      (hitems : ∀ item ∈ items, ∀ text ∈ item.bare, Standalone text) :
      List.Forall₂ Reads (items.map SetItem.text) (items.map SetItem.lexemes) :=
    reads_map items fun item hitem => SetItem.reads (hitems item hitem)
  have horder := reads_map s.orderBy fun item hitem => OrderItem.reads (h.orderBy item hitem)
  have hreturn : isOpening
      ((if s.distinct then "RETURN DISTINCT" else "RETURN") ++ " ").toList := by
    split <;> decide
  -- The sections are taken off from the last one on, as they were appended.
  refine List.rel_append ?_ (reads_section "LIMIT" (by decide)
    (reads_texts (standalone_rows s.limit)))
  refine List.rel_append ?_ (reads_section "SKIP" (by decide)
    (reads_texts (standalone_rows s.skip)))
  refine List.rel_append ?_ (reads_section "ORDER BY" (by decide) horder)
  refine List.rel_append ?_ (reads_section _ hreturn (reads_texts h.returns))
  refine List.rel_append ?_ (reads_section "DETACH DELETE" (by decide)
    (reads_texts h.detachDelete))
  refine List.rel_append ?_ (reads_section "DELETE" (by decide) (reads_texts h.delete))
  refine List.rel_append ?_ (reads_section "SET" (by decide) (hitems h.set))
  refine List.rel_append ?_ (reads_section "ON MATCH SET" (by decide) (hitems h.onMatchSet))
  refine List.rel_append ?_ (reads_section "ON CREATE SET" (by decide) (hitems h.onCreateSet))
  exact List.rel_append hfilter (reads_section "REMOVE" (by decide) (reads_texts h.remove))

/-- A legible statement is read as its lexemes. -/
theorem Legible.reads (h : s.Legible) : Reads s.text s.lexemes :=
  reads_joined "\n" (by decide) (.cons (reads_pattern h) (reads_sections h))

end Statement

end GraphMapper.Cypher

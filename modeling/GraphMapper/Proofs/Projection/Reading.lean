import GraphMapper.Proofs.Cypher.Reading
import GraphMapper.Proofs.Projection

/-!
# The lexemes of a projection

A projection names properties and fields of entities by keys that may be any strings, and each is
one lexeme of it; what else is in it are its variables, the reserved keys of the markers and fixed
texts. The variables of a projection that is compiled from a schema are identifiers if that of the
root is one (`legible_ofModel`), and so what is returned is read as the lexemes of the projection,
whatever the schema calls its properties, its relationships and its labels (`reads_returned`).
-/

namespace GraphMapper

open Cypher

namespace Projection

/-- The texts of the markers of a node. -/
def nodeMarkers (var : String) : List String :=
  [item identityKey ("id(" ++ var ++ ")"), item labelsKey ("labels(" ++ var ++ ")")]

/-- The texts of the markers of a relationship. -/
def linkMarkers (var : String) : List String :=
  [item identityKey ("id(" ++ var ++ ")"), item typeKey ("type(" ++ var ++ ")")]

/-- The lexemes of each property. -/
def namesLexemes (names : List String) : List (List Lexeme) :=
  names.map fun name => lexemesOf "." ++ [.name name]

/-- The lexemes of the items of an entity with what encloses them. -/
def mapLexemes (var : String) (items : List (List Lexeme)) : List Lexeme :=
  [.name var] ++ lexemesOf " \x7b " ++ (lexemesOf ", ").intercalate items ++ lexemesOf " \x7d"

/-- The lexemes of an item with a key of its own. -/
def itemLexemes (key : String) (expression : List Lexeme) : List Lexeme :=
  [.name key] ++ lexemesOf ": " ++ expression

mutual

/-- The lexemes of a projection. -/
def lexemes : Projection → List Lexeme
  | .node var properties fields =>
    let names := match properties with
      | none => [lexemesOf ".*"]
      | some names => namesLexemes names
    mapLexemes var (names ++ (nodeMarkers var).map lexemesOf ++ fieldsLexemes fields)
  | .relationship var properties nodeKey far =>
    mapLexemes var (namesLexemes properties ++ (linkMarkers var).map lexemesOf
      ++ [itemLexemes nodeKey far.lexemes])

/-- The lexemes of each field. -/
def fieldsLexemes : List EagerField → List (List Lexeme)
  | [] => []
  | .mk name path single projection :: rest =>
    itemLexemes name (lexemesOf "[ " ++ path.lexemes ++ lexemesOf " | " ++ projection.lexemes
      ++ lexemesOf " ]" ++ lexemesOf (if single then "[0]" else "")) :: fieldsLexemes rest

end

mutual

/-- The variables of a projection are identifiers, and so is all that its paths write as it is
given. -/
def Legible : Projection → Prop
  | .node var _ fields => isIdentifier var.toList ∧ FieldsLegible fields
  | .relationship var _ _ far => isIdentifier var.toList ∧ far.Legible

/-- The variables of each field are identifiers. -/
def FieldsLegible : List EagerField → Prop
  | [] => True
  | .mk _ path _ projection :: rest =>
    (∀ text ∈ path.bare, isIdentifier text.toList) ∧ projection.Legible ∧ FieldsLegible rest

end

/-! ## Legible projections are read -/

/-- Properties are read one by one. -/
theorem reads_propertyItems (names : List String) :
    List.Forall₂ Reads (propertyItems names) (namesLexemes names) :=
  reads_map names fun name _ => (reads_quoteName name).opening "." (by decide)

/-- An item with a key of its own is read. -/
theorem reads_item (key : String) {expression : String} {items : List Lexeme}
    (h : Reads expression items) :
    Reads (item (quoteName key) expression) (itemLexemes key items) :=
  (reads_quoteName key).between ": " (by decide) h

/-- What is found along a path is read. -/
theorem reads_comprehension {path projection : String} {items others : List Lexeme}
    (hpath : Reads path items) (hprojection : Reads projection others) (single : Bool) :
    Reads ("[ " ++ path ++ " | " ++ projection ++ " ]" ++ (if single then "[0]" else ""))
      (lexemesOf "[ " ++ items ++ lexemesOf " | " ++ others ++ lexemesOf " ]"
        ++ lexemesOf (if single then "[0]" else "")) := by
  have hfront := (hpath.opening "[ " (by decide)).between " | " (by decide) hprojection
  have hlist := hfront.closing " ]" (by decide)
  cases single with
  | true => exact hlist.closing "[0]" (by decide)
  | false => exact hlist.append reads_empty.standalone ends_nil

section

variable {var : String} (hvar : isIdentifier var.toList)

include hvar

/-- What is told of a variable under a reserved key is read. -/
theorem standalone_marker (key front : String)
    (hfront : isOpening (key ++ ": " ++ front).toList) :
    Standalone (item key (front ++ var ++ ")")) := by
  have hread := ((reads_of_isIdentifier hvar).opening _ hfront).closing ")" (by decide)
  simpa only [item, String.append_assoc] using hread.standalone

/-- The markers of a node are read. -/
theorem standalone_nodeMarkers : ∀ text ∈ nodeMarkers var, Standalone text := by
  intro text htext
  rcases List.mem_pair.mp htext with rfl | rfl
  · exact standalone_marker hvar identityKey "id(" (by decide)
  · exact standalone_marker hvar labelsKey "labels(" (by decide)

/-- The markers of a relationship are read. -/
theorem standalone_linkMarkers : ∀ text ∈ linkMarkers var, Standalone text := by
  intro text htext
  rcases List.mem_pair.mp htext with rfl | rfl
  · exact standalone_marker hvar identityKey "id(" (by decide)
  · exact standalone_marker hvar typeKey "type(" (by decide)

/-- The items of an entity are read with what encloses them. -/
theorem reads_mapProjection {items : List String} {rows : List (List Lexeme)}
    (h : List.Forall₂ Reads items rows) :
    Reads (var ++ " \x7b " ++ Text.joined ", " items ++ " \x7d") (mapLexemes var rows) :=
  ((reads_of_isIdentifier hvar).between " \x7b " (by decide)
    (reads_joined ", " (by decide) h)).closing " \x7d" (by decide)

end

mutual

/-- A legible projection is read as its lexemes. -/
theorem reads_text : (projection : Projection) → projection.Legible →
    Reads projection.text projection.lexemes
  | .node var properties fields, ⟨hvar, hfields⟩ => by
    have hmarkers := reads_texts (standalone_nodeMarkers hvar)
    have hrest := reads_fieldTexts fields hfields
    cases properties with
    | none =>
      have hall : List.Forall₂ Reads [".*"] [lexemesOf ".*"] :=
        .cons (standalone_of_not_mem (by decide)) .nil
      exact reads_mapProjection hvar (List.rel_append (List.rel_append hall hmarkers) hrest)
    | some names =>
      exact reads_mapProjection hvar
        (List.rel_append (List.rel_append (reads_propertyItems names) hmarkers) hrest)
  | .relationship var properties nodeKey far, ⟨hvar, hfar⟩ => by
    have hmarkers := reads_texts (standalone_linkMarkers hvar)
    have hnode := reads_item nodeKey (reads_text far hfar)
    exact reads_mapProjection hvar (List.rel_append
      (List.rel_append (reads_propertyItems properties) hmarkers) (.cons hnode .nil))

/-- Legible fields are read one by one. -/
theorem reads_fieldTexts : (fields : List EagerField) → FieldsLegible fields →
    List.Forall₂ Reads (fieldTexts fields) (fieldsLexemes fields)
  | [], _ => .nil
  | .mk name _ single projection :: rest, ⟨hpath, hprojection, hrest⟩ => by
    have hpath := Path.reads fun text htext => standalone_of_isIdentifier (hpath text htext)
    have hfound := reads_comprehension hpath (reads_text projection hprojection) single
    exact .cons (reads_item name hfound) (reads_fieldTexts rest hrest)

end

/-! ## Compiled projections are legible -/

variable {registry : Registry} {levels : Nat} {var : String} {projection : Projection}

/-- The path of an eager relationship has identifiers for variables. -/
theorem isIdentifier_of_mem_path (hvar : isIdentifier var.toList) (rel : Relationship)
    (labels : List String) :
    ∀ text ∈ (path var (nestedVar var rel.name .relationship) (nestedVar var rel.name .node) rel
      labels).bare, isIdentifier text.toList := by
  intro text htext
  simp only [path, Path.bare, PathElement.bare, List.flatMap_cons, List.flatMap_nil, List.map_nil,
    Option.toList_some, List.append_nil, List.cons_append, List.nil_append, List.mem_cons,
    List.not_mem_nil, or_false] at htext
  rcases htext with rfl | rfl | rfl
  · exact hvar
  · exact isIdentifier_nestedVar hvar rel.name .relationship
  · exact isIdentifier_nestedVar hvar rel.name .node

/-- What is projected at the far end of a relationship is legible if the node there is. -/
theorem legible_far {rel : Relationship} {relVar : String} {node : Projection}
    (hvar : isIdentifier relVar.toList) (h : node.Legible) : (far rel relVar node).Legible := by
  cases hheld : rel.shape.isRelationship with
  | true =>
    rw [far_of_isRelationship hheld]
    exact ⟨hvar, h⟩
  | false =>
    rw [far_of_not_isRelationship hheld]
    exact h

/-- Eager fields are legible if the projections of the far nodes are. -/
theorem legible_fields
    (ih : ∀ {var model projection}, ofModel registry levels var model = .ok projection →
      isIdentifier var.toList → projection.Legible)
    (hvar : isIdentifier var.toList) {model : EntityType} {rels : List Relationship}
    {fields : List EagerField}
    (h : List.Forall₂ (fun rel field =>
      eagerField registry (ofModel registry levels) var model rel = .ok field) rels fields) :
    FieldsLegible fields := by
  induction h with
  | nil => trivial
  | @cons rel field rels fields hfield _ ihfields =>
    obtain ⟨target, node, -, hnode, rfl⟩ := eagerField_eq_ok.mp hfield
    have hlegible := ih hnode (isIdentifier_nestedVar hvar rel.name .node)
    exact ⟨isIdentifier_of_mem_path hvar rel _,
      legible_far (isIdentifier_nestedVar hvar rel.name .relationship) hlegible, ihfields⟩

/-- A compiled projection is legible if its variable is an identifier. -/
theorem legible_ofModel {found : Option EntityType}
    (h : ofModel registry levels var found = .ok projection) (hvar : isIdentifier var.toList) :
    projection.Legible := by
  induction levels generalizing var found projection with
  | zero => cases found <;> cases h <;> exact ⟨hvar, trivial⟩
  | succ levels ih =>
    cases found with
    | none =>
      cases h
      exact ⟨hvar, trivial⟩
    | some model =>
      obtain ⟨fields, hfields, rfl⟩ := ofModel_succ_eq_ok.mp h
      exact ⟨hvar, legible_fields ih hvar hfields⟩

/-- A type is returned as a legible projection of it. -/
theorem exists_projection_of_returnExpression {limit : Nat} {model : EntityType}
    {expression : String} (hvar : isIdentifier var.toList)
    (h : returnExpression registry limit var model = .ok expression) :
    ∃ projection, ofModel registry (Projection.levels limit 1) var (some model) = .ok projection ∧
      projection.Legible ∧ expression = projection.text ++ " AS " ++ var := by
  obtain ⟨projection, hprojection, h⟩ := bind_eq_ok.mp h
  cases h
  exact ⟨projection, hprojection, legible_ofModel hprojection hvar, rfl⟩

/-- The lexemes of a projection that is returned under a variable. -/
def returnedLexemes (projection : Projection) (var : String) : List Lexeme :=
  projection.lexemes ++ lexemesOf " AS " ++ [.name var]

/-- A legible projection is read when it is returned. -/
theorem reads_returned (h : projection.Legible) (hvar : isIdentifier var.toList) :
    Reads (projection.text ++ " AS " ++ var) (projection.returnedLexemes var) :=
  (reads_text projection h).between " AS " (by decide) (reads_of_isIdentifier hvar)

end Projection

end GraphMapper

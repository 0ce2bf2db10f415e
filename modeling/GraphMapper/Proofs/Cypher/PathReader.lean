import GraphMapper.Cypher.Pattern
import GraphMapper.Proofs.Calendar
import GraphMapper.Proofs.Cypher.Name

/-!
# Paths are read back from their text

A label, a type or a property key may be any string, and everything that surrounds it in a path is
written in characters that a string may hold as well. `readPath?` is a reader for the texts of
paths, and `path_decodes` says that it gives back the path that was written, so that a text stands
for one path only and no name leaves its place.

The reader never looks further than one character ahead of what it takes. Each lemma here says that
a part of a path is read off the front of a text that goes on with a character that cannot belong to
the part (`Ends` for a name).
-/

namespace GraphMapper.Cypher

open Calendar (Reader literal read_bind literal_cons)
open Text (joined)

section Readers

variable {α : Type}

/-- Reads given characters. -/
def word : List Char → Reader Unit
  | [] => pure ()
  | c :: rest => do
    literal c
    word rest

/-- Reads what may be missing. -/
def optional (read : Reader α) : Reader (Option α) := fun text =>
  match read text with
  | some (a, rest) => some (some a, rest)
  | none => some (none, text)

/-- Reads at most a number of items. -/
def atMost (read : Reader α) : Nat → Reader (List α)
  | 0 => pure []
  | count + 1 => do
    match ← optional read with
    | none => return []
    | some first => return first :: (← atMost read count)

/-- Reads all the items there are; no item is empty, so that there are no more than characters. -/
def many (read : Reader α) : Reader (List α) := fun text => atMost read text.length text

/-- Reads items between an opening and a closing, with separators, or nothing. -/
def listed (opening separator closing : String) (read : Reader α) : Reader (List α) := do
  match ← optional (word opening.toList) with
  | none => return []
  | some () =>
    let first ← read
    let more ← many (do word separator.toList; read)
    word closing.toList
    return first :: more

/-- Reads a variable, if there is one. -/
def optionalVar : Reader (Option String) := do
  let var ← identifierRun
  return if var = "" then none else some var

/-- Reads a property and its parameter. -/
def propertyPair : Reader PropertyPair := do
  let key ← anyName
  word ": $".toList
  return ⟨key, ← identifierRun⟩

/-- Reads a label behind its colon. -/
def label : Reader String := do
  literal ':'
  anyName

/-- Reads a node pattern. -/
def nodePattern : Reader NodePattern := do
  literal '('
  let var ← optionalVar
  let labels ← many label
  let properties ← listed " \x7b " ", " " \x7d" propertyPair
  literal ')'
  return ⟨var, labels, properties⟩

/-- Reads the digits of a number. -/
def number : Reader Nat := fun text =>
  let (digits, rest) := Text.spanDigits text
  if digits = [] then none else some (Text.numeralValue digits, rest)

/-- Reads the star and the bounds behind it; a bound that no dots follow is both. -/
def hops : Reader Hops := do
  literal '*'
  let min ← optional number
  match ← optional (word "..".toList) with
  | none => return ⟨min, min⟩
  | some () => return ⟨min, ← optional number⟩

/-- Reads what stands between the brackets of a relationship, if there are any. -/
def detail : Reader (Option String × List String × Option Hops) := do
  match ← optional (literal '[') with
  | none => return (none, [], none)
  | some () =>
    let var ← optionalVar
    let types ← listed ":" "|" "" anyName
    let length ← optional hops
    literal ']'
    return (var, types, length)

/-- The direction of an arrow by its two heads. -/
def directionOf? : Option Unit → Option Unit → Option Direction
  | none, none => some .both
  | none, some () => some .outgoing
  | some (), none => some .incoming
  | some (), some () => none

/-- Reads a relationship pattern. -/
def relationshipPattern : Reader RelationshipPattern := do
  let left ← optional (literal '<')
  literal '-'
  let (var, types, length) ← detail
  literal '-'
  let right ← optional (literal '>')
  let direction ← (directionOf? left right : Option Direction)
  return ⟨var, types, direction, length⟩

/-- Reads a node or a relationship. -/
def pathElement : Reader PathElement := fun text =>
  match nodePattern text with
  | some (node, rest) => some (.node node, rest)
  | none => (relationshipPattern text).map fun (rel, rest) => (.relationship rel, rest)

/-- The path that is written as a text. -/
def readPath? (text : String) : Option Path :=
  match many pathElement text.toList with
  | some (elements, []) => some ⟨elements⟩
  | _ => none

end Readers

/-! ## What one step reads -/

section Steps

variable {α : Type} {text rest : List Char}

theorem optional_of_some {read : Reader α} {a : α} (h : read text = some (a, rest)) :
    optional read text = some (some a, rest) := by
  simp [optional, h]

theorem optional_of_none {read : Reader α} (h : read text = none) :
    optional read text = some (none, text) := by
  simp [optional, h]

@[simp]
theorem word_append (cs rest : List Char) : word cs (cs ++ rest) = some ((), rest) := by
  induction cs with
  | nil => rfl
  | cons c cs ih =>
    rw [word, List.cons_append, read_bind (literal_cons c (cs ++ rest)), ih]

theorem literal_eq_none {c : Char} (h : text.head? ≠ some c) : literal c text = none := by
  cases text with
  | nil => rfl
  | cons d rest => simpa [literal] using h

end Steps

/-! ## Rows of items -/

section Rows

variable {α : Type} {read : Reader α} {write : α → List Char} {items : List α} {last : List Char}

/-- Items that are read one by one, up to something that is no item, are read as a row. -/
theorem atMost_flatMap (fits : List Char → Prop) (hread : ∀ item ∈ items, ∀ rest, fits rest →
      read (write item ++ rest) = some (item, rest))
    (hfits : ∀ item ∈ items, ∀ rest, fits (write item ++ rest))
    (hlast : fits last) (hstop : read last = none) {count : Nat} (hcount : items.length ≤ count) :
    atMost read count (items.flatMap write ++ last) = some (items, last) := by
  induction items generalizing count with
  | nil =>
    cases count with
    | zero => rfl
    | succ count =>
      rw [atMost, List.flatMap_nil, List.nil_append, read_bind (optional_of_none hstop)]
      rfl
  | cons item rest ih =>
    obtain ⟨count, rfl⟩ : ∃ n, count = n + 1 := ⟨count - 1, by simp at hcount; omega⟩
    have hnext : fits (rest.flatMap write ++ last) := by
      cases rest with
      | nil => exact hlast
      | cons next more =>
        rw [List.flatMap_cons, List.append_assoc]
        exact hfits next (by simp) _
    have hfirst := hread item (by simp) _ hnext
    have hrest : rest.length ≤ count := by simpa using hcount
    have hmore := ih (fun i hi => hread i (List.mem_cons_of_mem _ hi))
      (fun i hi => hfits i (List.mem_cons_of_mem _ hi)) hrest
    rw [atMost, List.flatMap_cons, List.append_assoc, read_bind (optional_of_some hfirst)]
    dsimp only
    rw [read_bind hmore]
    rfl

/-- A row of items that are not empty has at least a character for each. -/
theorem length_le_flatMap (hne : ∀ item ∈ items, write item ≠ []) :
    items.length ≤ (items.flatMap write).length := by
  induction items with
  | nil => simp
  | cons item rest ih =>
    have hitem := List.length_pos_iff.mpr (hne item (by simp))
    have hrest := ih fun i hi => hne i (List.mem_cons_of_mem _ hi)
    simp only [List.flatMap_cons, List.length_append, List.length_cons]
    omega

/-- Items that are not empty are read as a row without a bound on their number. -/
theorem many_flatMap (fits : List Char → Prop) (hread : ∀ item ∈ items, ∀ rest, fits rest →
      read (write item ++ rest) = some (item, rest))
    (hfits : ∀ item ∈ items, ∀ rest, fits (write item ++ rest))
    (hne : ∀ item ∈ items, write item ≠ [])
    (hlast : fits last) (hstop : read last = none) :
    many read (items.flatMap write ++ last) = some (items, last) := by
  refine atMost_flatMap fits hread hfits hlast hstop ?_
  have hlength := length_le_flatMap hne
  simp only [List.length_append]
  omega

end Rows

/-! ## Variables -/

/-- A variable that is missing or an identifier is read. -/
theorem optionalVar_append {var : Option String} (hvar : ∀ v ∈ var, isIdentifier v.toList)
    {rest : List Char} (hrest : Ends rest) :
    optionalVar ((var.getD "").toList ++ rest) = some (var, rest) := by
  have hchars : ∀ c ∈ (var.getD "").toList, isIdentifierChar c := by
    cases var with
    | none => simp
    | some v => exact fun c hc => isIdentifierChar_of_mem (hvar v rfl) hc
  rw [optionalVar, read_bind (identifierRun_append hchars hrest), String.ofList_toList]
  cases var with
  | none => rfl
  | some v =>
    have hne : v ≠ "" := by
      rintro rfl
      exact absurd (hvar "" rfl) (by decide)
    change some (if v = "" then none else some v, rest) = some (some v, rest)
    rw [if_neg hne]

/-! ## Listings -/

/-- The items of a listing behind the first, each behind a separator. -/
theorem toList_joined_cons (separator item : String) (items : List String) :
    (joined separator (item :: items)).toList
      = item.toList ++ items.flatMap fun next => separator.toList ++ next.toList := by
  induction items generalizing item with
  | nil => simp [joined]
  | cons next rest ih =>
    rw [joined, String.toList_append, String.toList_append, ih, List.flatMap_cons]
    · simp only [List.append_assoc]
    · simp

section Listings

variable {α : Type} {read : Reader α} {write : α → String} {items : List α} {rest : List Char}

/-- Nothing is listed where the opening is missing. -/
theorem listed_nil {opening separator closing : String} (h : word opening.toList rest = none) :
    listed opening separator closing read rest = some ([], rest) := by
  rw [listed, read_bind (optional_of_none h)]
  rfl

/-- Items are read that stand between an opening and a closing. -/
theorem listed_cons (opening separator closing : String) {item : α}
    (hread : ∀ i ∈ item :: items, ∀ rest, Ends rest →
      read ((write i).toList ++ rest) = some (i, rest))
    (hseparator : separator ≠ "") (hends : ∀ rest, Ends (separator.toList ++ rest))
    (hlast : Ends (closing.toList ++ rest))
    (hstop : word separator.toList (closing.toList ++ rest) = none) :
    listed opening separator closing read
        (opening.toList ++ ((joined separator ((item :: items).map write)).toList
          ++ (closing.toList ++ rest)))
      = some (item :: items, rest) := by
  have hmore : many (do word separator.toList; read)
      (items.flatMap (fun i => separator.toList ++ (write i).toList) ++ (closing.toList ++ rest))
      = some (items, closing.toList ++ rest) := by
    refine many_flatMap Ends ?_ ?_ ?_ hlast ?_
    · intro i hi rest hrest
      rw [List.append_assoc, read_bind (word_append _ _)]
      exact hread i (List.mem_cons_of_mem _ hi) rest hrest
    · intro i hi rest
      rw [List.append_assoc]
      exact hends _
    · intro i hi h
      exact hseparator (String.toList_eq_nil_iff.mp (List.append_eq_nil_iff.mp h).1)
    · simp [bind, StateT.bind, hstop]
  have hnext : Ends (items.flatMap (fun i => separator.toList ++ (write i).toList)
      ++ (closing.toList ++ rest)) := by
    cases items with
    | nil => exact hlast
    | cons next more =>
      rw [List.flatMap_cons, List.append_assoc, List.append_assoc]
      exact hends _
  rw [List.map_cons, toList_joined_cons, List.flatMap_map, List.append_assoc, listed,
    read_bind (optional_of_some (word_append _ _))]
  dsimp only
  rw [read_bind (hread item (by simp) _ hnext), read_bind hmore, read_bind (word_append _ _)]
  rfl

end Listings

/-! ## Nodes -/

/-- The names of a node that are written without quotes are identifiers. -/
structure NodePattern.Plain (node : NodePattern) : Prop where
  var : ∀ var ∈ node.var, isIdentifier var.toList
  params : ∀ pair ∈ node.properties, isIdentifier pair.param.toList

/-- A property is read with its parameter. -/
theorem propertyPair_text {pair : PropertyPair} (hparam : isIdentifier pair.param.toList)
    {rest : List Char} (hrest : Ends rest) :
    propertyPair (pair.text.toList ++ rest) = some (pair, rest) := by
  have hkey : Ends (": $".toList ++ (pair.param.toList ++ rest)) := ends_cons (by decide) _
  have hchars := fun c hc => isIdentifierChar_of_mem hparam (c := c) hc
  rw [PropertyPair.text, String.toList_append, String.toList_append, List.append_assoc,
    List.append_assoc, propertyPair, read_bind (anyName_quoteName pair.key hkey),
    read_bind (word_append _ _), read_bind (identifierRun_append hchars hrest),
    String.ofList_toList]
  rfl

/-- The properties of a node with what encloses them. -/
def propertiesText (properties : List PropertyPair) : String :=
  if properties = [] then ""
  else " \x7b " ++ joined ", " (properties.map PropertyPair.text) ++ " \x7d"

/-- The properties of a node are read up to its closing parenthesis. -/
theorem listed_propertiesText {properties : List PropertyPair}
    (hparams : ∀ pair ∈ properties, isIdentifier pair.param.toList) (rest : List Char) :
    listed " \x7b " ", " " \x7d" propertyPair ((propertiesText properties).toList ++ ')' :: rest)
      = some (properties, ')' :: rest) := by
  cases properties with
  | nil => exact listed_nil rfl
  | cons pair more =>
    rw [propertiesText, if_neg (List.cons_ne_nil pair more), String.toList_append,
      String.toList_append, List.append_assoc, List.append_assoc]
    exact listed_cons " \x7b " ", " " \x7d"
      (fun p hp rest hrest => propertyPair_text (hparams p hp) hrest) (by decide)
      (fun rest => ends_cons (by decide) _) (ends_cons (by decide) _) rfl

/-- A node with plain variable and parameters is read, whatever its labels and keys are. -/
theorem nodePattern_text {node : NodePattern} (hplain : node.Plain) (rest : List Char) :
    nodePattern (node.text.toList ++ rest) = some (node, rest) := by
  have hproperties : Ends ((propertiesText node.properties).toList ++ ')' :: rest) ∧
      label ((propertiesText node.properties).toList ++ ')' :: rest) = none := by
    rw [propertiesText]
    split
    · exact ⟨ends_cons (by decide) _, rfl⟩
    · rw [String.toList_append, String.toList_append]
      exact ⟨ends_cons (by decide) _, rfl⟩
  have hlabels : many label (node.labels.flatMap (fun l => ':' :: (quoteName l).toList)
        ++ ((propertiesText node.properties).toList ++ ')' :: rest))
      = some (node.labels, (propertiesText node.properties).toList ++ ')' :: rest) := by
    refine many_flatMap Ends ?_ ?_ (by simp) hproperties.1 hproperties.2
    · intro l _ rest hrest
      rw [List.cons_append, label, read_bind (literal_cons ':' _), anyName_quoteName l hrest]
    · exact fun l _ rest => ends_cons (by decide) _
  have hvar : Ends (node.labels.flatMap (fun l => ':' :: (quoteName l).toList)
      ++ ((propertiesText node.properties).toList ++ ')' :: rest)) := by
    cases node.labels with
    | nil => exact hproperties.1
    | cons l more => exact ends_cons (by decide) _
  have htext : node.text.toList ++ rest
      = '(' :: ((node.var.getD "").toList
        ++ (node.labels.flatMap (fun l => ':' :: (quoteName l).toList)
        ++ ((propertiesText node.properties).toList ++ ')' :: rest))) := by
    simp [NodePattern.text, propertiesText, String.toList_join, List.flatMap_map]
  rw [htext, nodePattern, read_bind (literal_cons '(' _),
    read_bind (optionalVar_append hplain.var hvar), read_bind hlabels,
    read_bind (listed_propertiesText hplain.params rest), read_bind (literal_cons ')' rest)]
  rfl

/-! ## Relationships -/

/-- The variable of a relationship is an identifier, if there is one. -/
def RelationshipPattern.Plain (rel : RelationshipPattern) : Prop :=
  ∀ var ∈ rel.var, isIdentifier var.toList

/-- A bound of a length, or nothing where there is none. -/
def boundText (bound : Option Nat) : String :=
  (bound.map toString).getD ""

/-- A length is a star with a bound and, if the other one differs, dots and that. -/
theorem Hops.text_eq (length : Hops) :
    length.text = "*" ++ boundText length.min
      ++ if length.min = length.max then "" else ".." ++ boundText length.max := by
  obtain ⟨_ | min, _ | max⟩ := length
  · rfl
  · rfl
  · simp [Hops.text, boundText]
  · by_cases heq : min = max <;> simp [Hops.text, boundText, heq, String.append_assoc]

/-- A bound is read up to the first character that is no digit. -/
theorem optional_number (bound : Option Nat) {rest : List Char} (hrest : Text.NoDigit rest) :
    optional number ((boundText bound).toList ++ rest) = some (bound, rest) := by
  cases bound with
  | none =>
    have hspan : Text.spanDigits rest = ([], rest) :=
      @Text.spanDigits_append_of_isDigit [] rest (by simp) hrest
    refine optional_of_none ?_
    simp [number, boundText, hspan]
  | some n =>
    have hdigits : ∀ c ∈ Nat.toDigits 10 n, c.isDigit = true := fun c hc =>
      Nat.isDigit_of_mem_toDigits (by decide) (by decide) hc
    have hvalue : Text.numeralValue (Nat.toDigits 10 n) = n :=
      Nat.ofDigitChars_toDigits (by decide) (by decide)
    have htext : (boundText (some n)).toList = Nat.toDigits 10 n := by
      simp [boundText]
    refine optional_of_some ?_
    rw [htext, number, Text.spanDigits_append_of_isDigit hdigits hrest]
    simp [Nat.toDigits_ne_nil, hvalue]

/-- A length is read up to the closing bracket. -/
theorem hops_text (length : Hops) (rest : List Char) :
    hops (length.text.toList ++ ']' :: rest) = some (length, ']' :: rest) := by
  have hbracket : Text.NoDigit (']' :: rest) := by simp [Text.NoDigit]
  obtain ⟨min, max⟩ := length
  by_cases heq : min = max
  · have htext : (Hops.text ⟨min, max⟩).toList ++ ']' :: rest
        = '*' :: ((boundText min).toList ++ ']' :: rest) := by
      simp [Hops.text_eq, heq]
    rw [htext, hops, read_bind (literal_cons '*' _), read_bind (optional_number min hbracket),
      read_bind (optional_of_none rfl), heq]
    rfl
  · have htext : (Hops.text ⟨min, max⟩).toList ++ ']' :: rest
        = '*' :: ((boundText min).toList ++ ("..".toList ++ ((boundText max).toList
          ++ ']' :: rest))) := by
      simp [Hops.text_eq, heq]
    rw [htext, hops, read_bind (literal_cons '*' _),
      read_bind (optional_number min (by simp [Text.NoDigit])), read_bind (optional_of_some (word_append _ _))]
    dsimp only
    rw [read_bind (optional_number max hbracket)]
    rfl

/-- The types of a relationship are read up to its length or the closing bracket. -/
theorem listed_typesText (types : List String) {rest : List Char} (hends : Ends rest)
    (hcolon : word ":".toList rest = none) (hbar : word "|".toList rest = none) :
    listed ":" "|" "" anyName ((typesText types).toList ++ rest) = some (types, rest) := by
  cases types with
  | nil => exact listed_nil hcolon
  | cons type more =>
    rw [typesText, String.toList_append, List.append_assoc]
    · exact listed_cons ":" "|" "" (fun t _ rest hrest => anyName_quoteName t hrest)
        (by decide) (fun rest => ends_cons (by decide) _) hends hbar
    · simp

/-- What stands between the dashes of a relationship. -/
def detailText (rel : RelationshipPattern) : String :=
  if rel.var = none ∧ rel.types = [] ∧ rel.hops = none then ""
  else "[" ++ rel.var.getD "" ++ typesText rel.types ++ (rel.hops.map Hops.text).getD "" ++ "]"

/-- What stands between the dashes of a relationship is read up to the second dash. -/
theorem detail_detailText {rel : RelationshipPattern} (hplain : rel.Plain) (rest : List Char) :
    detail ((detailText rel).toList ++ '-' :: rest)
      = some ((rel.var, rel.types, rel.hops), '-' :: rest) := by
  obtain ⟨var, types, direction, length⟩ := rel
  by_cases hbare : var = none ∧ types = [] ∧ length = none
  · obtain ⟨rfl, rfl, rfl⟩ := hbare
    rfl
  · -- The length, or the closing bracket where there is none.
    let behind := ((length.map Hops.text).getD "").toList ++ ']' :: '-' :: rest
    have hbehind : Ends behind ∧ word ":".toList behind = none ∧ word "|".toList behind = none := by
      cases length with
      | none => exact ⟨ends_cons (by decide) _, rfl, rfl⟩
      | some length =>
        simp only [behind, Option.map_some, Option.getD_some, Hops.text_eq, String.toList_append]
        exact ⟨ends_cons (by decide) _, rfl, rfl⟩
    have htypes : Ends ((typesText types).toList ++ behind) := by
      cases types with
      | nil => exact hbehind.1
      | cons type more =>
        rw [typesText, String.toList_append]
        · exact ends_cons (by decide) _
        · simp
    have hlength : optional hops behind = some (length, ']' :: '-' :: rest) := by
      cases length with
      | none => exact optional_of_none rfl
      | some length => exact optional_of_some (hops_text length _)
    have htext : (detailText ⟨var, types, direction, length⟩).toList ++ '-' :: rest
        = '[' :: ((var.getD "").toList ++ ((typesText types).toList ++ behind)) := by
      simp [detailText, hbare, behind]
    rw [htext, detail, read_bind (optional_of_some (literal_cons '[' _))]
    dsimp only
    rw [read_bind (optionalVar_append hplain htypes),
      read_bind (listed_typesText types hbehind.1 hbehind.2.1 hbehind.2.2), read_bind hlength,
      read_bind (literal_cons ']' _)]
    rfl

/-- A relationship with a plain variable is read, whatever its types are, unless the head of another
arrow follows it. -/
theorem relationshipPattern_text {rel : RelationshipPattern} (hplain : rel.Plain)
    {rest : List Char} (hrest : literal '>' rest = none) :
    relationshipPattern (rel.text.toList ++ rest) = some (rel, rest) := by
  have hright : optional (literal '>')
      ((if rel.direction = .outgoing then ">" else "").toList ++ rest)
      = some (if rel.direction = .outgoing then some () else none, rest) := by
    split
    · exact optional_of_some (literal_cons '>' rest)
    · exact optional_of_none hrest
  have hleft (more : List Char) : optional (literal '<')
      ((if rel.direction = .incoming then "<" else "").toList ++ '-' :: more)
      = some (if rel.direction = .incoming then some () else none, '-' :: more) := by
    split
    · exact optional_of_some (literal_cons '<' _)
    · exact optional_of_none rfl
  have htext : rel.text.toList ++ rest
      = (if rel.direction = .incoming then "<" else "").toList ++ '-' :: ((detailText rel).toList
        ++ '-' :: ((if rel.direction = .outgoing then ">" else "").toList ++ rest)) := by
    simp [RelationshipPattern.text, detailText]
  rw [htext, relationshipPattern, read_bind (hleft _), read_bind (literal_cons '-' _),
    read_bind (detail_detailText hplain _)]
  dsimp only
  rw [read_bind (literal_cons '-' _), read_bind hright]
  obtain ⟨var, types, direction, length⟩ := rel
  cases direction <;> rfl

/-! ## Paths -/

/-- The names of an element that are written without quotes are identifiers. -/
def PathElement.Plain : PathElement → Prop
  | .node pattern => pattern.Plain
  | .relationship pattern => pattern.Plain

/-- The names of a path that are written without quotes are identifiers: its variables and its
parameters. -/
def Path.Plain (path : Path) : Prop :=
  ∀ element ∈ path.elements, element.Plain

/-- The character that an element begins with: a parenthesis, the head of an arrow or a dash. -/
def PathElement.opening : PathElement → Char
  | .node _ => '('
  | .relationship pattern => if pattern.direction = .incoming then '<' else '-'

/-- The text of an element begins as its kind says. -/
theorem PathElement.head?_text (element : PathElement) (rest : List Char) :
    (element.text.toList ++ rest).head? = some element.opening := by
  cases element with
  | node pattern => simp [PathElement.text, NodePattern.text, PathElement.opening]
  | relationship pattern =>
    simp only [PathElement.text, RelationshipPattern.text, PathElement.opening]
    split <;> simp

/-- No element begins with the head of an arrow to the right. -/
theorem literal_element (element : PathElement) (rest : List Char) :
    literal '>' (element.text.toList ++ rest) = none := by
  refine literal_eq_none ?_
  rw [element.head?_text]
  cases element with
  | node pattern => simp [PathElement.opening]
  | relationship pattern =>
    rw [PathElement.opening]
    split <;> simp

/-- An element is read, unless the head of an arrow follows it. -/
theorem pathElement_text {element : PathElement} (hplain : element.Plain) {rest : List Char}
    (hrest : literal '>' rest = none) :
    pathElement (element.text.toList ++ rest) = some (element, rest) := by
  cases element with
  | node pattern =>
    have hnode : nodePattern (pattern.text.toList ++ rest) = some (pattern, rest) :=
      nodePattern_text hplain rest
    rw [pathElement, PathElement.text, hnode]
  | relationship pattern =>
    have hliteral : literal '(' ((PathElement.relationship pattern).text.toList ++ rest) =
        none := by
      refine literal_eq_none ?_
      rw [PathElement.head?_text, PathElement.opening]
      split <;> simp
    have hnode : nodePattern ((PathElement.relationship pattern).text.toList ++ rest) = none := by
      simp only [nodePattern, bind, StateT.bind, hliteral, Option.bind_none]
    have hrel : relationshipPattern (pattern.text.toList ++ rest) = some (pattern, rest) :=
      relationshipPattern_text hplain hrest
    rw [pathElement, hnode, PathElement.text, hrel]
    rfl

/-- A plain path is read back from its text. -/
theorem readPath?_text {path : Path} (hplain : path.Plain) : readPath? path.text = some path := by
  have hread : many pathElement (path.elements.flatMap (fun element => element.text.toList) ++ [])
      = some (path.elements, []) := by
    refine many_flatMap (fun rest => literal '>' rest = none)
      (fun element helement rest hrest => pathElement_text (hplain element helement) hrest)
      (fun element _ rest => literal_element element rest) (fun element _ h => ?_) rfl rfl
    have hhead := element.head?_text []
    simp [h] at hhead
  have htext : path.text.toList
      = path.elements.flatMap (fun element => element.text.toList) ++ [] := by
    simp [Path.text, String.toList_join, List.flatMap_map]
  rw [readPath?, htext, hread]

/-- An element with every label, type and property key left blank: what stands around them. -/
def PathElement.skeleton : PathElement → PathElement
  | .node pattern => .node ⟨pattern.var, pattern.labels.map fun _ => "",
      pattern.properties.map fun pair => ⟨"", pair.param⟩⟩
  | .relationship pattern => .relationship { pattern with types := pattern.types.map fun _ => "" }

/-- A path with every label, type and property key left blank. -/
def Path.skeleton (path : Path) : Path :=
  ⟨path.elements.map PathElement.skeleton⟩

/-- Whether an element is plain does not depend on labels, types and keys. -/
theorem PathElement.plain_skeleton (element : PathElement) :
    element.skeleton.Plain ↔ element.Plain := by
  cases element with
  | node pattern =>
    constructor
    · intro h
      exact ⟨h.var, fun pair hpair => h.params ⟨"", pair.param⟩ (List.mem_map_of_mem hpair)⟩
    · intro h
      refine ⟨h.var, fun pair hpair => ?_⟩
      obtain ⟨original, horiginal, rfl⟩ := List.mem_map.mp hpair
      exact h.params original horiginal
  | relationship pattern => exact Iff.rfl

/-- Whether a path is plain does not depend on labels, types and keys. -/
theorem Path.plain_skeleton (path : Path) : path.skeleton.Plain ↔ path.Plain := by
  simp only [Path.Plain, Path.skeleton, List.forall_mem_map, PathElement.plain_skeleton]

/-- The text of a path stands for that path: a reader gives it back, no other plain path is written
in the same way, and whatever labels, types and keys stand in the place of those of the path, they
leave what is read around them as it is. -/
theorem path_decodes {path : Path} (hplain : path.Plain) :
    readPath? path.text = some path ∧
    (∀ other : Path, other.Plain → other.text = path.text → other = path) ∧
    ∀ other : Path, other.skeleton = path.skeleton →
      (readPath? other.text).map Path.skeleton = some path.skeleton := by
  refine ⟨readPath?_text hplain, fun other hother htext => ?_, fun other hskeleton => ?_⟩
  · have hread := readPath?_text hother
    rw [htext, readPath?_text hplain] at hread
    exact (Option.some.inj hread).symm
  · have hother : other.Plain := by
      rwa [← Path.plain_skeleton, hskeleton, Path.plain_skeleton]
    rw [readPath?_text hother, Option.map_some, hskeleton]

/-- A path whose labels, types and keys hold the characters that stand around them in its text. -/
def bracketedPath : Path :=
  ⟨[.node ⟨some "a", ["Person", "", ":`x` \x7b"], [⟨"$key: $a \x7d)", "p_1"⟩, ⟨"", "p"⟩]⟩,
    .relationship ⟨none, ["]->(", "A|B"], .incoming, some ⟨some 2, some 2⟩⟩,
    .node ⟨none, ["``"], []⟩]⟩

example : bracketedPath.text =
    "(a:Person:``:`:``x`` \x7b` \x7b `$key: $a \x7d)`: $p_1, ``: $p \x7d)"
      ++ "<-[:`]->(`|`A|B`*2]-(:``````)" := by
  decide +kernel

/-- The path of these names is read back. -/
theorem bracketedPath_decodes :
    bracketedPath.Plain ∧
    (readPath? bracketedPath.text = some bracketedPath ∧
    (∀ other : Path, other.Plain → other.text = bracketedPath.text → other = bracketedPath) ∧
    ∀ other : Path, other.skeleton = bracketedPath.skeleton →
      (readPath? other.text).map Path.skeleton = some bracketedPath.skeleton) := by
  have hplain : bracketedPath.Plain := by
    intro element helement
    simp only [bracketedPath, List.mem_cons, List.not_mem_nil, or_false] at helement
    rcases helement with rfl | rfl | rfl
    · exact ⟨by simp; decide, by simp; decide⟩
    · simp [PathElement.Plain, RelationshipPattern.Plain]
    · exact ⟨by simp, by simp⟩
  exact ⟨hplain, path_decodes hplain⟩

end GraphMapper.Cypher

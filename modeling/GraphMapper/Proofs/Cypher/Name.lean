import GraphMapper.Calendar.Reader
import GraphMapper.Cypher.Draft

/-!
# Variables are plain identifiers, and names are read back

Names of relationships may hold any characters, but the variables made from them are identifiers
whatever the name is, and so they need no quoting and hold no dot.

Any other name may have to be quoted. `anyName` reads a name as it stands in a query off the front
of a text, whatever the name is, if the text goes on with a character that cannot belong to it
(`anyName_quoteName`). That character must be neither one of an identifier nor a backtick (`Ends`):
a name without backticks would go on with the former, and the backtick that closes a quoted name
would be taken for half of a doubled one before the latter.

The variable that is set by `Step.property` is what stands before the first dot of the expression
(`expressionVar`), and the property is the name behind it (`expressionKey?`).
-/

namespace GraphMapper.Cypher

open Calendar (Reader)

/-- An identifier stays one behind which only characters of identifiers are written. -/
theorem isIdentifier_append {name more : List Char} (hname : isIdentifier name)
    (hmore : ∀ c ∈ more, isIdentifierChar c) : isIdentifier (name ++ more) := by
  cases name with
  | nil => simp [isIdentifier] at hname
  | cons c rest =>
    simp only [isIdentifier, Bool.and_eq_true, List.all_eq_true, List.cons_append] at hname ⊢
    refine ⟨hname.1, fun d hd => ?_⟩
    rw [← List.cons_append] at hd
    rcases List.mem_append.mp hd with hd | hd
    · exact hname.2 d hd
    · exact hmore d hd

/-- The characters of an identifier may occur in one. -/
theorem isIdentifierChar_of_mem {name : List Char} (hname : isIdentifier name) {c : Char}
    (hc : c ∈ name) : isIdentifierChar c := by
  cases name with
  | nil => simp at hc
  | cons d rest =>
    simp only [isIdentifier, Bool.and_eq_true, List.all_eq_true] at hname
    exact hname.2 c hc

/-- Whatever a name is, its part of an identifier has only characters of identifiers. -/
theorem isIdentifierChar_identifierPart (name : String) :
    ∀ c ∈ (identifierPart name).toList, isIdentifierChar c := by
  intro c hc
  simp only [identifierPart, String.toList_ofList, List.mem_map] at hc
  obtain ⟨d, -, rfl⟩ := hc
  split
  · next h => simp [isIdentifierChar, h]
  · decide

/-- The decimal digits of a number are characters of identifiers. -/
theorem isIdentifierChar_toString (n : Nat) : ∀ c ∈ (toString n).toList, isIdentifierChar c := by
  intro c hc
  rw [Nat.toString_eq_ofList_toDigits, String.toList_ofList] at hc
  have hdigit := Nat.isDigit_of_mem_toDigits (by decide) (by decide) hc
  simp [isIdentifierChar, Char.isAlphanum, hdigit]

/-- The variable of a side of a relationship is an identifier if that of the entity is one. -/
theorem isIdentifier_nestedVar {parent : String} (hparent : isIdentifier parent.toList)
    (name : String) (side : Side) : isIdentifier (nestedVar parent name side).toList := by
  have hunderscore : ∀ c ∈ "_".toList, isIdentifierChar c := List.all_eq_true.mp rfl
  have hword : ∀ c ∈ side.word.toList, isIdentifierChar c := by
    cases side <;> exact List.all_eq_true.mp rfl
  simp only [nestedVar, String.toList_append]
  exact isIdentifier_append (isIdentifier_append (isIdentifier_append
    (isIdentifier_append hparent hunderscore) (isIdentifierChar_identifierPart name))
    hunderscore) hword

/-- The variables of the two sides of a relationship grow on that of the entity. -/
theorem length_nestedVar (parent name : String) :
    parent.length < (nestedVar parent name .relationship).length ∧
      (nestedVar parent name .relationship).length < (nestedVar parent name .node).length := by
  have hrel : Side.relationship.word.length = 3 := rfl
  have hnode : Side.node.word.length = 4 := rfl
  simp only [nestedVar, String.length_append, hrel, hnode]
  omega

/-! ## Names are read back -/

/-- Reads the characters of an identifier, of which there may be none. -/
def identifierRun : Reader String := fun text =>
  some (String.ofList (text.takeWhile isIdentifierChar), text.dropWhile isIdentifierChar)

/-- Reads what stands between backticks, of which the first has been read. -/
def quotedRun : Reader (List Char)
  | [] => none
  | [c] => if c = backtick then some ([], []) else none
  | c :: d :: rest =>
    if c = backtick then
      if d = backtick then (quotedRun rest).map fun (name, last) => (c :: name, last)
      else some ([], d :: rest)
    else (quotedRun (d :: rest)).map fun (name, last) => (c :: name, last)

/-- Reads a name, plain or between backticks. -/
def anyName : Reader String
  | [] => none
  | c :: rest =>
    if c = backtick then (quotedRun rest).map fun (name, last) => (String.ofList name, last)
    else if isIdentifierStart c then identifierRun (c :: rest)
    else none

/-- The text goes on with a character that cannot belong to a name before it. -/
def Ends (rest : List Char) : Prop :=
  ∀ c ∈ rest.head?, isIdentifierChar c = false ∧ c ≠ backtick

/-- Nothing follows a name at the end of a text. -/
theorem ends_nil : Ends [] := nofun

theorem ends_cons {c : Char} (hc : isIdentifierChar c = false ∧ c ≠ backtick) (rest : List Char) :
    Ends (c :: rest) := by
  simpa [Ends] using hc

/-- The characters of an identifier are read up to the first that is none. -/
theorem identifierRun_append {cs rest : List Char} (hcs : ∀ c ∈ cs, isIdentifierChar c)
    (hrest : Ends rest) : identifierRun (cs ++ rest) = some (String.ofList cs, rest) := by
  have htake : rest.takeWhile isIdentifierChar = [] := by
    cases rest with
    | nil => rfl
    | cons c more => simp [(hrest c rfl).1]
  have hdrop : rest.dropWhile isIdentifierChar = rest := by
    cases rest with
    | nil => rfl
    | cons c more => simp [(hrest c rfl).1]
  rw [identifierRun, List.takeWhile_append_of_pos hcs, List.dropWhile_append_of_pos hcs, htake,
    hdrop, List.append_nil]

/-- What stands between backticks is read up to the backtick that is not doubled. -/
theorem quotedRun_doubleBackticks (name : List Char) {rest : List Char} (hrest : Ends rest) :
    quotedRun (doubleBackticks name ++ backtick :: rest) = some (name, rest) := by
  induction name with
  | nil =>
    cases rest with
    | nil => rfl
    | cons d more => simp [doubleBackticks, quotedRun, (hrest d rfl).2]
  | cons c name ih =>
    rw [doubleBackticks]
    split
    · next hc => simp [quotedRun, hc, ih]
    · next hc =>
      obtain ⟨d, more, hmore⟩ : ∃ d more, doubleBackticks name ++ backtick :: rest = d :: more :=
        List.exists_cons_of_ne_nil (by simp)
      rw [hmore] at ih
      simp only [List.cons_append, hmore, quotedRun, if_neg hc, ih, Option.map_some]

/-- A name that begins an identifier is not quoted. -/
theorem ne_backtick_of_isIdentifierStart {c : Char} (hc : isIdentifierStart c) : c ≠ backtick := by
  rintro rfl
  exact absurd hc (by decide)

/-- Any string is read back as the name that it is. -/
theorem anyName_quoteName (name : String) {rest : List Char} (hrest : Ends rest) :
    anyName ((quoteName name).toList ++ rest) = some (name, rest) := by
  unfold quoteName
  split
  · next hplain =>
    have hchars := fun c hc => isIdentifierChar_of_mem hplain (c := c) hc
    have hrun := identifierRun_append hchars hrest
    cases hname : name.toList with
    | nil => simp [hname, isIdentifier] at hplain
    | cons c cs =>
      have hstart : isIdentifierStart c := by
        rw [hname, isIdentifier, Bool.and_eq_true] at hplain
        exact hplain.1
      rw [hname, List.cons_append, ← hname, String.ofList_toList] at hrun
      rw [List.cons_append, anyName, if_neg (ne_backtick_of_isIdentifierStart hstart),
        if_pos hstart, hrun]
  · rw [String.toList_ofList, List.cons_append, List.append_assoc, anyName, if_pos rfl,
      List.singleton_append, quotedRun_doubleBackticks name.toList hrest]
    simp

/-! ## Expressions -/

/-- What stands before the first dot of an expression: the variable that it reads. -/
def expressionVar (expression : String) : String :=
  String.ofList (expression.toList.takeWhile (· ≠ '.'))

/-- An identifier holds no dot. -/
theorem ne_dot_of_isIdentifier {name : List Char} (hname : isIdentifier name) :
    ∀ c ∈ name, decide (c ≠ '.') = true := by
  intro c hc
  have hchar := isIdentifierChar_of_mem hname hc
  simp only [ne_eq, decide_not, Bool.not_eq_true', decide_eq_false_iff_not]
  rintro rfl
  exact absurd hchar (by decide)

/-- A property of an entity is read from the variable of the entity. -/
theorem expressionVar_property {var : String} (hvar : isIdentifier var.toList) (key : String) :
    expressionVar (Step.property var key) = var := by
  have hdot := ne_dot_of_isIdentifier hvar
  simp only [expressionVar, Step.property, String.toList_append]
  rw [List.append_assoc, List.takeWhile_append_of_pos hdot]
  simp

/-- The property that an expression reads: the name behind the first dot. -/
def expressionKey? (expression : String) : Option String :=
  Calendar.whole anyName (String.ofList ((expression.toList.dropWhile (· ≠ '.')).drop 1))

/-- A property of an entity is read by its name. -/
theorem expressionKey?_property {var : String} (hvar : isIdentifier var.toList) (key : String) :
    expressionKey? (Step.property var key) = some key := by
  have hdot := ne_dot_of_isIdentifier hvar
  have hbehind : ((Step.property var key).toList.dropWhile (· ≠ '.')).drop 1 =
      (quoteName key).toList := by
    simp only [Step.property, String.toList_append]
    rw [List.append_assoc, List.dropWhile_append_of_pos hdot]
    simp
  have hname := anyName_quoteName key ends_nil
  rw [List.append_nil] at hname
  rw [expressionKey?, hbehind, Calendar.whole, String.toList_ofList, StateT.run, hname]

end GraphMapper.Cypher

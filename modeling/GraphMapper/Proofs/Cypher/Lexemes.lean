import GraphMapper.Proofs.Cypher.PathReader
import GraphMapper.Text.Joined
import Mathlib.Data.List.Forall2

/-!
# Queries lexeme by lexeme

`scan` reads a query from its front: where a name begins, plain or between backticks, it takes the
whole name, and any other character stands for itself. Keywords and variables are names like any
other. Values are parameters, so that a query has no literals but numbers, and nothing else encloses
what stands in it.

What is read of a text may depend on what follows: a plain name goes on as long as characters of
identifiers do, and so does a quoted one behind a second backtick. `Reads` says what is read of a
text wherever it ends before neither. Queries are put together from names and from fixed texts
between them, which begin or end in a character that no name takes in (`isOpening`, `isClosing`);
`Reads.append`, `Reads.between` and `reads_joined` say that what is put together so is read as its
parts are.
-/

namespace GraphMapper.Cypher

open Text (joined)

/-- What a query is made of: names, without the backticks that enclose them, and characters that
stand for themselves. -/
inductive Lexeme where
  | name (name : String)
  | symbol (c : Char)
  deriving DecidableEq

/-- Reads a name where one begins, and the first character where none does. -/
def lexeme : List Char → Option (Lexeme × List Char)
  | [] => none
  | c :: rest =>
    match anyName (c :: rest) with
    | some (name, last) => some (.name name, last)
    | none => some (.symbol c, rest)

/-! ## Every lexeme takes a character -/

/-- What stands behind an opening backtick takes at least the closing one. -/
theorem length_quotedRun_lt {text name rest : List Char}
    (h : quotedRun text = some (name, rest)) : rest.length < text.length := by
  fun_induction quotedRun text generalizing name rest with
  | case1 => cases h
  | case2 | case5 =>
    cases h
    exact Nat.lt_succ_self _
  | case3 => cases h
  | case4 more ih =>
    obtain ⟨_, hrun, hrest⟩ := Option.map_eq_some_iff.mp h
    cases hrest
    have hlength := ih hrun
    simp only [List.length_cons]
    omega
  | case6 c d more _ ih =>
    obtain ⟨_, hrun, hrest⟩ := Option.map_eq_some_iff.mp h
    cases hrest
    exact Nat.lt_succ_of_lt (ih hrun)

/-- What may begin an identifier is what may occur in one, digits apart. -/
theorem isIdentifierStart_iff {c : Char} :
    isIdentifierStart c ↔ isIdentifierChar c ∧ ¬ c.isDigit := by
  have hletter : c.isAlpha → ¬ c.isDigit := by
    intro halpha hdigit
    -- The letters come behind the digits.
    have hle : c.val ≤ '9'.val := of_decide_eq_true ((Bool.and_eq_true _ _).mp hdigit).2
    rcases (Bool.or_eq_true _ _).mp halpha with hupper | hlower
    · have hge : 'A'.val ≤ c.val := (of_decide_eq_true hupper).1
      exact absurd (UInt32.le_trans hge hle) (by decide)
    · have hge : 'a'.val ≤ c.val := of_decide_eq_true ((Bool.and_eq_true _ _).mp hlower).1
      exact absurd (UInt32.le_trans hge hle) (by decide)
  have hunderscore : c = '_' → ¬ c.isDigit := by
    rintro rfl
    decide
  simp only [isIdentifierStart, isIdentifierChar, Char.isAlphanum, Bool.or_eq_true,
    decide_eq_true_eq]
  tauto

/-- A name takes at least one character. -/
theorem length_anyName_lt {text rest : List Char} {name : String}
    (h : anyName text = some (name, rest)) : rest.length < text.length := by
  cases text with
  | nil => cases h
  | cons c more =>
    rw [anyName] at h
    split at h
    · obtain ⟨⟨_, _⟩, hrun, hrest⟩ := Option.map_eq_some_iff.mp h
      cases hrest
      exact Nat.lt_succ_of_lt (length_quotedRun_lt hrun)
    · split at h
      · next hstart =>
        have hc := (isIdentifierStart_iff.mp hstart).1
        simp only [identifierRun, List.dropWhile_cons, hc, Option.some.injEq, Prod.mk.injEq] at h
        rw [← h.2]
        exact Nat.lt_succ_of_le (List.dropWhile_suffix _).length_le
      · cases h

/-- A lexeme takes at least one character. -/
theorem length_lexeme_lt {text rest : List Char} {first : Lexeme}
    (h : lexeme text = some (first, rest)) : rest.length < text.length := by
  cases text with
  | nil => cases h
  | cons c more =>
    rw [lexeme] at h
    split at h
    · next hname =>
      cases h
      exact length_anyName_lt hname
    · cases h
      exact Nat.lt_succ_self _

/-- Reads lexemes up to the end. -/
def scan (text : List Char) : List Lexeme :=
  match h : lexeme text with
  | none => []
  | some (first, rest) =>
    have := length_lexeme_lt h
    first :: scan rest
termination_by text.length

/-- The lexemes of a text. -/
def lexemesOf (text : String) : List Lexeme :=
  scan text.toList

/-- Nothing is read where there is nothing. -/
@[simp]
theorem scan_nil : scan [] = [] := by
  rw [scan]
  rfl

/-- A text is read from its first lexeme on. -/
theorem scan_of_lexeme {text rest : List Char} {first : Lexeme}
    (h : lexeme text = some (first, rest)) : scan text = first :: scan rest := by
  rw [scan]
  split
  · next hnone => cases h.symm.trans hnone
  · next hsome =>
    cases h.symm.trans hsome
    rfl

/-- A character with which no name begins stands for itself. -/
theorem scan_cons {c : Char} (hc : isIdentifierStart c = false ∧ c ≠ backtick)
    (rest : List Char) : scan (c :: rest) = .symbol c :: scan rest := by
  refine scan_of_lexeme ?_
  simp [lexeme, anyName, hc]

example : lexemesOf "SET n.`a``b`" =
    [.name "SET", .symbol ' ', .name "n", .symbol '.', .name "a`b"] := by
  cbv

/-! ## Texts without backticks -/

/-- What may follow a name may follow it with a text in between that may, or with none. -/
theorem Ends.append {text rest : List Char} (h : Ends text) (hrest : Ends rest) :
    Ends (text ++ rest) := by
  cases text with
  | nil => exact hrest
  | cons c more => exact h

/-- The first lexeme of a text without backticks does not change with what follows the text. -/
theorem lexeme_append {text last rest : List Char} {first : Lexeme} (htext : backtick ∉ text)
    (hrest : Ends rest) (h : lexeme text = some (first, last)) :
    lexeme (text ++ rest) = some (first, last ++ rest) ∧ backtick ∉ last := by
  cases text with
  | nil => cases h
  | cons c more =>
    have hc : c ≠ backtick := fun heq => htext (heq ▸ List.mem_cons_self)
    by_cases hstart : isIdentifierStart c
    · -- A plain name ends where the text goes on with another character, or where the text ends.
      have hchars : ∀ d ∈ (c :: more).takeWhile isIdentifierChar, isIdentifierChar d :=
        List.all_eq_true.mp List.all_takeWhile
      have hlast : backtick ∉ (c :: more).dropWhile isIdentifierChar := fun hmem =>
        htext ((List.dropWhile_suffix _).subset hmem)
      have hends : Ends ((c :: more).dropWhile isIdentifierChar) := by
        intro d hd
        have hnot := List.head?_dropWhile_not isIdentifierChar (c :: more)
        rw [hd] at hnot
        exact ⟨hnot, fun heq => hlast (heq ▸ List.mem_of_mem_head? hd)⟩
      have hrun := identifierRun_append hchars (hends.append hrest)
      rw [← List.append_assoc, List.takeWhile_append_dropWhile] at hrun
      simp only [lexeme, anyName, if_neg hc, if_pos hstart, identifierRun, Option.some.injEq,
        Prod.mk.injEq] at h
      obtain ⟨rfl, rfl⟩ := h
      refine ⟨?_, hlast⟩
      rw [List.cons_append] at hrun ⊢
      rw [lexeme, anyName, if_neg hc, if_pos hstart, hrun]
    · simp only [lexeme, anyName, if_neg hc, if_neg hstart, Option.some.injEq,
        Prod.mk.injEq] at h
      obtain ⟨rfl, rfl⟩ := h
      refine ⟨?_, fun hmem => htext (List.mem_cons_of_mem _ hmem)⟩
      simp [lexeme, anyName, hc, hstart]

/-- A text without backticks is read as it is on its own. -/
theorem scan_append {text rest : List Char} (htext : backtick ∉ text) (hrest : Ends rest) :
    scan (text ++ rest) = scan text ++ scan rest := by
  -- The induction is on the lexemes of the text, of which each leaves no backtick behind it.
  fun_induction scan text with
  | case1 text hnone =>
    cases text with
    | nil => rfl
    | cons c more => rw [lexeme] at hnone; split at hnone <;> cases hnone
  | case2 text first last hfirst _ ih =>
    obtain ⟨happend, hlast⟩ := lexeme_append htext hrest hfirst
    rw [scan_of_lexeme happend, ih hlast, List.cons_append]

/-- Characters of identifiers are no backticks. -/
theorem backtick_not_mem {cs : List Char} (h : ∀ c ∈ cs, isIdentifierChar c) : backtick ∉ cs :=
  fun hmem => absurd (h backtick hmem) (by decide)

/-! ## What is read of a text -/

/-- A text is read as the given lexemes wherever it ends before nothing that could belong to a
name. -/
def Reads (text : String) (items : List Lexeme) : Prop :=
  ∀ rest, Ends rest → scan (text.toList ++ rest) = items ++ scan rest

/-- A text is read, wherever it so ends, as it is on its own. -/
def Standalone (text : String) : Prop := Reads text (lexemesOf text)

section

variable {text more : String} {items others : List Lexeme}

/-- What is read of a text is read of it on its own. -/
theorem Reads.lexemesOf_eq (h : Reads text items) : lexemesOf text = items := by
  have hread := h [] ends_nil
  rwa [List.append_nil, scan_nil, List.append_nil] at hread

/-- A text of which the same is read everywhere is read as on its own. -/
theorem Reads.standalone (h : Reads text items) : Standalone text := by
  rwa [Standalone, h.lexemesOf_eq]

/-- Nothing is read of an empty text. -/
theorem reads_empty : Reads "" [] := fun _ _ => rfl

/-- A text without backticks stands for itself. -/
theorem standalone_of_not_mem (h : backtick ∉ text.toList) : Standalone text :=
  fun _ hrest => scan_append h hrest

/-- **One name, one lexeme.** Any name, as it stands in a query, is read as the name. -/
theorem reads_quoteName (name : String) : Reads (quoteName name) [.name name] := by
  intro rest hrest
  refine scan_of_lexeme ?_
  have hname := anyName_quoteName name hrest
  cases htext : (quoteName name).toList ++ rest with
  | nil => rw [htext] at hname; cases hname
  | cons c more => rw [htext] at hname; rw [lexeme, hname]

/-- An identifier is read as the name that it is. -/
theorem reads_of_isIdentifier (h : isIdentifier text.toList) : Reads text [.name text] := by
  have hread := reads_quoteName text
  rwa [quoteName, if_pos h] at hread

/-- An identifier stands for itself. -/
theorem standalone_of_isIdentifier (h : isIdentifier text.toList) : Standalone text :=
  (reads_of_isIdentifier h).standalone

/-- Two texts are read one after the other if the second one begins with nothing that could belong
to a name at the end of the first. -/
theorem Reads.append (h : Reads text items) (hmore : Reads more others)
    (hends : Ends more.toList) : Reads (text ++ more) (items ++ others) := by
  intro rest hrest
  rw [String.toList_append, List.append_assoc, h _ (hends.append hrest), hmore rest hrest,
    List.append_assoc]

/-! ## Fixed texts between names -/

/-- Whether a character neither belongs to a name nor encloses one. -/
def isDivider (c : Char) : Bool := !isIdentifierChar c && c ≠ backtick

/-- Whether a text holds no backtick and ends in a divider, so that any text may follow it. -/
def isOpening (text : List Char) : Bool :=
  backtick ∉ text && text.getLast?.any isDivider

/-- Whether a text holds no backtick and begins with a divider, so that it may follow any text. -/
def isClosing (text : List Char) : Bool :=
  backtick ∉ text && text.head?.any isDivider

/-- A text may stand between any two. -/
abbrev IsSeparator (text : List Char) : Prop :=
  isClosing text ∧ isOpening text

/-- A divider is what may follow a name. -/
theorem isDivider_iff {c : Char} : isDivider c ↔ isIdentifierChar c = false ∧ c ≠ backtick := by
  simp [isDivider]

/-- A text that begins with a divider ends whatever name stands before it. -/
theorem ends_of_isClosing {text : List Char} (h : isClosing text) (rest : List Char) :
    Ends (text ++ rest) := by
  simp only [isClosing, Bool.and_eq_true, Option.any_eq_true] at h
  obtain ⟨-, c, hhead, hc⟩ := h
  intro d hd
  rw [List.head?_append, hhead] at hd
  cases hd
  exact isDivider_iff.mp hc

/-- A text that begins with a divider may follow a name, whatever it goes on with. -/
theorem ends_append_of_isClosing {front : String} (h : isClosing front.toList) (text : String) :
    Ends (front ++ text).toList := by
  rw [String.toList_append]
  exact ends_of_isClosing h _

/-- What follows a text that ends in a divider is read as it is without that text. -/
theorem scan_append_of_isOpening {text : List Char} (h : isOpening text) (rest : List Char) :
    scan (text ++ rest) = scan text ++ scan rest := by
  simp only [isOpening, Bool.and_eq_true, decide_eq_true_eq, Option.any_eq_true] at h
  obtain ⟨hnot, c, hlast, hc⟩ := h
  obtain ⟨front, rfl⟩ : ∃ front, text = front ++ [c] :=
    ⟨_, (List.dropLast_append_getLast? c hlast).symm⟩
  -- The last character is a lexeme of its own, which ends whatever name stands before it.
  have hdivider := isDivider_iff.mp hc
  have hfront : backtick ∉ front := fun hmem => hnot (List.mem_append_left _ hmem)
  have hstart : ¬ isIdentifierStart c := fun hstart => by
    simp [(isIdentifierStart_iff.mp hstart).1] at hdivider
  have hsymbol (rest : List Char) : scan (c :: rest) = .symbol c :: scan rest :=
    scan_cons ⟨Bool.eq_false_iff.mpr hstart, hdivider.2⟩ rest
  have hends (rest : List Char) : Ends (c :: rest) := ends_cons hdivider rest
  rw [List.append_assoc, List.singleton_append, scan_append hfront (hends _),
    scan_append hfront (hends _), hsymbol, hsymbol]
  simp

/-- A text that ends in a divider may stand before any. -/
theorem Reads.opening (h : Reads text items) (front : String) (hfront : isOpening front.toList) :
    Reads (front ++ text) (lexemesOf front ++ items) := by
  intro rest hrest
  rw [String.toList_append, List.append_assoc, scan_append_of_isOpening hfront, h rest hrest,
    List.append_assoc]
  rfl

/-- A text that begins with a divider may stand behind any. -/
theorem Reads.closing (h : Reads text items) (last : String) (hlast : isClosing last.toList) :
    Reads (text ++ last) (items ++ lexemesOf last) := by
  have hplain : Standalone last := by
    simp only [isClosing, Bool.and_eq_true, decide_eq_true_eq] at hlast
    exact standalone_of_not_mem hlast.1
  exact h.append hplain (List.append_nil last.toList ▸ ends_of_isClosing hlast [])

/-- Two texts are read with a separator between them. -/
theorem Reads.between (h : Reads text items) (separator : String)
    (hseparator : IsSeparator separator.toList) (hmore : Reads more others) :
    Reads (text ++ separator ++ more) (items ++ lexemesOf separator ++ others) := by
  rw [String.append_assoc, List.append_assoc]
  refine h.append (hmore.opening separator hseparator.2) ?_
  exact ends_append_of_isClosing hseparator.1 more

/-! ## Lists of texts -/

/-- Texts that are written of items are read one by one if each is. -/
theorem reads_map {α : Type} {write : α → String} {row : α → List Lexeme} (items : List α)
    (h : ∀ item ∈ items, Reads (write item) (row item)) :
    List.Forall₂ Reads (items.map write) (items.map row) :=
  List.forall₂_map_left_iff.mpr (List.forall₂_map_right_iff.mpr (List.forall₂_same.mpr h))

/-- Texts that stand for themselves are read one by one. -/
theorem reads_texts {texts : List String} (h : ∀ text ∈ texts, Standalone text) :
    List.Forall₂ Reads texts (texts.map lexemesOf) :=
  List.forall₂_map_right_iff.mpr (List.forall₂_same.mpr h)

/-- Texts are read one after the other with a separator between each two. -/
theorem reads_joined (separator : String) (hseparator : IsSeparator separator.toList)
    {texts : List String} {rows : List (List Lexeme)} (h : List.Forall₂ Reads texts rows) :
    Reads (joined separator texts) ((lexemesOf separator).intercalate rows) := by
  induction h with
  | nil => exact reads_empty
  | @cons text row texts rows hhead htail ih =>
    cases htail with
    | nil => simpa [joined] using hhead
    | cons hnext hmore =>
      rw [List.intercalate_cons_cons]
      exact hhead.between separator hseparator ih

/-- Texts of which none begins with what could belong to a name are read one after the other. -/
theorem reads_join {texts : List String} {rows : List (List Lexeme)}
    (h : List.Forall₂ Reads texts rows) (hends : ∀ text ∈ texts, Ends text.toList) :
    Reads (String.join texts) rows.flatten ∧ Ends (String.join texts).toList := by
  induction h with
  | nil => exact ⟨reads_empty, ends_nil⟩
  | @cons text row texts rows hhead _ ih =>
    obtain ⟨hrest, hrestEnds⟩ := ih fun text htext => hends text (List.mem_cons_of_mem _ htext)
    rw [String.join_cons, List.flatten_cons, String.toList_append]
    exact ⟨hhead.append hrest hrestEnds, (hends text List.mem_cons_self).append hrestEnds⟩

end

end GraphMapper.Cypher

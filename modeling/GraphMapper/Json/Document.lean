import GraphMapper.Json.Number

/-!
# JSON documents

The grammar of JSON. A text is first cut into tokens and the tokens are then put together, both one
at a time from the left. The result, a `Document`, keeps the entries of an object in their order,
repeated keys included, and leaves open what a number literal or a string stands for: a literal may
be beyond every number, and a string may escape half of a surrogate pair. `Document.value?` answers
that for a whole document, and `Json.ofText?` reads a text whose every part has a value.
-/

namespace GraphMapper.Json

/-- A piece of a string: a character, or an escaped UTF-16 unit. -/
inductive Piece where
  | char (c : Char)
  | unit (n : Nat)

/-- A token of JSON. The text of a string is missing where its escapes denote no character. -/
inductive Token where
  | openObject
  | closeObject
  | openArray
  | closeArray
  | colon
  | comma
  | null
  | bool (value : Bool)
  | number (literal : NumberLiteral)
  | string (text : Option String)

/-- Where a scan stands between two characters. Pieces and letters are in reverse order. -/
inductive Scan where
  | between
  | word (letters : List Char)
  | number (letters : List Char)
  | string (pieces : List Piece)
  | escape (pieces : List Piece)
  | hex (pieces : List Piece) (count value : Nat)

/-- The text of a string from its pieces: two units of a surrogate pair make one character, and a
unit of a pair that stands alone makes none. -/
def pieceText : List Piece → Option (List Char)
  | [] => some []
  | .char c :: rest => (pieceText rest).map (c :: ·)
  | .unit n :: rest =>
    -- The units from D800 to DFFF are the halves of pairs.
    if n < 0xD800 ∨ 0xDFFF < n then (pieceText rest).map (Char.ofNat n :: ·)
    else match rest with
      | .unit m :: rest =>
        if n < 0xDC00 ∧ 0xDC00 ≤ m ∧ m ≤ 0xDFFF then
          (pieceText rest).map (Char.ofNat (0x10000 + (n - 0xD800) * 0x400 + (m - 0xDC00)) :: ·)
        else none
      | _ => none

/-- The token that a word is. -/
def wordToken? (letters : List Char) : Option Token :=
  match String.ofList letters.reverse with
  | "null" => some .null
  | "true" => some (.bool true)
  | "false" => some (.bool false)
  | _ => none

/-- The token that ends when a scan reaches a character that is not part of it, or the end. -/
def Scan.pending? : Scan → Option (Option Token)
  | .between => some none
  | .word letters => (wordToken? letters).map some
  | .number letters => (NumberLiteral.ofChars? letters.reverse).map fun n => some (.number n)
  | _ => none

/-- Whether a character can be part of a number. -/
def isNumberChar (c : Char) : Bool :=
  c.isDigit || c = '-' || c = '+' || c = '.' || c = 'e' || c = 'E'

/-- What begins at a character, and the token it is if it is one by itself. -/
def start? (c : Char) : Option (Scan × Option Token) :=
  if c = ' ' ∨ c = '\t' ∨ c = '\n' ∨ c = '\r' then some (.between, none)
  else if c = '\x7b' then some (.between, some .openObject)
  else if c = '\x7d' then some (.between, some .closeObject)
  else if c = '[' then some (.between, some .openArray)
  else if c = ']' then some (.between, some .closeArray)
  else if c = ':' then some (.between, some .colon)
  else if c = ',' then some (.between, some .comma)
  else if c = '"' then some (.string [], none)
  else if c = '-' ∨ c.isDigit then some (.number [c], none)
  else if c.isLower then some (.word [c], none)
  else none

/-- The character that a letter behind a backslash stands for. -/
def escapeChar? (c : Char) : Option Char :=
  if c = '"' ∨ c = '\\' ∨ c = '/' then some c
  else if c = 'b' then some '\x08'
  else if c = 'f' then some '\x0c'
  else if c = 'n' then some '\n'
  else if c = 'r' then some '\r'
  else if c = 't' then some '\t'
  else none

/-- The value of a hexadecimal digit. -/
def hexValue? (c : Char) : Option Nat :=
  if c.isDigit then some (Text.digitValue c)
  else if 'a' ≤ c ∧ c ≤ 'f' then some (c.toNat - 'a'.toNat + 10)
  else if 'A' ≤ c ∧ c ≤ 'F' then some (c.toNat - 'A'.toNat + 10)
  else none

/-- A scan after one more character, behind the tokens found so far, the last one first. -/
def scanStep (state : Scan × List Token) (c : Char) : Option (Scan × List Token) :=
  let restart (scan : Scan) (tokens : List Token) : Option (Scan × List Token) := do
    let pending ← scan.pending?
    let (next, token) ← start? c
    return (next, token.toList ++ pending.toList ++ tokens)
  match state with
  | (.string pieces, tokens) =>
    if c = '"' then
      some (.between, .string ((pieceText pieces.reverse).map String.ofList) :: tokens)
    else if c = '\\' then some (.escape pieces, tokens)
    else if c.toNat < 0x20 then none
    else some (.string (.char c :: pieces), tokens)
  | (.escape pieces, tokens) =>
    if c = 'u' then some (.hex pieces 0 0, tokens)
    else (escapeChar? c).map fun e => (.string (.char e :: pieces), tokens)
  | (.hex pieces count value, tokens) =>
    (hexValue? c).map fun d =>
      if count = 3 then (.string (.unit (16 * value + d) :: pieces), tokens)
      else (.hex pieces (count + 1) (16 * value + d), tokens)
  | (.word letters, tokens) =>
    if c.isAlpha then some (.word (c :: letters), tokens) else restart (.word letters) tokens
  | (.number letters, tokens) =>
    if isNumberChar c then some (.number (c :: letters), tokens)
    else restart (.number letters) tokens
  | (.between, tokens) => restart .between tokens

/-- The tokens of a text. -/
def tokens? (s : String) : Option (List Token) := do
  let (scan, tokens) ← s.toList.foldlM scanStep (.between, [])
  let pending ← scan.pending?
  return (pending.toList ++ tokens).reverse

/-- A JSON text by its grammar. -/
inductive Document where
  | null
  | bool (value : Bool)
  | number (literal : NumberLiteral)
  | string (text : Option String)
  | array (items : List Document)
  | object (entries : List (Option String × Document))

/-- A container that is still open; what it holds is in reverse order. -/
inductive Frame where
  | array (items : List Document)
  | object (entries : List (Option String × Document))
  | entry (entries : List (Option String × Document)) (key : Option String)

/-- What may come next. -/
inductive Expected where
  | value
  | valueOrClose
  | keyOrClose
  | key
  | colon
  | commaOrClose
  | nothing (document : Document)

/-- The open containers, the innermost first, and what may come next. -/
structure Build where
  frames : List Frame
  expected : Expected

/-- Puts a finished value into the innermost container. -/
def Build.add (frames : List Frame) (document : Document) : Build :=
  match frames with
  | [] => ⟨[], .nothing document⟩
  | .array items :: rest => ⟨.array (document :: items) :: rest, .commaOrClose⟩
  | .entry entries key :: rest => ⟨.object ((key, document) :: entries) :: rest, .commaOrClose⟩
  | .object entries :: rest => ⟨.object entries :: rest, .commaOrClose⟩

/-- The build after a token that begins a value. -/
def Build.value? (frames : List Frame) : Token → Option Build
  | .null => some (.add frames .null)
  | .bool b => some (.add frames (.bool b))
  | .number n => some (.add frames (.number n))
  | .string s => some (.add frames (.string s))
  | .openArray => some ⟨.array [] :: frames, .valueOrClose⟩
  | .openObject => some ⟨.object [] :: frames, .keyOrClose⟩
  | _ => none

/-- The build after a token that closes the innermost container. -/
def Build.close? : List Frame → Token → Option Build
  | .array items :: rest, .closeArray => some (.add rest (.array items.reverse))
  | .object entries :: rest, .closeObject => some (.add rest (.object entries.reverse))
  | _, _ => none

/-- The build after a token that is the key of an entry. -/
def Build.key? : List Frame → Token → Option Build
  | .object entries :: rest, .string key => some ⟨.entry entries key :: rest, .colon⟩
  | _, _ => none

/-- The build after a comma. -/
def Build.comma? : List Frame → Option Build
  | .array items :: rest => some ⟨.array items :: rest, .value⟩
  | .object entries :: rest => some ⟨.object entries :: rest, .key⟩
  | _ => none

/-- The build after one more token. -/
def Build.step (build : Build) (token : Token) : Option Build :=
  match build.expected, token with
  | .value, token => Build.value? build.frames token
  | .valueOrClose, .closeArray => Build.close? build.frames .closeArray
  | .valueOrClose, token => Build.value? build.frames token
  | .keyOrClose, .closeObject => Build.close? build.frames .closeObject
  | .keyOrClose, token => Build.key? build.frames token
  | .key, token => Build.key? build.frames token
  | .colon, .colon => some ⟨build.frames, .value⟩
  | .commaOrClose, .comma => Build.comma? build.frames
  | .commaOrClose, token => Build.close? build.frames token
  | _, _ => none

/-- Reads a document that is the whole text. -/
def Document.ofText? (s : String) : Option Document := do
  let tokens ← tokens? s
  let build ← tokens.foldlM Build.step ⟨[], .value⟩
  match build.expected with
  | .nothing document => some document
  | _ => none

mutual

/-- How deep the containers of a document are nested. -/
def Document.nesting : Document → Nat
  | .array items => 1 + nestingOfItems items
  | .object entries => 1 + nestingOfEntries entries
  | _ => 0

/-- The deepest nesting among the items of an array. -/
def nestingOfItems : List Document → Nat
  | [] => 0
  | item :: rest => max item.nesting (nestingOfItems rest)

/-- The deepest nesting among the entries of an object. -/
def nestingOfEntries : List (Option String × Document) → Nat
  | [] => 0
  | (_, value) :: rest => max value.nesting (nestingOfEntries rest)

end

mutual

/-- The value of a document, if all its parts have one. -/
def Document.value? : Document → Option Json
  | .null => some .null
  | .bool b => some (.bool b)
  | .number literal => literal.value?
  | .string text => text.map .string
  | .array items => (itemValues? items).map .array
  | .object entries => (entryValues? entries).map .object

/-- The values of the items of an array. -/
def itemValues? : List Document → Option (List Json)
  | [] => some []
  | item :: rest => do return (← item.value?) :: (← itemValues? rest)

/-- The values of the entries of an object. -/
def entryValues? : List (Option String × Document) → Option (List (String × Json))
  | [] => some []
  | (key, value) :: rest => do return (← key, ← value.value?) :: (← entryValues? rest)

end

/-- Containers may be nested this deep. -/
def maxNesting : Nat := 127

/-- The value of a document that is not nested too deep. -/
def Document.json? (document : Document) : Option Json :=
  if document.nesting ≤ maxNesting then document.value? else none

/-- Reads a value that is the whole text. -/
def ofText? (s : String) : Option Json :=
  (Document.ofText? s).bind Document.json?

end GraphMapper.Json

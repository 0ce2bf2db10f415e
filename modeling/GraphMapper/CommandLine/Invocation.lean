import GraphMapper.CommandLine.Help

/-!
# Invocations

The arguments of the program are read from the left: options of the program, the command, and its
options. An option has its value behind an equals sign or in the next argument, which then begins
with no hyphen unless it is a single one. The first argument that asks for help, asks for the
version or is out of place decides.

A value in an argument of its own waits: it is looked at when another option follows, or at the end.
A command does not end the wait, so the options before it may be at fault and its help is given.
-/

namespace GraphMapper.CommandLine

/-- What is asked of the mapper. -/
inductive Command where
  | eager (model : String)
  | write (mode : WriteMode) (model payload : String)
  | delete (model : String) (identity : Identity) (depth : Option Nat)
  | deleteAll (model : String)
  | installSchema
  | dropSchema

/-- A well-formed list of arguments. -/
structure Invocation where
  schema : Option String
  config : Option String
  format : OutputFormat
  command : Command

/-- Why there is nothing to carry out. -/
inductive Stop where
  /-- The arguments ask for a text. -/
  | text (text : String)
  /-- The arguments are out of place. -/
  | usage

/-- An argument by its form. -/
inductive Argument where
  | option (word : String) (value : Option String)
  | letter (c : Char)
  | endOfOptions
  | plain

/-- The argument before and behind its first equals sign. -/
def splitAtEquals (cs : List Char) : String × Option String :=
  match cs.span (· ≠ '=') with
  | (word, []) => (String.ofList word, none)
  | (word, _ :: value) => (String.ofList word, some (String.ofList value))

/-- The form of an argument. Of several letters behind one hyphen the first one counts. -/
def Argument.ofText (s : String) : Argument :=
  match s.toList with
  | ['-', '-'] => .endOfOptions
  | '-' :: '-' :: rest => let (word, value) := splitAtEquals rest; .option word value
  | '-' :: c :: _ => .letter c
  | _ => .plain

/-- Whether an argument can be the value of the option before it. -/
def isValue (s : String) : Bool :=
  match Argument.ofText s with
  | .plain => true
  | _ => false

/-- The text that `--help` asks for. -/
def helpFor : Option CommandName → String
  | none => programHelp
  | some command => commandHelp command

/-- What follows the word `help`: a command or nothing. -/
def helpOn : List String → Stop
  | [] => .text programHelp
  | [word] =>
    if word = "help" then .text helpHelp
    else match CommandName.ofWord? word with
      | some command => .text (commandHelp command)
      | none => .usage
  | _ => .usage

/-- An option without a value asks for a text, or is out of place. -/
def stopAt (command : Option CommandName) (word : String) : Stop :=
  if word = "help" then .text (helpFor command)
  else if word = "version" ∧ command = none then .text versionLine
  else .usage

/-- A letter asks for a text, or is out of place. -/
def stopAtLetter (command : Option CommandName) (c : Char) : Stop :=
  if c = 'h' then .text (helpFor command)
  else if c = 'V' ∧ command = none then .text versionLine
  else .usage

/-- The options read so far. The last of them may wait with its value. -/
structure Reading where
  options : Options := {}
  waiting : Option (OptionName × String) := none

/-- The options after the one that waits is added, if it can be. -/
def Reading.settle (reading : Reading) : Except Stop Options :=
  match reading.waiting with
  | none => .ok reading.options
  | some (name, value) =>
    match reading.options.add? name value with
    | some options => .ok options
    | none => .error .usage

/-- Reads options up to the command, or to the end if there is a command already. -/
def readOptions (command : Option CommandName) (reading : Reading) :
    List String → Except Stop (Reading × Option (CommandName × List String))
  | [] => .ok (reading, none)
  | argument :: rest =>
    match Argument.ofText argument with
    | .endOfOptions => if command.isSome ∧ rest = [] then .ok (reading, none) else .error .usage
    | .letter c => do
      let _ ← reading.settle
      throw (stopAtLetter command c)
    | .plain =>
      if command.isSome then .error .usage
      else if argument = "help" then .error (helpOn rest)
      else match CommandName.ofWord? argument with
        | some found => .ok (reading, some (found, rest))
        | none => .error .usage
    -- The value stands behind the equals sign if there is one, else in the next argument.
    | .option word value => do
      let options ← reading.settle
      match (OptionName.ofWord? word).filter (OptionName.isAllowed command), value, rest with
      | none, none, _ => throw (stopAt command word)
      | none, some _, _ => throw .usage
      | some name, some value, rest =>
        readOptions command { options := ← Reading.settle ⟨options, some (name, value)⟩ } rest
      | some _, none, [] => throw .usage
      | some name, none, value :: rest =>
        if isValue value then readOptions command ⟨options, some (name, value)⟩ rest
        else throw .usage

/-- What a command asks with its options; nothing if one is missing. -/
def Command.ofOptions? (options : Options) : CommandName → Option Command
  | .eager => do return .eager (← options.model)
  | .create => do return .write .create (← options.model) (← options.payload)
  | .merge => do return .write .merge (← options.model) (← options.payload)
  | .delete => do return .delete (← options.model) (← options.identity) options.depth
  | .deleteAll => do return .deleteAll (← options.model)
  | .installSchema => some .installSchema
  | .dropSchema => some .dropSchema

/-- Reads the arguments. What stands behind the command prevails over what stands before it. -/
def Invocation.ofArguments (arguments : List String) : Except Stop Invocation := do
  let (outer, found) ← readOptions none {} arguments
  match found with
  | none => throw .usage
  | some (name, rest) =>
    let (inner, _) ← readOptions (some name) {} rest
    let inner ← inner.settle
    let outer ← outer.settle
    match Command.ofOptions? inner name with
    | none => throw .usage
    | some command =>
      return {
        schema := inner.schema <|> outer.schema
        config := inner.config <|> outer.config
        format := (inner.format <|> outer.format).getD .json
        command := command }

end GraphMapper.CommandLine

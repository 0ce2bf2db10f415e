import GraphMapper.CommandLine.Options
import GraphMapper.Text.Joined

/-!
# Help texts

What the program prints when it is asked for help or for its version.
-/

namespace GraphMapper.CommandLine

/-- The name of the program. -/
def programName : String := "nervusdb-ogm"

/-- The line with name and version. -/
def versionLine : String := programName ++ " 0.1.0\n"

/-- What a command is for. -/
def CommandName.purpose : CommandName → String
  | .eager => "Print the eager projection returned for a model"
  | .create => "Compile a nested create"
  | .merge => "Compile a nested merge"
  | .delete => "Compile a cascading delete of one node"
  | .deleteAll => "Compile a delete of every node of a model"
  | .installSchema => "List the constraint and index statements for the schema"
  | .dropSchema => ""

/-- What an option is for. -/
def OptionName.purpose : OptionName → String
  | .schema => "JSON schema document declaring every model"
  | .config => "JSON file overriding depth limits and the overflow policy"
  | .format => "[default: json] [possible values: json, cypher]"
  | .model => ""
  | .payload =>
    "Payload as a JSON object (e.g. '\x7b\"name\":\"alice\",\"employer\":\"Acme\"\x7d')"
  | .identity => "Identity of the node to delete"
  | .depth => "Overrides the configured cascade depth"

/-- An option with the name of its value. -/
def OptionName.usage (name : OptionName) : String :=
  let valueName := name.word.toList.map fun c => if c = '-' then '_' else c.toUpper
  "--" ++ name.word ++ " <" ++ String.ofList valueName ++ ">"

/-- Two columns, the second one aligned. -/
def columns (rows : List (String × String)) : String :=
  let width := rows.foldl (fun width row => max width row.1.length) 0
  String.join (rows.map fun row =>
    "  " ++ row.1 ++ String.ofList (List.replicate (width - row.1.length) ' ') ++ "  " ++ row.2
      ++ "\n")

/-- The options, for a command or for the program as a whole, and what they are for. -/
def optionColumns (command : Option CommandName) (more : List (String × String)) : String :=
  let names := OptionName.all.filter (OptionName.isAllowed command)
  columns (names.map (fun name => ("    " ++ name.usage, name.purpose)) ++ more)

/-- The row of the help option. -/
def helpRow : String × String := ("-h, --help", "Print help")

/-- What the help command is for. -/
def helpPurpose : String := "Print this message or the help of the given subcommand(s)"

/-- The help for the program as a whole. -/
def programHelp : String :=
  "Usage: " ++ programName ++ " [OPTIONS] <COMMAND>\n\nCommands:\n"
    ++ columns (CommandName.all.map (fun command => (command.word, command.purpose))
      ++ [("help", helpPurpose)])
    ++ "\nOptions:\n"
    ++ optionColumns none [helpRow, ("-V, --version", "Print version")]

/-- The help for a command. -/
def commandHelp (command : CommandName) : String :=
  let required := (OptionName.ownOf command).filter fun name => name ≠ .depth
  (if command.purpose = "" then "" else command.purpose ++ "\n\n")
    ++ "Usage: " ++ Text.joined " " (programName :: command.word :: "[OPTIONS]"
      :: required.map OptionName.usage)
    ++ "\n\nOptions:\n" ++ optionColumns (some command) [helpRow]

/-- The help for the help command. -/
def helpHelp : String :=
  helpPurpose ++ "\n\nUsage: " ++ programName ++ " help [COMMAND]...\n\nArguments:\n"
    ++ columns [("[COMMAND]...", "Print help for the subcommand(s)")]

end GraphMapper.CommandLine

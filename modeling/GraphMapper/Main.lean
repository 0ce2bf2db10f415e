import GraphMapper.CommandLine.Run

/-!
# The program

Reads the files that the command line names, draws the seed of fresh identifiers, and prints what
`CommandLine.run` comes to.
-/

namespace GraphMapper

/-- The text of a file, if it can be read. -/
def readText? (path : String) : IO (Option String) := do
  try return some (← IO.FS.readFile path) catch _ => return none

/-- The texts of all files that the arguments may name. -/
def readFiles (paths : List String) : IO CommandLine.Files := do
  let texts ← paths.mapM fun path => return (path, ← readText? path)
  return fun path => (texts.find? fun entry => entry.1 = path).bind Prod.snd

/-- What is said of malformed texts. -/
def terse : Diagnosis := fun _ _ => "malformed text"

/-- A supply of identifiers from random bytes. -/
def randomSupply : IO Supply := do
  let bytes ← IO.getRandomBytes 16
  let seed := bytes.foldl (fun n byte => n * 256 + byte.toNat) 0
  return { uuids := fun n => Uuid.version4 (BitVec.ofNat 128 seed + BitVec.ofNat 128 n) }

end GraphMapper

open GraphMapper in
/-- Runs the program. -/
def main (arguments : List String) : IO UInt32 := do
  let paths := match CommandLine.Invocation.ofArguments arguments with
    | .ok invocation => invocation.schema.toList ++ invocation.config.toList
    | .error _ => []
  let report := CommandLine.run terse (← readFiles paths) (← randomSupply) arguments
  IO.print report.output
  IO.eprint report.error
  return report.code.toUInt32

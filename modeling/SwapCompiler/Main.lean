import SwapCompiler.CommandLine.Run

/-!
# The command

Reads the input and the directory file, runs, and prints.
-/

namespace SwapCompiler.CommandLine

/-- All bytes of a stream. -/
partial def readAll (stream : IO.FS.Stream) (seen : ByteArray) : IO ByteArray := do
  let chunk ← stream.read 65536
  if chunk.isEmpty then return seen else readAll stream (seen ++ chunk)

/-- The text of a file, if it can be read. -/
def readFile? (path : String) : IO (Option String) := do
  try
    let content ← IO.FS.readFile path
    return some content
  catch _ => return none

/-- The text that explains the arguments. -/
def usage : String :=
  "Compile a price route into executor bytecode\n\n" ++
  "Usage: swap-compiler [OPTIONS]\n\n" ++
  "Options:\n" ++
  "  -c, --chain <CHAIN>              Chain whose executor configuration is used\n" ++
  "      --config-path <CONFIG_PATH>  Path to a JSON file with the executor configuration\n" ++
  "  -h, --help                       Print help\n"

end SwapCompiler.CommandLine

open SwapCompiler.CommandLine

/-- Ends with the exit code of the run. -/
def main (arguments : List String) : IO UInt32 := do
  let outcome ←
    match Arguments.ofList .empty arguments with
    | .run choices => do
        let input ← readAll (← IO.getStdin) ByteArray.empty
        let content ←
          match choices.directory with
          | some path => readFile? path
          | none => pure none
        pure (answer choices input fun _ => content)
    | _ => pure (run arguments ByteArray.empty fun _ => none)
  match outcome with
  | .answer line => IO.print line
  | .complaint cause => IO.eprintln ("Error: " ++ cause.message)
  | .abandoned fault => IO.eprintln fault.message
  | .wrongArguments => IO.eprintln ("error: wrong arguments\n\n" ++ usage)
  | .help => IO.print usage
  return outcome.code

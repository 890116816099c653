import SwapCompiler.Fault
import SwapCompiler.Form.Network
import SwapCompiler.Json.Read

/-!
# Directories of networks

A directory file is a JSON object from chain names to networks.  Every entry
must be a network, also those of chains that are not asked for; of two entries
with one name the later counts.
-/

namespace SwapCompiler

/-- A file that a user named. -/
inductive DirectoryFile
  | unreadable
  | text (content : String)
  deriving DecidableEq

namespace DirectoryFile

/-- The entries of a JSON value, in order; they are read as the file goes by. -/
def entries? : Json → Option (List (String × Network))
  | .object members => members.mapM fun (name, value) => do
      let name ← name
      let network ← Form.network? .streamed value
      some (name, network)
  | _ => none

/-- The fault of a file that is no directory, with what is reported of it. -/
def refused (report : String) : Fault :=
  .directoryUnreadable (Json.Diagnosis.ofText report).message

/-- The network that a file lists for a chain. -/
def network (file : DirectoryFile) (chain : Chain) : Except Fault Network :=
  match file with
  | unreadable => .error (.directoryUnreadable "Error reading executor config file")
  | text content =>
      match (Json.read? content.toList).bind entries? with
      | none => .error (refused "Executor config file is no map of chains")
      | some entries =>
          match entries.reverse.lookup chain.name with
          | some network => .ok network
          | none => .error (.chainUnlisted chain)

end DirectoryFile

end SwapCompiler

import SwapCompiler.CommandLine.Arguments
import SwapCompiler.Form.Request
import SwapCompiler.Json.Write
import SwapCompiler.Network.Setup
import SwapCompiler.Text.Blank

/-!
# A run of the command

A run reads its arguments, then its input, then the request in the input, then
the directory file, and compiles.  The first of these that fails decides the
outcome.  The transaction is answered in one line.
-/

namespace SwapCompiler.CommandLine

/-- Why a run with right arguments has no answer. -/
inductive Complaint
  /-- The input is no UTF-8 text. -/
  | unreadableInput
  /-- The input is blank. -/
  | noInput
  /-- The input is no request. -/
  | noRequest
  | fault (fault : Fault)
  deriving DecidableEq

/-- The complaint in words. -/
def Complaint.message : Complaint → String
  | unreadableInput => "Failed to read from stdin: stream did not contain valid UTF-8"
  | noInput => "No input provided. Expected a JSON request on stdin (see --help)"
  | noRequest => "The input is not a request"
  | fault cause => cause.message

/-- How a run ends. -/
inductive Outcome
  /-- With one line of output. -/
  | answer (line : String)
  | complaint (cause : Complaint)
  /-- In the middle of building a call. -/
  | abandoned (fault : Fault)
  | wrongArguments
  | help
  deriving DecidableEq

namespace Outcome

/-- The exit code. -/
def code : Outcome → UInt32
  | answer _ | help => 0
  | complaint _ => 1
  | wrongArguments => 2
  | abandoned _ => 101

/-- A fault as the end of a run. -/
def ofFault (fault : Fault) : Outcome :=
  if fault.kind = .abandoned then abandoned fault else complaint (.fault fault)

end Outcome

/-- The directory file of a choice; `files` gives the text of every readable
file. -/
def Choices.file (choices : Choices) (files : String → Option String) :
    Option DirectoryFile :=
  choices.directory.map fun path =>
    match files path with
    | some content => .text content
    | none => .unreadable

/-- The transaction of a request. -/
def compile (choices : Choices) (files : String → Option String) (request : Request) :
    Except Fault Transaction := do
  let network ← Setup.resolve ⟨some choices.chainOrDefault, choices.file files, none⟩
  Job.transaction { toRequest := request, network := network }

/-- The request in a text. -/
def request (text : List Char) : Except Complaint Request :=
  if Text.isBlankText text then .error .noInput
  else
    match (Json.read? text).bind (Form.request? .streamed) with
    | some request => .ok request
    | none => .error .noRequest

/-- The end of a run with the given options. -/
def answer (choices : Choices) (input : ByteArray) (files : String → Option String) : Outcome :=
  match String.fromUTF8? input with
  | none => .complaint .unreadableInput
  | some text =>
      match request text.toList with
      | .error cause => .complaint cause
      | .ok request =>
          match compile choices files request with
          | .error fault => .ofFault fault
          | .ok transaction =>
              .answer (String.ofList (Json.write (Form.ofTransaction transaction)) ++ "\n")

/-- The end of a run. -/
def run (arguments : List String) (input : ByteArray) (files : String → Option String) :
    Outcome :=
  match Arguments.ofList .empty arguments with
  | .wrong => .wrongArguments
  | .help => .help
  | .run choices => answer choices input files

end SwapCompiler.CommandLine

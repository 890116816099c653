import SwapCompiler.Chain

/-!
# Command-line arguments

Two options, each with a value and given at most once:

* `--chain NAME`, `--chain=NAME`, `-c NAME`, `-cNAME` or `-c=NAME`;
* `--config-path PATH` or `--config-path=PATH`.

A value of its own does not start with a dash, except for a lone dash.  `--help`
and `-h` ask for help.  `--` ends the options, and nothing may follow it.
-/

namespace SwapCompiler.CommandLine

/-- The two options. -/
inductive Choice
  | chain
  | directory
  deriving DecidableEq, Repr

/-- What one argument says. -/
inductive Word
  /-- An option, perhaps with its value attached. -/
  | choice (choice : Choice) (attached : Option String)
  | help
  | endOfChoices
  | other
  deriving DecidableEq, Repr

/-- What follows `head` in a text that starts with it. -/
def rest? : List Char → List Char → Option (List Char)
  | [], text => some text
  | _ :: _, [] => none
  | h :: head, c :: text => if h = c then rest? head text else none

/-- A value attached to a long option. -/
def attached? : List Char → Option (Option String)
  | [] => some none
  | '=' :: value => some (some (String.ofList value))
  | _ => none

/-- What one argument says. -/
def Word.of (argument : String) : Word :=
  let text := argument.toList
  if argument = "--" then endOfChoices
  else if argument = "--help" then help
  else
    match (rest? "--chain".toList text).bind attached?,
        (rest? "--config-path".toList text).bind attached? with
    | some value, _ => choice .chain value
    | none, some value => choice .directory value
    | none, none =>
        match text with
        | '-' :: 'h' :: _ => help
        | ['-', 'c'] => choice .chain none
        | '-' :: 'c' :: '=' :: value => choice .chain (some (String.ofList value))
        | '-' :: 'c' :: value => choice .chain (some (String.ofList value))
        | _ => other

/-- The argument may stand as the value of the option in front of it. -/
def isValue (argument : String) : Bool :=
  argument = "-" || argument.toList.head? != some '-'

/-- The options that were given. -/
structure Choices where
  chain : Option Chain
  directory : Option String
  deriving DecidableEq

/-- What the arguments ask for. -/
inductive Arguments
  | run (choices : Choices)
  | help
  /-- They follow no rule above. -/
  | wrong
  deriving DecidableEq

namespace Choices

/-- Nothing is given. -/
def empty : Choices :=
  ⟨none, none⟩

/-- Takes one option with its value; an option is taken once, and a chain must
be known. -/
def take (choices : Choices) (choice : Choice) (value : String) : Option Choices :=
  match choice with
  | .chain =>
      match choices.chain, Chain.parse? value with
      | none, some chain => some { choices with chain := some chain }
      | _, _ => none
  | .directory =>
      match choices.directory with
      | none => some { choices with directory := some value }
      | some _ => none

/-- The chain to compile for: the first one unless another was given. -/
def chainOrDefault (choices : Choices) : Chain :=
  choices.chain.getD .ethereum

end Choices

/-- Reads arguments one after the other; the first that is wrong, or that asks
for help, decides. -/
def Arguments.ofList : Choices → List String → Arguments
  | choices, [] => .run choices
  | choices, argument :: rest =>
      match Word.of argument, rest with
      | .help, _ => .help
      | .endOfChoices, [] => .run choices
      | .choice choice (some value), rest =>
          match choices.take choice value with
          | some choices => ofList choices rest
          | none => .wrong
      | .choice choice none, value :: rest =>
          if isValue value then
            match choices.take choice value with
            | some choices => ofList choices rest
            | none => .wrong
          else .wrong
      | _, _ => .wrong

end SwapCompiler.CommandLine

import SwapCompiler.Bytes.BigEndian
import SwapCompiler.Json.Token

/-!
# Diagnoses

Why a JSON text or value is refused: a reason in words, and the place of the
fault in the text, by line and column.  Lines count from one, so line zero
stands for a place that is not known, and the diagnosis is its reason alone.

A report from elsewhere may end in a place of its own, as in
`no address at line 3 column 7`.  `Diagnosis.ofText` takes that place as the
diagnosis's place, so that it is written once and in one way.
-/

namespace SwapCompiler.Json

/-- A reason and a place. -/
structure Diagnosis where
  reason : String
  line : Nat
  column : Nat
  deriving DecidableEq, Repr

namespace Diagnosis

/-- The number that ends a text and what stands before it, with the text given
last character first.  It has at least one digit and fits in eight bytes. -/
def numberAtEnd? (reversed : List Char) : Option (Nat × List Char) := do
  let (run, before) ← digits? reversed
  let value := natOfDigits run.reverse
  if value < Bytes.capacity 8 then some (value, before) else none

/-- What stands before a phrase that ends a text, with the text given last
character first. -/
def beforePhrase? (phrase : String) (reversed : List Char) : Option (List Char) :=
  phrase.toList.reverse.isPrefixOf? reversed

/-- The diagnosis of a text that ends in a place, with the text given last
character first. -/
def ofReversed? (reversed : List Char) : Option Diagnosis := do
  let (column, before) ← numberAtEnd? reversed
  let before ← beforePhrase? " column " before
  let (line, before) ← numberAtEnd? before
  let before ← beforePhrase? " at line " before
  some ⟨String.ofList before.reverse, line, column⟩

/-- The diagnosis that a report gives; without a place it is all reason. -/
def ofText (report : String) : Diagnosis :=
  (ofReversed? report.toList.reverse).getD ⟨report, 0, 0⟩

/-- The reason, and the place if it is known. -/
def message (d : Diagnosis) : String :=
  if d.line = 0 then d.reason else d.reason ++ s!" at line {d.line} column {d.column}"

end Diagnosis

end SwapCompiler.Json

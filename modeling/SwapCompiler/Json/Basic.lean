import SwapCompiler.Decimal.Basic

/-!
# JSON values

Requests, configurations and answers are JSON.  A value keeps what later
readers distinguish:

* whether a number was written as an integer (`7`) or not (`7.0`, `7e0`);
* every member of an object, in order, repeated names included;
* that a string held half of a surrogate pair, and so denotes no text: such a
  string is `none`, which harms only those who read it;
* that an array ended in a comma: its last item is then a `gap`, which is no
  value and which no reader takes for one.
-/

namespace SwapCompiler

/-- A JSON number: an integer literal, or a literal with a point or exponent. -/
inductive Json.Number
  | integer (negative : Bool) (magnitude : Nat)
  | scientific (value : Decimal)
  deriving DecidableEq, Repr

/-- A JSON value. -/
inductive Json
  | null
  | bool (value : Bool)
  | number (value : Json.Number)
  | string (content : Option String)
  | array (items : List Json)
  | object (members : List (Option String × Json))
  /-- Nothing, where an array has a comma but no further item. -/
  | gap
  deriving Inhabited

namespace Json

/-- How a value reaches those who read it. -/
inductive Reading
  /-- Piece by piece, as its text goes by. -/
  | streamed
  /-- As a whole, after the end of its text. -/
  | parsed
  deriving DecidableEq, Repr

/-- A string that denotes the given text. -/
def text (content : String) : Json :=
  .string (some content)

/-- A natural number as an integer literal. -/
def nat (value : Nat) : Json :=
  .number (.integer false value)

/-- An object with the given members. -/
def ofMembers (members : List (String × Json)) : Json :=
  .object (members.map fun (name, value) => (some name, value))

/-- The text of a string. -/
def text? : Json → Option String
  | .string content => content
  | _ => none

/-- A truth value. -/
def bool? : Json → Option Bool
  | .bool value => some value
  | _ => none

/-- The items of an array. -/
def items? : Json → Option (List Json)
  | .array items => some items
  | _ => none

/-- A natural number written as an integer literal without a sign. -/
def nat? : Json → Option Nat
  | .number (.integer false magnitude) => some magnitude
  | _ => none

/-- A number below 256 written as an integer literal without a sign. -/
def byte? (value : Json) : Option UInt8 := do
  let magnitude ← value.nat?
  if magnitude < 256 then some (UInt8.ofNat magnitude) else none

/-- A reader that looks for one more byte at this item finds none and goes on
behind it.  While the text goes by it cannot get past a container, of which it
has seen the first mark only, nor past a string that it cannot decode. -/
def Reading.passes (reading : Reading) (item : Json) : Bool :=
  match reading, item with
  | .streamed, .array _ | .streamed, .object _ | .streamed, .string none => false
  | _, item => item.byte?.isNone

/-- The decimal that a number literal denotes. -/
def Number.decimal : Number → Decimal
  | .integer negative magnitude => ⟨negative, magnitude, 0⟩
  | .scientific value => value

/-- The double nearest to a number, if it is finite. -/
def float? : Json → Option Float
  | .number value => value.decimal.toFloat?
  | _ => none

end Json

end SwapCompiler

import SwapCompiler.Json.Token

/-!
# Reading JSON

The tokens of a text are built into a value by one pass, with the containers
that are still open kept in a list, innermost first.  Nesting of any depth is
read without deep recursion.

A comma before the closing bracket of an array leaves a `gap` there; it is for
the readers of values to refuse it.
-/

namespace SwapCompiler.Json

/-- A container that is still open; what it holds so far, last first. -/
inductive Unclosed
  | array (items : List Json)
  | object (members : List (Option String × Json))
  /-- An object that waits for the value of a name. -/
  | member (members : List (Option String × Json)) (name : Option String)

/-- What may come next. -/
inductive Expect
  | value
  /-- After `[`. -/
  | valueOrClose
  /-- After a value inside a container. -/
  | commaOrClose
  /-- After `{`. -/
  | nameOrClose
  /-- After a comma inside an object. -/
  | name
  | colon (name : Option String)
  /-- The text is complete. -/
  | nothing (value : Json)

/-- Puts a finished value into the innermost open container. -/
def deliver (value : Json) : List Unclosed → Option (Expect × List Unclosed)
  | [] => some (.nothing value, [])
  | .array items :: outer => some (.commaOrClose, .array (value :: items) :: outer)
  | .member members name :: outer =>
      some (.commaOrClose, .object ((name, value) :: members) :: outer)
  | .object _ :: _ => none

/-- A token where a value must start. -/
def startValue (stack : List Unclosed) : Token → Option (Expect × List Unclosed)
  | .word value => deliver value stack
  | .string content => deliver (.string content) stack
  | .openBracket => some (.valueOrClose, .array [] :: stack)
  | .openBrace => some (.nameOrClose, .object [] :: stack)
  | _ => none

/-- One token of a text. -/
def takeToken : Expect × List Unclosed → Token → Option (Expect × List Unclosed)
  | (.value, .array items :: outer), .closeBracket =>
      deliver (.array (gap :: items).reverse) outer
  | (.value, stack), token => startValue stack token
  | (.valueOrClose, .array [] :: outer), .closeBracket => deliver (.array []) outer
  | (.valueOrClose, stack), token => startValue stack token
  | (.commaOrClose, .array items :: outer), .comma => some (.value, .array items :: outer)
  | (.commaOrClose, .array items :: outer), .closeBracket =>
      deliver (.array items.reverse) outer
  | (.commaOrClose, .object members :: outer), .comma => some (.name, .object members :: outer)
  | (.commaOrClose, .object members :: outer), .closeBrace =>
      deliver (.object members.reverse) outer
  | (.nameOrClose, .object [] :: outer), .closeBrace => deliver (.object []) outer
  | (.nameOrClose, stack), .string content => some (.colon content, stack)
  | (.name, stack), .string content => some (.colon content, stack)
  | (.colon name, .object members :: outer), .colon =>
      some (.value, .member members name :: outer)
  | _, _ => none

/-- The value that a list of tokens spells. -/
def ofTokens? (tokens : List Token) : Option Json :=
  match tokens.foldlM takeToken (Expect.value, []) with
  | some (.nothing value, _) => some value
  | _ => none

/-- The value of a text that holds one value and blanks around it. -/
def read? (text : List Char) : Option Json :=
  (tokens? text).bind ofTokens?

end SwapCompiler.Json

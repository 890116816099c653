import SwapCompiler.Json.Basic
import SwapCompiler.Bytes.Hex

/-!
# Writing JSON

The compact form: no blanks, members in order.  Characters below the space, the
quote and the backslash are escaped, every other character stands for itself.
-/

namespace SwapCompiler.Json

/-- A character inside a string. -/
def writeChar (c : Char) : List Char :=
  if c = '"' then ['\\', '"']
  else if c = '\\' then ['\\', '\\']
  else if c.toNat < 0x20 then
    ['\\', 'u', '0', '0', Bytes.Hex.digit (c.toNat / 16), Bytes.Hex.digit (c.toNat % 16)]
  else [c]

/-- A string in quotes.  A string that denotes no text is written as half of a
surrogate pair. -/
def writeString : Option String → List Char
  | some content => '"' :: content.toList.flatMap writeChar ++ ['"']
  | none => ['"', '\\', 'u', 'd', '8', '0', '0', '"']

/-- A number literal of the same kind: without point and exponent exactly if it
is an integer literal. -/
def writeNumber : Number → List Char
  | .integer negative magnitude =>
      (if negative then ['-'] else []) ++ Decimal.digits magnitude
  | .scientific value =>
      if value.exponent < 0 then value.text.toList
      else
        (if value.negative then ['-'] else []) ++ Decimal.digits value.coefficient ++
          'e' :: Decimal.digits value.exponent.toNat

mutual

/-- A value in the compact form. -/
def write : Json → List Char
  | .gap => []
  | .null => ['n', 'u', 'l', 'l']
  | .bool true => ['t', 'r', 'u', 'e']
  | .bool false => ['f', 'a', 'l', 's', 'e']
  | .number value => writeNumber value
  | .string content => writeString content
  | .array items => '[' :: writeItems items ++ [']']
  | .object members => '\x7b' :: writeMembers members ++ ['\x7d']

/-- Values with commas between them. -/
def writeItems : List Json → List Char
  | [] => []
  | [item] => write item
  | item :: next :: rest => write item ++ ',' :: writeItems (next :: rest)

/-- Named values with commas between them. -/
def writeMembers : List (Option String × Json) → List Char
  | [] => []
  | [(name, value)] => writeString name ++ ':' :: write value
  | (name, value) :: next :: rest =>
      writeString name ++ ':' :: (write value ++ ',' :: writeMembers (next :: rest))

end

end SwapCompiler.Json

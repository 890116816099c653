import SwapCompiler.Json.Basic
import SwapCompiler.Bytes.Hex

/-!
# The tokens of a JSON text

A text is cut into marks, strings and bare words by one pass over its
characters.  `Scan` is the state of that pass; `Scan.step` takes it over one
character and fails on a character that cannot stand there.

* Between tokens only space, tab, line feed and carriage return may stand.
* A bare word is a longest run of letters, digits, signs and points; it must be
  `null`, `true`, `false` or a number literal.
* A string is collected as code points and escaped code units; a high and a low
  surrogate that follow each other are one character, any other surrogate makes
  the string denote no text.
-/

namespace SwapCompiler.Json

/-- A mark, a string, or a bare word with its value. -/
inductive Token
  | openBrace
  | closeBrace
  | openBracket
  | closeBracket
  | comma
  | colon
  | string (content : Option String)
  | word (value : Json)

namespace Token

/-- The token of a mark. -/
def ofMark? : Char → Option Token
  | '{' => some openBrace
  | '}' => some closeBrace
  | '[' => some openBracket
  | ']' => some closeBracket
  | ',' => some comma
  | ':' => some colon
  | _ => none

end Token

/-- The characters allowed between tokens. -/
def isSpace (c : Char) : Bool :=
  c = ' ' || c = '\t' || c = '\n' || c = '\r'

/-- The characters of bare words. -/
def isWordChar (c : Char) : Bool :=
  c.isAlphanum || c = '+' || c = '-' || c = '.'

/-- The number that a run of decimal digits denotes. -/
def natOfDigits (digits : List Char) : Nat :=
  digits.foldl (fun value c => value * 10 + (c.toNat - 48)) 0

/-- A nonempty run of digits at the front, and what follows it. -/
def digits? (text : List Char) : Option (List Char × List Char) :=
  match text.takeWhile Char.isDigit with
  | [] => none
  | run => some (run, text.dropWhile Char.isDigit)

/-- The digits of a fraction, if a point announces one, and what follows. -/
def fraction? : List Char → Option (List Char × List Char)
  | '.' :: rest => digits? rest
  | rest => some ([], rest)

/-- The number that a text of digits only denotes. -/
def allDigits? (text : List Char) : Option Nat :=
  if text ≠ [] ∧ text.all Char.isDigit then some (natOfDigits text) else none

/-- The exponent after its mark: perhaps a sign, then digits. -/
def power? : List Char → Option Int
  | '-' :: rest => (allDigits? rest).map fun magnitude => -(magnitude : Int)
  | '+' :: rest => (allDigits? rest).map fun magnitude => (magnitude : Int)
  | rest => (allDigits? rest).map fun magnitude => (magnitude : Int)

/-- The exponent that ends a number literal, if there is one. -/
def exponent? : List Char → Option (Option Int)
  | [] => some none
  | 'e' :: rest => (power? rest).map some
  | 'E' :: rest => (power? rest).map some
  | _ => none

/-- The number with these digits before and after its point and this exponent.
It is an integer literal if there is neither a fraction nor an exponent. -/
def numberOf (negative : Bool) (whole fraction : List Char) : Option Int → Number
  | none =>
      if fraction.isEmpty then .integer negative (natOfDigits whole)
      else .scientific ⟨negative, natOfDigits (whole ++ fraction), -fraction.length⟩
  | some power =>
      .scientific ⟨negative, natOfDigits (whole ++ fraction), power - fraction.length⟩

/-- The part of a number literal after its sign: a whole part without needless
zeros, then perhaps a fraction, then perhaps an exponent. -/
def unsignedNumber? (negative : Bool) (text : List Char) : Option Number := do
  let (whole, rest) ← digits? text
  guard (whole.head? ≠ some '0' ∨ whole = ['0'])
  let (fraction, rest) ← fraction? rest
  let exponent ← exponent? rest
  some (numberOf negative whole fraction exponent)

/-- The value of a bare word. -/
def word? (word : List Char) : Option Json :=
  if word = ['n', 'u', 'l', 'l'] then some .null
  else if word = ['t', 'r', 'u', 'e'] then some (.bool true)
  else if word = ['f', 'a', 'l', 's', 'e'] then some (.bool false)
  else
    match word with
    | '-' :: rest => (unsignedNumber? true rest).map .number
    | rest => (unsignedNumber? false rest).map .number

/-- The text of a sequence of code points and surrogates, if every surrogate is
in a pair. -/
def joinUnits : List Nat → Option (List Char)
  | [] => some []
  | unit :: rest =>
      if 0xd800 ≤ unit ∧ unit < 0xdc00 then
        match rest with
        | [] => none
        | low :: rest =>
            if 0xdc00 ≤ low ∧ low < 0xe000 then
              (joinUnits rest).map
                (Char.ofNat (0x10000 + (unit - 0xd800) * 0x400 + (low - 0xdc00)) :: ·)
            else none
      else if 0xdc00 ≤ unit ∧ unit < 0xe000 then none
      else (joinUnits rest).map (Char.ofNat unit :: ·)

/-- What the character after a backslash stands for, unless it is `u`. -/
def escape? : Char → Option Char
  | '"' => some '"'
  | '\\' => some '\\'
  | '/' => some '/'
  | 'b' => some '\x08'
  | 'f' => some '\x0c'
  | 'n' => some '\n'
  | 'r' => some '\r'
  | 't' => some '\t'
  | _ => none

/-- Where the pass over the characters stands. -/
inductive Scan
  | between
  /-- In a bare word; its characters so far, last first. -/
  | word (seen : List Char)
  /-- In a string; its units so far, last first. -/
  | quoted (units : List Nat)
  /-- After a backslash. -/
  | escaped (units : List Nat)
  /-- In an escaped code unit, with `missing + 1` digits to come. -/
  | coded (units : List Nat) (missing : Nat) (value : Nat)

namespace Scan

/-- A character between two tokens; tokens are collected last first. -/
def start (tokens : List Token) (c : Char) : Option (Scan × List Token) :=
  if isSpace c then some (between, tokens)
  else if c = '"' then some (quoted [], tokens)
  else if isWordChar c then some (word [c], tokens)
  else (Token.ofMark? c).map fun token => (between, token :: tokens)

/-- One character of a text. -/
def step : Scan × List Token → Char → Option (Scan × List Token)
  | (between, tokens), c => start tokens c
  | (word seen, tokens), c =>
      if isWordChar c then some (word (c :: seen), tokens)
      else (word? seen.reverse).bind fun value => start (.word value :: tokens) c
  | (quoted units, tokens), c =>
      if c = '"' then
        some (between, .string ((joinUnits units.reverse).map String.ofList) :: tokens)
      else if c = '\\' then some (escaped units, tokens)
      else if c.toNat < 0x20 then none
      else some (quoted (c.toNat :: units), tokens)
  | (escaped units, tokens), c =>
      if c = 'u' then some (coded units 3 0, tokens)
      else (escape? c).map fun plain => (quoted (plain.toNat :: units), tokens)
  | (coded units missing value, tokens), c =>
      (Bytes.Hex.digitValue? c).map fun digit =>
        match missing with
        | 0 => (quoted ((value * 16 + digit) :: units), tokens)
        | missing + 1 => (coded units missing (value * 16 + digit), tokens)

/-- The tokens at the end of the text, in order. -/
def finish : Scan × List Token → Option (List Token)
  | (between, tokens) => some tokens.reverse
  | (word seen, tokens) =>
      (word? seen.reverse).map fun value => (Token.word value :: tokens).reverse
  | _ => none

end Scan

/-- The tokens of a text. -/
def tokens? (text : List Char) : Option (List Token) :=
  (text.foldlM Scan.step (Scan.between, [])).bind Scan.finish

end SwapCompiler.Json

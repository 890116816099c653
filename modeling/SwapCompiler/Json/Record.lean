import SwapCompiler.Json.Basic

/-!
# Records in JSON

A record with a fixed list of field names is read from an object or from an
array.

* In an object every name is text, unknown names are passed over with their
  values, which must be sound, and a known name stands at most once.
* An array gives the values of the leading fields in order; it may end early.

A field may be required; optional, so that absence and `null` both mean
nothing; or a flag, which is off unless it is given.
-/

namespace SwapCompiler.Json

mutual

/-- A value without gaps. -/
def sound : Json → Bool
  | .gap => false
  | .array items => soundItems items
  | .object members => soundMembers members
  | _ => true

/-- Values without gaps. -/
def soundItems : List Json → Bool
  | [] => true
  | item :: rest => item.sound && soundItems rest

/-- Named values without gaps. -/
def soundMembers : List (Option String × Json) → Bool
  | [] => true
  | (_, value) :: rest => value.sound && soundMembers rest

end

/-- The known fields that were given, each at most once. -/
abbrev Record := List (String × Json)

/-- Adds the next member of an object, if its name is a known one. -/
def addMember (names : List String) (record : Record) :
    Option String × Json → Option Record
  | (none, _) => none
  | (some name, value) =>
      if !names.contains name then if value.sound then some record else none
      else if (record.lookup name).isSome then none
      else some ((name, value) :: record)

/-- The given fields of a record. -/
def record? (names : List String) : Json → Option Record
  | .object members => members.foldlM (addMember names) []
  | .array items => if items.length ≤ names.length then some (names.zip items) else none
  | _ => none

namespace Record

/-- A field that must be there. -/
def required? {α : Type} (record : Record) (name : String) (read : Json → Option α) :
    Option α :=
  (record.lookup name).bind read

/-- A field that may be absent or `null`. -/
def optional? {α : Type} (record : Record) (name : String) (read : Json → Option α) :
    Option (Option α) :=
  match record.lookup name with
  | none | some .null => some none
  | some value => (read value).map some

/-- A truth value that is `false` when absent. -/
def flag? (record : Record) (name : String) : Option Bool :=
  match record.lookup name with
  | none => some false
  | some value => value.bool?

end Record

/-- A list, item by item. -/
def list? {α : Type} (read : Json → Option α) (value : Json) : Option (List α) :=
  value.items?.bind fun items => items.mapM read

end SwapCompiler.Json

import SwapCompiler.Json.Read
import SwapCompiler.Json.Record
import SwapCompiler.Proofs.Json.Scanning

/-!
# Reading what is written

Every value without gaps is read back from its compact text.

* `spelling` is the list of tokens that stand for a value; `spells_write` says that its text is
  cut into these, and `foldlM_spelling` that they are built into the value again.
* `read?_write` puts the two together.
-/

namespace SwapCompiler.Json

mutual

/-- The tokens of a value. -/
def spelling : Json → List Token
  | .gap => []
  | .string content => [.string content]
  | .array items => .openBracket :: itemsSpelling items ++ [.closeBracket]
  | .object members => .openBrace :: membersSpelling members ++ [.closeBrace]
  | value => [.word value]

/-- The tokens of values with commas between them. -/
def itemsSpelling : List Json → List Token
  | [] => []
  | [item] => spelling item
  | item :: next :: rest => spelling item ++ .comma :: itemsSpelling (next :: rest)

/-- The tokens of named values with commas between them. -/
def membersSpelling : List (Option String × Json) → List Token
  | [] => []
  | [(name, value)] => .string name :: .colon :: spelling value
  | (name, value) :: next :: rest =>
      .string name :: .colon :: spelling value ++ .comma :: membersSpelling (next :: rest)

end

/-! ## From characters to tokens -/

open Scan (Spells closes_mark closes_nil closes_writeString spells_word spells_writeNumber)

/-- What is spelled between two marks, with the marks. -/
theorem spells_bracketed {first last : Char} {before after : Token} {text : List Char}
    {added : List Token} (hfirst : Token.ofMark? first = some before)
    (hlast : Token.ofMark? last = some after) (h : Spells text added) :
    Spells (first :: text ++ [last]) (before :: added ++ [after]) :=
  ((closes_mark hfirst).append (h.append_mark hlast)).spells

/-- A named value is spelled as its name, a colon and the value. -/
theorem spells_member (name : Option String) {text : List Char} {added : List Token}
    (h : Spells text added) :
    Spells (writeString name ++ ':' :: text) (.string name :: .colon :: added) :=
  (closes_writeString name).append_spells ((closes_mark rfl).append_spells h)

/-- A comma goes between two texts. -/
theorem spells_commaSeparated {text rest : List Char} {added more : List Token}
    (htext : Spells text added) (hrest : Spells rest more) :
    Spells (text ++ ',' :: rest) (added ++ .comma :: more) := by
  have hcomma : Token.ofMark? ',' = some .comma := rfl
  have h := (htext.append_mark hcomma).append_spells hrest
  rwa [List.append_assoc, List.append_assoc] at h

mutual

/-- The compact text of a value is cut into its tokens. -/
theorem spells_write : (value : Json) → value.sound = true →
    Spells (write value) (spelling value)
  | .gap, h => nomatch h
  | .null, _ => spells_word (by decide) (List.all_eq_true.1 rfl) rfl
  | .bool true, _ => spells_word (by decide) (List.all_eq_true.1 rfl) rfl
  | .bool false, _ => spells_word (by decide) (List.all_eq_true.1 rfl) rfl
  | .number value, _ => spells_writeNumber value
  | .string content, _ => (closes_writeString content).spells
  | .array items, h => spells_bracketed rfl rfl (spells_writeItems items h)
  | .object members, h => spells_bracketed rfl rfl (spells_writeMembers members h)

/-- The same of values with commas between them. -/
theorem spells_writeItems : (items : List Json) → soundItems items = true →
    Spells (writeItems items) (itemsSpelling items)
  | [], _ => closes_nil.spells
  | [item], h => spells_write item (Bool.and_eq_true_iff.1 h).1
  | item :: next :: rest, h =>
      spells_commaSeparated (spells_write item (Bool.and_eq_true_iff.1 h).1)
        (spells_writeItems (next :: rest) (Bool.and_eq_true_iff.1 h).2)

/-- The same of named values with commas between them. -/
theorem spells_writeMembers : (members : List (Option String × Json)) →
    soundMembers members = true → Spells (writeMembers members) (membersSpelling members)
  | [], _ => closes_nil.spells
  | [(name, value)], h => spells_member name (spells_write value (Bool.and_eq_true_iff.1 h).1)
  | (name, value) :: next :: rest, h => by
      have hmember := spells_member name (spells_write value (Bool.and_eq_true_iff.1 h).1)
      have h := spells_commaSeparated hmember
        (spells_writeMembers (next :: rest) (Bool.and_eq_true_iff.1 h).2)
      rwa [List.append_assoc, List.cons_append] at h

end

/-! ## From tokens to values -/

/-- A value may start here, and nothing but a closing bracket is kept from starting one. -/
def AwaitsValue (state : Expect × List Unclosed) : Prop :=
  ∀ token, token ≠ .closeBracket → takeToken state token = startValue state.2 token

theorem awaitsValue_value (stack : List Unclosed) : AwaitsValue (.value, stack) := by
  intro token htoken
  cases token <;> first | exact absurd rfl htoken | rcases stack with _ | ⟨_ | _ | _, _⟩ <;> rfl

theorem awaitsValue_open (outer : List Unclosed) :
    AwaitsValue (.valueOrClose, .array [] :: outer) := by
  intro token htoken
  cases token <;> first | exact absurd rfl htoken | rfl

/-- A name may come here. -/
def AwaitsName (state : Expect × List Unclosed) : Prop :=
  ∀ name, takeToken state (.string name) = some (.colon name, state.2)

theorem awaitsName_name (stack : List Unclosed) : AwaitsName (.name, stack) := fun _ => rfl

theorem awaitsName_open (outer : List Unclosed) :
    AwaitsName (.nameOrClose, .object [] :: outer) := fun _ => rfl

section Steps

variable {state next : Expect × List Unclosed} {token : Token} {rest : List Token}

theorem foldlM_cons_of_eq (h : takeToken state token = some next) :
    (token :: rest).foldlM takeToken state = rest.foldlM takeToken next := by
  rw [List.foldlM_cons, h]
  rfl

theorem foldlM_append_of_eq {front : List Token} (h : front.foldlM takeToken state = some next) :
    (front ++ rest).foldlM takeToken state = rest.foldlM takeToken next := by
  rw [List.foldlM_append, h]
  rfl

theorem foldlM_singleton (token : Token) :
    [token].foldlM takeToken state = takeToken state token := by
  rw [List.foldlM_cons]
  exact bind_pure _

/-- A value of one token is delivered where a value may start. -/
theorem AwaitsValue.foldlM_singleton (h : AwaitsValue state) (htoken : token ≠ .closeBracket) :
    [token].foldlM takeToken state = startValue state.2 token := by
  rw [Json.foldlM_singleton, h token htoken]

end Steps

mutual

/-- The tokens of a value build it where a value may start, and deliver it there. -/
theorem foldlM_spelling : (value : Json) → value.sound = true →
    ∀ {state : Expect × List Unclosed}, AwaitsValue state →
      (spelling value).foldlM takeToken state = deliver value state.2
  | .gap, h, _, _ => nomatch h
  | .null, _, _, hstate => hstate.foldlM_singleton nofun
  | .bool _, _, _, hstate => hstate.foldlM_singleton nofun
  | .number _, _, _, hstate => hstate.foldlM_singleton nofun
  | .string _, _, _, hstate => hstate.foldlM_singleton nofun
  | .array items, h, state, hstate => by
      have hopen := hstate .openBracket nofun
      rw [spelling, List.cons_append, foldlM_cons_of_eq hopen]
      cases items with
      | nil => exact foldlM_singleton _
      | cons item rest =>
          have hitems := foldlM_itemsSpelling (item :: rest) nofun h (awaitsValue_open state.2)
          rw [foldlM_append_of_eq hitems, foldlM_singleton, takeToken, List.append_nil,
            List.reverse_reverse]
  | .object members, h, state, hstate => by
      have hopen := hstate .openBrace nofun
      rw [spelling, List.cons_append, foldlM_cons_of_eq hopen]
      cases members with
      | nil => exact foldlM_singleton _
      | cons member rest =>
          have hmembers :=
            foldlM_membersSpelling (member :: rest) nofun h (awaitsName_open state.2)
          rw [foldlM_append_of_eq hmembers, foldlM_singleton, takeToken, List.append_nil,
            List.reverse_reverse]

/-- The tokens of the items of an array are collected in it. -/
theorem foldlM_itemsSpelling : (items : List Json) → items ≠ [] → soundItems items = true →
    ∀ {expect : Expect} {before : List Json} {outer : List Unclosed},
      AwaitsValue (expect, .array before :: outer) →
      (itemsSpelling items).foldlM takeToken (expect, .array before :: outer) =
        some (.commaOrClose, .array (items.reverse ++ before) :: outer)
  | [], hne, _, _, _, _, _ => absurd rfl hne
  | [item], _, h, _, _, _, hstate => foldlM_spelling item (Bool.and_eq_true_iff.1 h).1 hstate
  | item :: next :: rest, _, h, _, before, outer, hstate => by
      have hitem := foldlM_spelling item (Bool.and_eq_true_iff.1 h).1 hstate
      have hrest := foldlM_itemsSpelling (next :: rest) nofun (Bool.and_eq_true_iff.1 h).2
        (awaitsValue_value (.array (item :: before) :: outer))
      rw [itemsSpelling, foldlM_append_of_eq hitem, foldlM_cons_of_eq rfl, hrest,
        List.reverse_cons (a := item), List.append_assoc]
      rfl

/-- The tokens of the members of an object are collected in it. -/
theorem foldlM_membersSpelling : (members : List (Option String × Json)) → members ≠ [] →
    soundMembers members = true →
    ∀ {expect : Expect} {before : List (Option String × Json)} {outer : List Unclosed},
      AwaitsName (expect, .object before :: outer) →
      (membersSpelling members).foldlM takeToken (expect, .object before :: outer) =
        some (.commaOrClose, .object (members.reverse ++ before) :: outer)
  | [], hne, _, _, _, _, _ => absurd rfl hne
  | [(name, value)], _, h, _, before, outer, hstate => by
      have hvalue := foldlM_spelling value (Bool.and_eq_true_iff.1 h).1
        (awaitsValue_value (.member before name :: outer))
      rw [membersSpelling, foldlM_cons_of_eq (hstate name), foldlM_cons_of_eq rfl]
      exact hvalue
  | (name, value) :: next :: rest, _, h, _, before, outer, hstate => by
      have hvalue := foldlM_spelling value (Bool.and_eq_true_iff.1 h).1
        (awaitsValue_value (.member before name :: outer))
      have hrest := foldlM_membersSpelling (next :: rest) nofun (Bool.and_eq_true_iff.1 h).2
        (awaitsName_name (.object ((name, value) :: before) :: outer))
      rw [membersSpelling, List.cons_append, List.cons_append, foldlM_cons_of_eq (hstate name),
        foldlM_cons_of_eq rfl, foldlM_append_of_eq hvalue, foldlM_cons_of_eq rfl, hrest,
        List.reverse_cons (a := (name, value)), List.append_assoc]
      rfl

end

/-- A value without gaps is read back from its compact text. -/
theorem read?_write {value : Json} (h : value.sound = true) : read? (write value) = some value := by
  obtain ⟨state, hstate, hholds⟩ := spells_write value h []
  have hbuilt : (spelling value).foldlM takeToken (.value, []) = some (.nothing value, []) :=
    foldlM_spelling value h (awaitsValue_value [])
  rw [read?, tokens?, hstate, Option.bind_some, hholds.finish_eq, Option.bind_some, ofTokens?,
    List.append_nil, List.reverse_reverse, hbuilt]

end SwapCompiler.Json

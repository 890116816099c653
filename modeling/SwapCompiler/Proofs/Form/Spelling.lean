import SwapCompiler.Proofs.AmountText

/-!
# Spellings of the basic types

Which JSON values denote bytes, an address, a name or a small number, stated without the
functions that read them, and that exactly these are read.

* Hexadecimal text may have digits of either case, and a mark or none.
* Bytes may be an array of numbers instead of text.
* An array of an address may have one item more, if its reader passes over it.
-/

namespace SwapCompiler

namespace Bytes.Hex

variable {c : Char} {value : Nat} {bytes : Bytes} {text : List Char}

/-- A digit has its value in lower case and in upper case. -/
theorem digitValue?_eq_some_iff :
    digitValue? c = some value ↔ value < 16 ∧ (c = digit value ∨ c = (digit value).toUpper) := by
  have hlower : ∀ value < 16, Text.lowerDigits[value]? = some (digit value) := by decide
  have hupper : ∀ value < 16, Text.upperDigits[value]? = some (digit value).toUpper := by decide
  constructor
  · intro h
    rcases Text.isDigit_of_digitValue? h with hdigit | hdigit
    · have hlt : value < 16 := (List.getElem?_eq_some_iff.1 hdigit).1
      rw [hlower value hlt] at hdigit
      exact ⟨hlt, .inl (Option.some.inj hdigit).symm⟩
    · have hlt : value < 16 := (List.getElem?_eq_some_iff.1 hdigit).1
      rw [hupper value hlt] at hdigit
      exact ⟨hlt, .inr (Option.some.inj hdigit).symm⟩
  · rintro ⟨hlt, rfl | rfl⟩
    · exact Text.digitValue?_of_isDigit (.inl (hlower value hlt))
    · exact Text.digitValue?_of_isDigit (.inr (hupper value hlt))

/-- Digits are read as the bytes whose digits they are, in either case. -/
theorem decode_eq_some_iff : decode text = some bytes ↔ Text.EitherCase (encode bytes) text := by
  constructor
  · intro h
    fun_induction decode text generalizing bytes with
    | case1 =>
        obtain rfl := Option.some.inj h
        exact .nil
    | case2 => exact nomatch h
    | case3 high low rest ih =>
        simp only [Option.bind_eq_bind, Option.bind_eq_some_iff] at h
        obtain ⟨first, hfirst, second, hsecond, others, hothers, hbytes⟩ := h
        obtain rfl := Option.some.inj hbytes
        obtain ⟨hfirstLt, hhigh⟩ := digitValue?_eq_some_iff.1 hfirst
        obtain ⟨hsecondLt, hlow⟩ := digitValue?_eq_some_iff.1 hsecond
        have hbyte : (UInt8.ofNat (16 * first + second)).toNat = 16 * first + second := by
          rw [UInt8.toNat_ofNat']
          omega
        have hdiv : (16 * first + second) / 16 = first := by omega
        have hmod : (16 * first + second) % 16 = second := by omega
        rw [encode, hbyte, hdiv, hmod]
        exact .cons hhigh (.cons hlow (ih hothers))
  · intro h
    induction bytes generalizing text with
    | nil =>
        cases h
        rfl
    | cons byte rest ih =>
        obtain ⟨high, tail, hhigh, htail, rfl⟩ := List.forall₂_cons_left_iff.1 h
        obtain ⟨low, others, hlow, hothers, rfl⟩ := List.forall₂_cons_left_iff.1 htail
        have hlt : byte.toNat < 256 := byte.toNat_lt
        have hfirst : digitValue? high = some (byte.toNat / 16) :=
          digitValue?_eq_some_iff.2 ⟨by omega, hhigh⟩
        have hsecond : digitValue? low = some (byte.toNat % 16) :=
          digitValue?_eq_some_iff.2 ⟨by omega, hlow⟩
        simp only [decode, hfirst, hsecond, ih hothers, Option.bind_eq_bind, Option.bind_some,
          Nat.div_add_mod, UInt8.ofNat_toNat]

/-- The texts of bytes: their digits of either case, alone or behind a mark. -/
inductive SpellsText (bytes : Bytes) : List Char → Prop
  | plain {digits : List Char} (h : Text.EitherCase (encode bytes) digits) :
      SpellsText bytes digits
  | marked {mark : Char} {digits : List Char} (hmark : mark = 'x' ∨ mark = 'X')
      (h : Text.EitherCase (encode bytes) digits) : SpellsText bytes ('0' :: mark :: digits)

/-- A mark is no digit, so that it is never taken from digits. -/
theorem unmarked_of_decode (h : decode text = some bytes) : unmarked text = text := by
  unfold unmarked
  split
  · exact nomatch h
  · exact nomatch h
  · rfl

theorem decode_unmarked_eq_some_iff :
    decode (unmarked text) = some bytes ↔ SpellsText bytes text := by
  constructor
  · intro h
    unfold unmarked at h
    split at h
    · exact .marked (.inl rfl) (decode_eq_some_iff.1 h)
    · exact .marked (.inr rfl) (decode_eq_some_iff.1 h)
    · exact .plain (decode_eq_some_iff.1 h)
  · intro h
    cases h with
    | plain h =>
        have hread := decode_eq_some_iff.2 h
        rw [unmarked_of_decode hread, hread]
    | marked hmark h => rcases hmark with rfl | rfl <;> exact decode_eq_some_iff.2 h

end Bytes.Hex

theorem Opcode.ofName?_eq_some_iff (text : String) (opcode : Opcode) :
    ofName? text = some opcode ↔ text = opcode.name := by
  constructor
  · intro h
    have hname := List.find?_some h
    simpa [eq_comm] using hname
  · rintro rfl
    exact opcode.ofName?_name

namespace Form

variable {bytes : Bytes} {json : Json} {items : List Json} {reading : Json.Reading}
  {address : Address}

/-! ## Bytes -/

/-- The array of the numbers of bytes. -/
def numbers (bytes : Bytes) : List Json :=
  bytes.map fun byte => .nat byte.toNat

/-- The JSON values that denote bytes. -/
inductive SpellsBytes (bytes : Bytes) : Json → Prop
  | text {content : String} (h : Bytes.Hex.SpellsText bytes content.toList) :
      SpellsBytes bytes (.text content)
  | numbers : SpellsBytes bytes (.array (numbers bytes))

theorem byte?_eq_some_iff {byte : UInt8} : json.byte? = some byte ↔ json = .nat byte.toNat := by
  constructor
  · intro h
    unfold Json.byte? at h
    rw [Option.bind_eq_bind, Option.bind_eq_some_iff] at h
    obtain ⟨magnitude, hnat, hbyte⟩ := h
    split at hbyte
    · next hlt =>
        obtain rfl := Option.some.inj hbyte
        unfold Json.nat? at hnat
        split at hnat
        · obtain rfl := Option.some.inj hnat
          rw [UInt8.toNat_ofNat', Nat.mod_eq_of_lt hlt]
          rfl
        · exact nomatch hnat
    · exact nomatch hbyte
  · rintro rfl
    simp [Json.byte?, Json.nat, Json.nat?, byte.toNat_lt]

theorem mapM_byte?_eq_some_iff : items.mapM Json.byte? = some bytes ↔ items = numbers bytes := by
  induction items generalizing bytes with
  | nil =>
      rw [List.mapM_nil]
      constructor
      · intro h
        obtain rfl := Option.some.inj h
        rfl
      · intro h
        obtain rfl := List.map_eq_nil_iff.1 h.symm
        rfl
  | cons item rest ih =>
      rw [List.mapM_cons]
      simp only [Option.bind_eq_bind, Option.bind_eq_some_iff, byte?_eq_some_iff, ih]
      constructor
      · rintro ⟨byte, rfl, others, rfl, h⟩
        obtain rfl := Option.some.inj h
        rfl
      · intro h
        obtain ⟨byte, others, rfl, hbyte, hothers⟩ := List.map_eq_cons_iff.1 h.symm
        exact ⟨byte, hbyte.symm, others, hothers.symm, rfl⟩

/-- What is read as bytes is what spells them. -/
theorem bytes?_eq_some_iff : bytes? json = some bytes ↔ SpellsBytes bytes json := by
  constructor
  · intro h
    unfold bytes? at h
    split at h
    · obtain ⟨content, rfl, hcontent⟩ := Option.bind_eq_some_iff.1 h
      exact .text (Bytes.Hex.decode_unmarked_eq_some_iff.1 hcontent)
    · rw [mapM_byte?_eq_some_iff.1 h]
      exact .numbers
    · exact nomatch h
  · intro h
    cases h with
    | text h => exact Bytes.Hex.decode_unmarked_eq_some_iff.2 h
    | numbers => exact mapM_byte?_eq_some_iff.2 rfl

/-- Bytes are written in one of their spellings. -/
theorem spellsBytes_ofBytes (bytes : Bytes) : SpellsBytes bytes (ofBytes bytes) := by
  refine .text ?_
  rw [Bytes.Hex.writeMarked, String.toList_append, Bytes.Hex.write, String.toList_ofList,
    String.toList_ofList]
  exact .marked (.inl rfl) (Text.eitherCase_refl _)

/-! ## Addresses -/

/-- The JSON values that denote an address to a reader. -/
inductive SpellsAddress (reading : Json.Reading) (address : Address) : Json → Prop
  | bytes {json : Json} (h : SpellsBytes address.bytes json) : SpellsAddress reading address json
  /-- An array of its twenty bytes and one item that the reader passes over. -/
  | passed {extra : Json} (h : reading.passes extra = true) :
      SpellsAddress reading address (.array (numbers address.bytes ++ [extra]))

theorem ofBytes?_eq_some_iff : Address.ofBytes? bytes = some address ↔ bytes = address.bytes := by
  constructor
  · intro h
    unfold Address.ofBytes? at h
    split at h
    · obtain rfl := Option.some.inj h
      rfl
    · contradiction
  · rintro rfl
    exact address.ofBytes?_bytes

theorem length_numbers (address : Address) : (numbers address.bytes).length = 20 := by
  rw [numbers, List.length_map, address.length_bytes]

/-- What is read as an address is what spells it to that reader. -/
theorem address?_eq_some_iff :
    address? reading json = some address ↔ SpellsAddress reading address json := by
  simp only [address?, Option.bind_eq_some_iff, ofBytes?_eq_some_iff, exists_eq_right]
  constructor
  · intro h
    unfold addressBytes? at h
    split at h
    · next items =>
        split at h
        · rw [mapM_byte?_eq_some_iff.1 h]
          exact .bytes .numbers
        · next extra hextra =>
            split at h
            · next hpasses =>
                rw [← List.take_append_drop 20 items, hextra, mapM_byte?_eq_some_iff.1 h]
                exact .passed hpasses
            · exact nomatch h
        · exact nomatch h
    · exact .bytes (bytes?_eq_some_iff.1 h)
  · intro h
    cases h with
    | bytes h =>
        cases h with
        | text h => exact bytes?_eq_some_iff.2 (.text h)
        | numbers =>
            have hnone : (numbers address.bytes).drop 20 = [] :=
              List.drop_eq_nil_of_le (length_numbers address).le
            rw [addressBytes?, hnone]
            exact mapM_byte?_eq_some_iff.2 rfl
    | passed h =>
        have hlength := length_numbers address
        rw [addressBytes?, List.drop_left' hlength]
        dsimp only
        rw [if_pos h, List.take_left' hlength]
        exact mapM_byte?_eq_some_iff.2 rfl

/-! ## Names -/

/-- The JSON values that denote something with a name. -/
inductive SpellsName {α : Type} (name : α → String) (value : α) : Json → Prop
  | text : SpellsName name value (.text (name value))
  | member : SpellsName name value (.object [(some (name value), .null)])

/-- What is read as something with a name is what spells its name. -/
theorem name?_eq_some_iff {α : Type} {ofName? : String → Option α} {name : α → String}
    (hname : ∀ text value, ofName? text = some value ↔ text = name value) {value : α} :
    name? ofName? json = some value ↔ SpellsName name value json := by
  constructor
  · intro h
    unfold name? at h
    split at h
    · obtain ⟨content, rfl, hcontent⟩ := Option.bind_eq_some_iff.1 h
      rw [(hname _ _).1 hcontent]
      exact .text
    · rw [(hname _ _).1 h]
      exact .member
    · exact nomatch h
  · rintro (_ | _) <;> exact (hname _ _).2 rfl

theorem opcode?_eq_some_iff {opcode : Opcode} :
    opcode? json = some opcode ↔ SpellsName Opcode.name opcode json :=
  name?_eq_some_iff Opcode.ofName?_eq_some_iff

end Form

end SwapCompiler

import SwapCompiler.Form.Network
import SwapCompiler.Proofs.Form.Spelling
import SwapCompiler.Proofs.Json.Records
import SwapCompiler.Proofs.Json.Written

/-!
# Models survive their JSON form

An adapter, the wrapping calldata and a network are read back from the text in which they are
written, and whatever text they are read from, the text in which they are then written has the
same value.

* `SpellsAdapter`, `SpellsWrapCalls` and `SpellsNetwork` say which JSON values denote a model:
  an object with the fields in any order and others among them, or an array, with each field in
  any of its spellings or absent as its rule allows.
* `Survives` is the law, and `Survives.of_spells` derives it from a grammar that the reader
  follows and the form obeys.
* `models_survive` is the law for the three models.
-/

namespace SwapCompiler.Form

open Json (RequiredAs OptionalAs FlagAs Gives)

variable {reading : Json.Reading} {json : Json}

/-! ## Fields -/

section Fields

variable {record : Json.Record} {name : String}

/-- The JSON value that denotes a number below 256. -/
def SpellsByte (byte : UInt8) (json : Json) : Prop :=
  json = .nat byte.toNat

theorem required_address_iff {address : Address} :
    record.required? name (address? reading) = some address ↔
      RequiredAs (SpellsAddress reading) address (record.lookup name) :=
  Json.required?_eq_some_iff fun _ _ => address?_eq_some_iff

theorem required_bytes_iff {bytes : Bytes} :
    record.required? name bytes? = some bytes ↔
      RequiredAs SpellsBytes bytes (record.lookup name) :=
  Json.required?_eq_some_iff fun _ _ => bytes?_eq_some_iff

theorem optional_address_iff {address : Option Address} :
    record.optional? name (address? reading) = some address ↔
      OptionalAs (SpellsAddress reading) address (record.lookup name) := by
  refine Json.optional?_eq_some_iff (fun _ _ => address?_eq_some_iff) fun address h => ?_
  exact nomatch address?_eq_some_iff.2 h

theorem optional_bytes_iff {bytes : Option Bytes} :
    record.optional? name bytes? = some bytes ↔
      OptionalAs SpellsBytes bytes (record.lookup name) :=
  Json.optional?_eq_some_iff (fun _ _ => bytes?_eq_some_iff) fun _ h => nomatch h

theorem optional_opcode_iff {opcode : Option Opcode} :
    record.optional? name opcode? = some opcode ↔
      OptionalAs (SpellsName Opcode.name) opcode (record.lookup name) :=
  Json.optional?_eq_some_iff (fun _ _ => opcode?_eq_some_iff) fun _ h => nomatch h

theorem optional_byte_iff {byte : Option UInt8} :
    record.optional? name Json.byte? = some byte ↔
      OptionalAs SpellsByte byte (record.lookup name) :=
  Json.optional?_eq_some_iff (fun _ _ => byte?_eq_some_iff) fun _ h => nomatch h

end Fields

/-! ## Grammars of the models -/

/-- The fields of an adapter. -/
structure AdapterGiven (reading : Json.Reading) (adapter : Adapter)
    (given : String → Option Json) : Prop where
  target : RequiredAs (SpellsAddress reading) adapter.target (given "target_exchange")
  calldata : RequiredAs SpellsBytes adapter.calldata (given "exchange_data")
  wrapsNative : FlagAs adapter.wrapsNative (given "need_wrap_native")
  paysRecipient : FlagAs adapter.paysRecipient (given "dex_func_has_recipient")
  namesDestination : FlagAs adapter.namesDestination (given "dex_func_has_dest_token")
  special : OptionalAs (SpellsName Opcode.name) adapter.special (given "special_dex_flag")
  spender : OptionalAs (SpellsAddress reading) adapter.spender (given "spender")
  returnPosition : OptionalAs SpellsByte adapter.returnPosition (given "return_amount_pos")

/-- The JSON values that denote an adapter. -/
def SpellsAdapter (reading : Json.Reading) (adapter : Adapter) (json : Json) : Prop :=
  ∃ given, Gives adapterFields given json ∧ AdapterGiven reading adapter given

/-- The JSON values that denote wrapping calldata. -/
def SpellsWrapCalls (_ : Json.Reading) (calls : WrapCalls) (json : Json) : Prop :=
  ∃ given, Gives wrapCallsFields given json ∧
    OptionalAs SpellsBytes calls.deposit (given "deposit") ∧
    OptionalAs SpellsBytes calls.withdraw (given "withdraw")

/-- The JSON values that denote a network. -/
def SpellsNetwork (reading : Json.Reading) (network : Network) (json : Json) : Prop :=
  ∃ given, Gives networkFields given json ∧
    RequiredAs (SpellsAddress reading) network.executor (given "executor_address") ∧
    RequiredAs (SpellsAddress reading) network.router (given "router_address") ∧
    RequiredAs (SpellsAddress reading) network.native (given "native_token") ∧
    RequiredAs (SpellsAddress reading) network.wrapped (given "wrapped_native_token")

/-- What is read as an adapter is what spells it. -/
theorem adapter?_eq_some_iff {adapter : Adapter} :
    adapter? reading json = some adapter ↔ SpellsAdapter reading adapter json := by
  have hnames : adapterFields.Nodup := by decide
  refine Iff.trans ?_ (Json.exists_record?_and_iff hnames)
  simp only [adapter?, Option.bind_eq_bind, Option.bind_eq_some_iff, required_address_iff,
    required_bytes_iff, Json.flag?_eq_some_iff, optional_opcode_iff, optional_address_iff,
    optional_byte_iff]
  constructor
  · rintro ⟨record, hrecord, target, htarget, calldata, hcalldata, wrapsNative, hwraps,
      paysRecipient, hpays, namesDestination, hnamed, special, hspecial, spender, hspender,
      position, hposition, h⟩
    obtain rfl := Option.some.inj h
    exact ⟨record, hrecord, htarget, hcalldata, hwraps, hpays, hnamed, hspecial, hspender,
      hposition⟩
  · rintro ⟨record, hrecord, h⟩
    exact ⟨record, hrecord, _, h.target, _, h.calldata, _, h.wrapsNative, _, h.paysRecipient, _,
      h.namesDestination, _, h.special, _, h.spender, _, h.returnPosition, rfl⟩

/-- What is read as wrapping calldata is what spells it. -/
theorem wrapCalls?_eq_some_iff {calls : WrapCalls} :
    wrapCalls? json = some calls ↔ SpellsWrapCalls reading calls json := by
  have hnames : wrapCallsFields.Nodup := by decide
  refine Iff.trans ?_ (Json.exists_record?_and_iff hnames)
  simp only [wrapCalls?, Option.bind_eq_bind, Option.bind_eq_some_iff, optional_bytes_iff]
  constructor
  · rintro ⟨record, hrecord, deposit, hdeposit, withdraw, hwithdraw, h⟩
    obtain rfl := Option.some.inj h
    exact ⟨record, hrecord, hdeposit, hwithdraw⟩
  · rintro ⟨record, hrecord, hdeposit, hwithdraw⟩
    exact ⟨record, hrecord, _, hdeposit, _, hwithdraw, rfl⟩

/-- What is read as a network is what spells it. -/
theorem network?_eq_some_iff {network : Network} :
    network? reading json = some network ↔ SpellsNetwork reading network json := by
  have hnames : networkFields.Nodup := by decide
  refine Iff.trans ?_ (Json.exists_record?_and_iff hnames)
  simp only [network?, Option.bind_eq_bind, Option.bind_eq_some_iff, required_address_iff]
  constructor
  · rintro ⟨record, hrecord, executor, hexecutor, router, hrouter, native, hnative, wrapped,
      hwrapped, h⟩
    obtain rfl := Option.some.inj h
    exact ⟨record, hrecord, hexecutor, hrouter, hnative, hwrapped⟩
  · rintro ⟨record, hrecord, hexecutor, hrouter, hnative, hwrapped⟩
    exact ⟨record, hrecord, _, hexecutor, _, hrouter, _, hnative, _, hwrapped, rfl⟩

/-! ## Written models -/

section Written

variable {α : Type} {spells : α → Json → Prop} {form : α → Json}

theorem optionalAs_ofOption (h : ∀ value, spells value (form value)) (value : Option α) :
    OptionalAs spells value (some (ofOption form value)) := by
  cases value with
  | none => exact .null
  | some value => exact .given (h value)

theorem spellsAddress_ofAddress (address : Address) :
    SpellsAddress reading address (ofAddress address) :=
  .bytes (spellsBytes_ofBytes address.bytes)

theorem spellsByte_nat (byte : UInt8) : SpellsByte byte (.nat byte.toNat) := rfl

theorem spellsAdapter_ofAdapter (adapter : Adapter) :
    SpellsAdapter reading adapter (ofAdapter adapter) := by
  have hnames : adapterFields.Nodup := by decide
  refine ⟨_, Json.gives_ofMembers hnames rfl, ?_⟩
  constructor
  case target => exact ⟨_, rfl, spellsAddress_ofAddress _⟩
  case calldata => exact ⟨_, rfl, spellsBytes_ofBytes _⟩
  case wrapsNative => exact .given
  case paysRecipient => exact .given
  case namesDestination => exact .given
  case special => exact optionalAs_ofOption (fun _ => .text) _
  case spender => exact optionalAs_ofOption spellsAddress_ofAddress _
  case returnPosition => exact optionalAs_ofOption spellsByte_nat _

theorem spellsWrapCalls_ofWrapCalls (calls : WrapCalls) :
    SpellsWrapCalls reading calls (ofWrapCalls calls) := by
  have hnames : wrapCallsFields.Nodup := by decide
  exact ⟨_, Json.gives_ofMembers hnames rfl, optionalAs_ofOption spellsBytes_ofBytes _,
    optionalAs_ofOption spellsBytes_ofBytes _⟩

theorem spellsNetwork_ofNetwork (network : Network) :
    SpellsNetwork reading network (ofNetwork network) := by
  have hnames : networkFields.Nodup := by decide
  exact ⟨_, Json.gives_ofMembers hnames rfl, ⟨_, rfl, spellsAddress_ofAddress _⟩,
    ⟨_, rfl, spellsAddress_ofAddress _⟩, ⟨_, rfl, spellsAddress_ofAddress _⟩,
    ⟨_, rfl, spellsAddress_ofAddress _⟩⟩

theorem sound_ofBytes (bytes : Bytes) : (ofBytes bytes).sound = true := rfl

theorem sound_ofAddress (address : Address) : (ofAddress address).sound = true := rfl

theorem sound_ofOpcode (opcode : Opcode) : (ofOpcode opcode).sound = true := rfl

theorem sound_byte (byte : UInt8) : (Json.nat byte.toNat).sound = true := rfl

theorem sound_ofOption (h : ∀ value, (form value).sound = true) (value : Option α) :
    (ofOption form value).sound = true := by
  cases value with
  | none => rfl
  | some value => exact h value

theorem sound_ofAdapter (adapter : Adapter) : (ofAdapter adapter).sound = true := by
  refine Json.sound_ofMembers ?_
  simp [sound_ofAddress, sound_ofBytes, sound_ofOption sound_ofOpcode,
    sound_ofOption sound_ofAddress, sound_ofOption sound_byte, Json.sound]

theorem sound_ofWrapCalls (calls : WrapCalls) : (ofWrapCalls calls).sound = true :=
  Json.sound_ofMembers (by simp [sound_ofOption sound_ofBytes])

theorem sound_ofNetwork (network : Network) : (ofNetwork network).sound = true :=
  Json.sound_ofMembers (by simp [sound_ofAddress])

end Written

/-! ## The law -/

section Law

variable {α : Type}

/-- What is read from a JSON text. -/
def readText? (read : Json → Option α) (text : List Char) : Option α :=
  (Json.read? text).bind read

/-- A text read and written again. -/
def rewritten? (read : Json → Option α) (form : α → Json) (text : List Char) :
    Option (List Char) :=
  (readText? read text).map fun value => Json.write (form value)

/-- Values survive their form: exactly what spells a value is read as it, in both ways of reading,
and what is written is read back, also in the other way. -/
structure Survives (spells : Json.Reading → α → Json → Prop) (read : Json.Reading → Json → Option α)
    (form : α → Json) : Prop where
  read_iff (reading : Json.Reading) (value : α) (json : Json) :
    read reading json = some value ↔ spells reading value json
  read_written (reading : Json.Reading) (value : α) :
    readText? (read reading) (Json.write (form value)) = some value
  read_rewritten (first second : Json.Reading) (text : List Char) (value : α) :
    readText? (read first) text = some value →
      (rewritten? (read first) form text).bind (readText? (read second)) = some value
  rewritten_idem (first second : Json.Reading) (text : List Char) :
    (rewritten? (read first) form text).bind (rewritten? (read second) form) =
      rewritten? (read first) form text

/-- Values survive if what spells them is what is read and the form is one of their spellings. -/
theorem Survives.of_spells {spells : Json.Reading → α → Json → Prop}
    {read : Json.Reading → Json → Option α} {form : α → Json}
    (hread : ∀ reading value json, read reading json = some value ↔ spells reading value json)
    (hform : ∀ reading value, spells reading value (form value))
    (hsound : ∀ value, (form value).sound = true) : Survives spells read form := by
  have hwritten (reading : Json.Reading) (value : α) :
      readText? (read reading) (Json.write (form value)) = some value := by
    rw [readText?, Json.read?_write (hsound value)]
    exact (hread reading value _).2 (hform reading value)
  constructor
  case read_iff => exact hread
  case read_written => exact hwritten
  case read_rewritten =>
    intro first second text value h
    rw [rewritten?, h]
    exact hwritten second value
  case rewritten_idem =>
    intro first second text
    unfold rewritten?
    cases readText? (read first) text with
    | none => rfl
    | some value => rw [Option.map_some, Option.bind_some, hwritten, Option.map_some]

end Law

/-- Adapters, wrapping calldata and networks survive their JSON form. -/
theorem models_survive :
    Survives SpellsAdapter adapter? ofAdapter ∧
      Survives SpellsWrapCalls (fun _ => wrapCalls?) ofWrapCalls ∧
      Survives SpellsNetwork network? ofNetwork :=
  ⟨.of_spells (fun _ _ _ => adapter?_eq_some_iff) (fun _ => spellsAdapter_ofAdapter)
      sound_ofAdapter,
    .of_spells (fun _ _ _ => wrapCalls?_eq_some_iff) (fun _ => spellsWrapCalls_ofWrapCalls)
      sound_ofWrapCalls,
    .of_spells (fun _ _ _ => network?_eq_some_iff) (fun _ => spellsNetwork_ofNetwork)
      sound_ofNetwork⟩

/-- An adapter in another spelling than its form: the fields in another order and with a note
among them, an address in capitals and without a mark, calldata as an array, the flag of a special
call as a member, and most fields absent. -/
def respelled : List Char :=
  "\x7b\"note\": \x7b\"pool\": [1]\x7d, \"exchange_data\": [18, 52], \"spender\": null,
    \"special_dex_flag\": \x7b\"send_native\": null\x7d,
    \"target_exchange\": \"7A250D5630B4CF539739DF2C5DACB4C659F2488D\"\x7d".toList

theorem models_survive_respelled :
    ∃ adapter : Adapter, readText? (adapter? .parsed) respelled = some adapter ∧
      adapter.calldata = [18, 52] ∧ adapter.special = some .sendNative ∧
      (rewritten? (adapter? .parsed) ofAdapter respelled).bind (readText? (adapter? .streamed)) =
        some adapter := by
  have hread : (readText? (adapter? .parsed) respelled).any
      (fun adapter => adapter.calldata = [18, 52] ∧ adapter.special = some .sendNative) = true := by
    decide +kernel
  obtain ⟨adapter, hadapter, hfields⟩ := (Option.any_eq_true _ _).1 hread
  obtain ⟨hcalldata, hspecial⟩ := of_decide_eq_true hfields
  exact ⟨adapter, hadapter, hcalldata, hspecial,
    models_survive.1.read_rewritten .parsed .streamed respelled adapter hadapter⟩

end SwapCompiler.Form

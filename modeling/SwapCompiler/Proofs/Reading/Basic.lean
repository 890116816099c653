import SwapCompiler.Bytes.BigEndian
import Mathlib.Data.List.Forall2

/-!
# Reading bytes

A reader takes a value off the front of a byte string and hands on what is left.
`Reads reader bytes value` says that it takes exactly `bytes` off, whatever
follows them; this form composes, so that a round trip of a format is put
together from the round trips of its fields.

* `Reader.within count inner` cuts off a body of declared length and has `inner`
  read it to its end: a body with bytes left over is refused.
* `Reader.whole` reads a byte string to its end.
-/

namespace SwapCompiler

/-- Takes a value off the front of a byte string, or refuses. -/
abbrev Reader (α : Type) := StateT Bytes Option α

namespace Reader

variable {α β : Type}

/-- The next bytes, if there are so many. -/
def take (count : Nat) : Reader Bytes := fun bytes =>
  if count ≤ bytes.length then some (bytes.take count, bytes.drop count) else none

/-- A value that was found without reading, if it was found. -/
def ofOption (found : Option α) : Reader α := fun bytes =>
  found.map fun value => (value, bytes)

/-- Reads a byte string to its end. -/
def whole (reader : Reader α) (bytes : Bytes) : Option α :=
  match reader bytes with
  | some (value, []) => some value
  | _ => none

/-- The big-endian number on the next bytes. -/
def number (width : Nat) : Reader Nat :=
  Bytes.ofBigEndian <$> take width

/-- Exactly the given bytes. -/
def literal (expected : Bytes) : Reader Unit := do
  let found ← take expected.length
  ofOption (if found = expected then some () else none)

/-- A body of declared length, read to its end. -/
def within (count : Nat) (inner : Reader α) : Reader α := do
  let body ← take count
  ofOption (inner.whole body)

/-- Everything that is left. -/
def rest : Reader Bytes := fun bytes =>
  some (bytes, [])

/-- A value that is there under a condition only. -/
def optional (present : Bool) (reader : Reader α) : Reader (Option α) :=
  if present then some <$> reader else pure none

/-- Values one after the other, each read in its own way. -/
def each (readers : List (Reader α)) : Reader (List α) :=
  match readers with
  | [] => pure []
  | reader :: rest => do
      let value ← reader
      (value :: ·) <$> each rest

end Reader

/-- The reader takes exactly these bytes off the front of whatever starts with
them, and yields the value. -/
def Reads {α : Type} (reader : Reader α) (bytes : Bytes) (value : α) : Prop :=
  ∀ rest, reader (bytes ++ rest) = some (value, rest)

namespace Reads

variable {α β : Type} {reader : Reader α} {bytes : Bytes} {value : α}

theorem pure (value : α) : Reads (Pure.pure value) [] value :=
  fun _ => rfl

theorem bind {f : α → Reader β} {later : Bytes} {result : β} (first : Reads reader bytes value)
    (second : Reads (f value) later result) : Reads (reader >>= f) (bytes ++ later) result := by
  intro rest
  change ((reader (bytes ++ later ++ rest)).bind fun pair => f pair.1 pair.2) = _
  rw [List.append_assoc, first]
  exact second rest

theorem map (f : α → β) (h : Reads reader bytes value) :
    Reads (f <$> reader) bytes (f value) := by
  intro rest
  change ((reader (bytes ++ rest)).bind fun pair => some (f pair.1, pair.2)) = _
  rw [h]
  rfl

/-- A step that reads nothing may stand behind any other. -/
theorem bind_ofOption {next : α → Option β} {result : β} (h : Reads reader bytes value)
    (hnext : next value = some result) :
    Reads (reader >>= fun found => Reader.ofOption (next found)) bytes result := by
  have hsecond : Reads (Reader.ofOption (next value)) [] result := by
    intro rest
    simp [Reader.ofOption, hnext]
  simpa using h.bind (f := fun found => Reader.ofOption (next found)) hsecond

theorem take (bytes : Bytes) : Reads (Reader.take bytes.length) bytes bytes := by
  intro rest
  simp [Reader.take]

/-- What is read off whatever follows is also read to the end. -/
theorem whole (h : Reads reader bytes value) : reader.whole bytes = some value := by
  have hend := h []
  rw [List.append_nil] at hend
  simp [Reader.whole, hend]

theorem number {width value : Nat} (h : value < Bytes.capacity width) :
    Reads (Reader.number width) (Bytes.bigEndian width value) value := by
  have htake := take (Bytes.bigEndian width value)
  rw [Bytes.length_bigEndian] at htake
  have hread := htake.map Bytes.ofBigEndian
  rwa [Bytes.ofBigEndian_bigEndian_of_lt h] at hread

theorem literal (expected : Bytes) : Reads (Reader.literal expected) expected () :=
  (take expected).bind_ofOption (if_pos rfl)

/-- A body need only be read to its end; what its reader makes of more does not
matter. -/
theorem within (h : reader.whole bytes = some value) :
    Reads (Reader.within bytes.length reader) bytes value :=
  (take bytes).bind_ofOption h

/-- An optional value is read exactly if it was written. -/
theorem optional {present : Bool} {found : Option α} {write : α → Bytes}
    (hpresent : found.isSome = present) (h : ∀ value ∈ found, Reads reader (write value) value) :
    Reads (Reader.optional present reader) (found.toList.flatMap write) found := by
  cases found with
  | none =>
      obtain rfl : present = false := hpresent.symm
      exact pure none
  | some value =>
      obtain rfl : present = true := hpresent.symm
      simpa [Reader.optional] using (h value rfl).map some

/-- Values that are read one by one are read as a list. -/
theorem each {readers : List (Reader α)} {values : List α} {write : α → Bytes}
    (h : List.Forall₂ (fun reader value => Reads reader (write value) value) readers values) :
    Reads (Reader.each readers) (values.flatMap write) values := by
  induction h with
  | nil => exact pure []
  | @cons reader value readers values hhead _ ih =>
      exact hhead.bind (ih.map (value :: ·))

end Reads

end SwapCompiler

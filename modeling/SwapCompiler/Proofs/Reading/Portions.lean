import SwapCompiler.Proofs.ReadBack
import SwapCompiler.Proofs.Reading.Stream
import SwapCompiler.Proofs.Shares

/-!
# Reading shares one after the other

The parts of a split amount stand back to back, each behind the header of its share,
which declares how long the part is.

* `Portion` is a part before it gets its header, and `Portion.encode` gives it one.
* `Portion.Located` says which source position the header then holds.
* `Portion.encode_eq_error_iff`: a part gets no header only if its source does not occur.
* `Branch.payload?` reads the children of a branch where the words of its body say that
  they are.
* `Portion.encode_decodes` is the result for both formats.
-/

namespace SwapCompiler

/-- Code that spends some part of an amount. -/
structure Portion where
  body : Bytes
  percent : Float
  source : ShareSource

namespace Portion

/-- The code behind the header of its share. -/
def encode (portion : Portion) : Except Fault Bytes :=
  (Share.of portion.percent portion.source portion.body).map (·.bytes portion.body)

/-- The source position that a header must hold: zero if the part is the whole or no source
is given, the position of the native balance, or the least one at which the
body holds the address of the source token. -/
def Located (portion : Portion) (position : Nat) : Prop :=
  if Share.isWhole portion.percent then position = 0
  else
    match portion.source with
    | .whole => position = 0
    | .native => position = Share.nativePosition
    | .token token =>
        Bytes.OccursAt token.bytes position portion.body ∧
          ∀ earlier < position, ¬ Bytes.OccursAt token.bytes earlier portion.body

/-- The part is not the whole, and its source token occurs nowhere in the body. -/
def Lacks (portion : Portion) (token : Address) : Prop :=
  Share.isWhole portion.percent = false ∧ portion.source = .token token ∧
    ∀ index, ¬ Bytes.OccursAt token.bytes index portion.body

/-- The share and the body that a reader must find. -/
def Holds (portion : Portion) (found : Share × Bytes) : Prop :=
  found.2 = portion.body ∧ found.1.hundredths = Share.hundredthsOf portion.percent ∧
    portion.Located found.1.position

variable {portion : Portion} {portions : List Portion} {block : Bytes} {blocks : List Bytes}

theorem positionOf_eq_ok_iff {position : Nat} :
    Share.positionOf portion.percent portion.source portion.body = .ok position ↔
      portion.Located position := by
  unfold Share.positionOf Located
  by_cases hwhole : Share.isWhole portion.percent = true
  · simp [hwhole, eq_comm]
  · simp only [hwhole, Bool.false_eq_true, if_false]
    cases portion.source with
    | whole => simp [eq_comm]
    | native => simp [eq_comm]
    | token token =>
        simp only [locate_eq_ok_iff, Bytes.firstIndex?_eq_some_iff, ne_eq, token.bytes_ne_nil,
          not_false_eq_true, true_and]

theorem positionOf_eq_error_iff {fault : Fault} :
    Share.positionOf portion.percent portion.source portion.body = .error fault ↔
      ∃ token, portion.Lacks token ∧
        fault = .patternAbsent "metadata source token" token.bytes portion.body.length none := by
  unfold Share.positionOf Lacks
  by_cases hwhole : Share.isWhole portion.percent = true
  · simp [hwhole]
  · simp only [hwhole, Bool.false_eq_true, if_false, true_and]
    cases portion.source with
    | whole => simp
    | native => simp
    | token token =>
        simp only [ShareSource.token.injEq, exists_eq_left', and_assoc,
          ← Bytes.firstIndex?_eq_none_iff token.bytes_ne_nil]
        cases hfound : Bytes.firstIndex? token.bytes portion.body with
        | none => simp [locate, hfound, eq_comm]
        | some index => simp [locate, hfound]

theorem encode_eq_ok_iff :
    portion.encode = .ok block ↔
      ∃ share, Share.of portion.percent portion.source portion.body = .ok share ∧
        share.bytes portion.body = block :=
  map_eq_ok_iff

/-- The fields of a header are wide enough for any body that can be counted, so that only
the search for the source can fail. -/
theorem encode_eq_error_iff (hlength : portion.body.length < Bytes.capacity 8) {fault : Fault} :
    portion.encode = .error fault ↔
      ∃ token, portion.Lacks token ∧
        fault = .patternAbsent "metadata source token" token.bytes portion.body.length none := by
  rw [← positionOf_eq_error_iff, encode]
  cases hposition : Share.positionOf portion.percent portion.source portion.body with
  | error cause => simp [Share.of, hposition, bind, Except.bind, Except.map]
  | ok position =>
      obtain ⟨share, hshare⟩ := Share.exists_of ⟨position, hposition⟩ hlength
      simp [hshare, Except.map]

/-- The encoded portions, back to back, are the shares of their bodies. -/
theorem exists_shares (h : portions.mapM encode = .ok blocks) :
    ∃ found : List (Share × Bytes),
      blocks.flatten = found.flatMap (fun entry => entry.1.bytes entry.2) ∧
        (∀ entry ∈ found, entry.1.Fits entry.2) ∧ List.Forall₂ Holds portions found := by
  rw [mapM_eq_ok_iff] at h
  induction h with
  | nil => exact ⟨[], rfl, by simp, .nil⟩
  | @cons portion block portions blocks hblock _ ih =>
      obtain ⟨found, hbytes, hfits, hholds⟩ := ih
      obtain ⟨share, hshare, rfl⟩ := encode_eq_ok_iff.1 hblock
      obtain ⟨hposition, hhundredths, _⟩ := Share.of_eq_ok_iff.1 hshare
      refine ⟨(share, portion.body) :: found, ?_, ?_, .cons ⟨rfl, hhundredths, ?_⟩ hholds⟩
      · rw [List.flatten_cons, List.flatMap_cons, hbytes]
      · exact List.forall_mem_cons.2 ⟨Share.fits_of_eq_ok hshare, hfits⟩
      · exact positionOf_eq_ok_iff.1 hposition

end Portion

theorem Share.bytes_ne_nil (share : Share) (body : Bytes) : share.bytes body ≠ [] := by
  have hlength := share.length_header body
  rw [← List.length_pos_iff, Share.bytes, List.length_append]
  omega

/-- Bodies behind the headers of their shares are read back one after the other. -/
theorem Share.stream_flatMap {found : List (Share × Bytes)}
    (hfits : ∀ entry ∈ found, entry.1.Fits entry.2) :
    (Share.reader Reader.rest).stream (found.flatMap fun entry => entry.1.bytes entry.2) =
      some found := by
  refine Reader.stream_flatMap fun entry hentry => ⟨?_, entry.1.bytes_ne_nil entry.2⟩
  exact Share.reads (hfits entry hentry) rfl

/-! ## The payload of a branch -/

/-- The children in the body of a branch, found as a contract finds a dynamic argument: the
first word behind the selector says where, from there on, the length word of the argument
stands, and the argument follows to the end. -/
def Branch.payload? (body : Bytes) : Option Bytes := do
  let (_, arguments) ← Reader.literal (List.replicate 32 0) body
  let (offset, _) ← Reader.number 32 arguments
  let (length, rest) ← Reader.number 32 (arguments.drop offset)
  (Reader.take length).whole rest

theorem Branch.payload?_body {children : Bytes} (h : children.length < Bytes.capacity 32) :
    payload? (body children) = some children := by
  have hhead : Reader.literal (List.replicate 32 0) (body children) =
      some ((), Bytes.word 32 ++ (Bytes.word children.length ++ children)) := by
    have hread := Reads.literal (List.replicate 32 (0 : UInt8))
      (Bytes.word 32 ++ (Bytes.word children.length ++ children))
    simpa [body] using hread
  have hoffset : Reader.number 32 (Bytes.word 32 ++ (Bytes.word children.length ++ children)) =
      some (32, Bytes.word children.length ++ children) :=
    Reads.number (by decide) _
  have hjump : (Bytes.word 32 ++ (Bytes.word children.length ++ children)).drop 32 =
      Bytes.word children.length ++ children := by
    have hword : (Bytes.word 32).length = 32 := Bytes.length_word 32
    rw [← hword]
    simp
  have hlength : Reader.number 32 (Bytes.word children.length ++ children) =
      some (children.length, children) :=
    Reads.number h children
  simp only [payload?, hhead, hoffset, hjump, hlength, Option.bind_eq_bind, Option.bind_some]
  exact (Reads.take children).whole

namespace Portion

/-- Shares and branch payloads decode uniquely.

* Whatever portions get headers, reading the blocks by the declared lengths gives exactly the
  bodies, in order, each with its part in hundredths of a percent and the position of its
  source.
* A portion that a 64-bit machine can hold gets no header exactly if it is not the whole
  and its source token occurs nowhere in the body, and that is what is reported.
* The payload of a branch is found by the two words in front of it. -/
theorem encode_decodes :
    (∀ portions blocks, portions.mapM encode = .ok blocks →
      ∃ found, (Share.reader Reader.rest).stream blocks.flatten = some found ∧
        List.Forall₂ Holds portions found) ∧
    (∀ portion : Portion, portion.body.length < Bytes.capacity 8 → ∀ fault,
      portion.encode = .error fault ↔ ∃ token, portion.Lacks token ∧
        fault = .patternAbsent "metadata source token" token.bytes portion.body.length none) ∧
    ∀ payload : Bytes, payload.length < Bytes.capacity 32 →
      Branch.payload? (Branch.body payload) = some payload := by
  refine ⟨fun portions blocks h => ?_, fun portion hlength fault => encode_eq_error_iff hlength,
    fun payload hlength => Branch.payload?_body hlength⟩
  obtain ⟨found, hbytes, hfits, hholds⟩ := exists_shares h
  exact ⟨found, by rw [hbytes, Share.stream_flatMap hfits], hholds⟩

/-- Two fifths of a token that stands behind the first byte, then three fifths of the native
balance; without the token among its bytes the first part gets no header. -/
theorem encode_decodes_two :
    let token : Portion := ⟨9 :: (Address.ofNat 5).bytes, 40.0, .token (.ofNat 5)⟩
    let native : Portion := ⟨[7, 8], 60.0, .native⟩
    let lost : Portion := ⟨[7, 8], 40.0, .token (.ofNat 5)⟩
    (∃ blocks found, [token, native].mapM encode = .ok blocks ∧
      (Share.reader Reader.rest).stream blocks.flatten = some found ∧
        List.Forall₂ Holds [token, native] found) ∧
    lost.encode = .error (.patternAbsent "metadata source token" (Address.ofNat 5).bytes 2 none) ∧
    Branch.payload? (Branch.body [1, 2, 3]) = some [1, 2, 3] := by
  intro token native lost
  obtain ⟨hread, hlost, hpayload⟩ := encode_decodes
  obtain ⟨blocks, hblocks⟩ : ∃ blocks, [token, native].mapM encode = .ok blocks :=
    exists_eq_ok_of_isSome (by decide +kernel)
  obtain ⟨found, hfound, hholds⟩ := hread _ blocks hblocks
  have hlacks : lost.Lacks (.ofNat 5) := by
    refine ⟨by decide +kernel, rfl, (Bytes.firstIndex?_eq_none_iff ?_).1 (by decide)⟩
    exact Address.bytes_ne_nil _
  exact ⟨⟨blocks, found, hblocks, hfound, hholds⟩,
    (hlost lost (by decide) _).2 ⟨.ofNat 5, hlacks, rfl⟩, hpayload [1, 2, 3] (by decide)⟩

end Portion

end SwapCompiler

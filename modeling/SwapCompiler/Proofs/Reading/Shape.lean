import SwapCompiler.Code.Program
import SwapCompiler.Proofs.Reading.Wire

/-!
# Reading a program of known shape

A shape says which format stands where: it holds no length, no address and no
byte of code.  The reader of a shape follows it and trusts the declared lengths
for everything else, and it refuses code with bytes left over at any level.

How a hop leaves the native asset is not written into the code; the shape hands
it through.
-/

namespace SwapCompiler

/-- Which frames stand around an exchange call. -/
structure LegShape where
  wrap : Bool
  approve : Bool
  unwrap : Bool
  transfer : Bool
  deriving DecidableEq

/-- Which formats make up the code of a hop. -/
structure HopShape where
  /-- Each leg stands behind a share. -/
  shared : Bool
  legs : List LegShape
  /-- A branch frame stands around the legs. -/
  branched : Bool
  unwrap : Bool
  leaves : NativeForm
  deriving DecidableEq

/-- Which formats make up the code of a route. -/
structure RouteShape where
  /-- The route stands behind a share. -/
  shared : Bool
  hops : List HopShape
  forward : Bool
  deriving DecidableEq

/-- Which formats make up the code of a trade. -/
structure ProgramShape where
  /-- The whole stands behind a share. -/
  shared : Bool
  wrap : Bool
  /-- A branch frame stands around all routes. -/
  branched : Bool
  routes : List RouteShape
  unwrap : Bool
  forward : Bool
  deriving DecidableEq

namespace Reader

variable {α : Type}

/-- Code behind a share, if there is one. -/
def shared (present : Bool) (inner : Reader α) : Reader (Option Share × α) :=
  if present then (fun found => (some found.1, found.2)) <$> Share.reader inner
  else (none, ·) <$> inner

/-- Code inside a branch, if there is one. -/
def branched (present : Bool) (inner : Reader α) : Reader (Option Branch × α) :=
  if present then (fun found => (some found.1, found.2)) <$> Branch.reader inner
  else (none, ·) <$> inner

/-- A frame that is there under a condition. -/
def frame? (present : Bool) : Reader (Option Frame) :=
  optional present Frame.reader

end Reader

/-- The frames of a fill, in order. -/
def LegShape.reader (shape : LegShape) : Reader Leg := do
  let wrap ← Reader.frame? shape.wrap
  let approve ← Reader.frame? shape.approve
  let call ← Frame.reader
  let unwrap ← Reader.frame? shape.unwrap
  let transfer ← Reader.frame? shape.transfer
  pure ⟨wrap, approve, call, unwrap, transfer⟩

/-- A fill's frames and their share. -/
def LegShape.partReader (shared : Bool) (shape : LegShape) : Reader Part :=
  (fun found => ⟨found.1, found.2⟩) <$> Reader.shared shared shape.reader

def HopShape.reader (shape : HopShape) : Reader HopCode := do
  let found ← Reader.branched shape.branched
    (Reader.each (shape.legs.map (LegShape.partReader shape.shared)))
  let unwrap ← Reader.frame? shape.unwrap
  pure ⟨found.2, found.1, unwrap, shape.leaves⟩

/-- The hops of a route, in order, and the frame behind them. -/
def RouteShape.codeReader (shape : RouteShape) : Reader RouteCode := do
  let hops ← Reader.each (shape.hops.map HopShape.reader)
  let forward ← Reader.frame? shape.forward
  pure ⟨hops, forward⟩

def RouteShape.reader (shape : RouteShape) : Reader RoutePart :=
  (fun found => ⟨found.1, found.2⟩) <$> Reader.shared shape.shared shape.codeReader

/-- What the share of the whole spends. -/
def ProgramShape.contentReader (shape : ProgramShape) : Reader (Option Share → Program) := do
  let wrap ← Reader.frame? shape.wrap
  let found ← Reader.branched shape.branched
    (Reader.each (shape.routes.map RouteShape.reader))
  let unwrap ← Reader.frame? shape.unwrap
  let forward ← Reader.frame? shape.forward
  pure fun share => ⟨wrap, found.1, found.2, unwrap, forward, share⟩

def ProgramShape.reader (shape : ProgramShape) : Reader Program :=
  (fun found => found.2 found.1) <$> Reader.shared shape.shared shape.contentReader

/-! ## Round trips -/

section

variable {α : Type} {inner : Reader α} {value : α} {code : List Instruction} {present : Bool}

@[simp] theorem codeBytes_frames (frames : List Frame) :
    codeBytes (frames.map .frame) = frames.flatMap Frame.bytes := by
  induction frames with
  | nil => rfl
  | cons frame rest ih => simp [ih, Instruction.bytes]

theorem codeBytes_flatMap {β : Type} (list : List β) (write : β → List Instruction) :
    codeBytes (list.flatMap write) = list.flatMap fun element => codeBytes (write element) := by
  induction list with
  | nil => rfl
  | cons element rest ih => simp [ih]

/-- Code behind an optional share is read back if the code is. -/
theorem Reads.shared {share : Option Share} (hpresent : share.isSome = present)
    (hfits : ∀ found ∈ share, found.Fits (codeBytes code))
    (h : Reads inner (codeBytes code) value) :
    Reads (Reader.shared present inner) (codeBytes (SwapCompiler.shared share code))
      (share, value) := by
  cases share with
  | none =>
      obtain rfl : present = false := hpresent.symm
      exact h.map fun found => (none, found)
  | some share =>
      obtain rfl : present = true := hpresent.symm
      have hread := (Share.reads (hfits share rfl) h.whole).map fun found => (some found.1, found.2)
      simpa [Reader.shared, SwapCompiler.shared, Instruction.bytes] using hread

/-- Code inside an optional branch is read back if the code is. -/
theorem Reads.branched {branch : Option Branch} (hpresent : branch.isSome = present)
    (hfits : ∀ found ∈ branch, (found.frame (codeBytes code)).Fits)
    (h : Reads inner (codeBytes code) value) :
    Reads (Reader.branched present inner) (codeBytes (SwapCompiler.branched branch code))
      (branch, value) := by
  cases branch with
  | none =>
      obtain rfl : present = false := hpresent.symm
      exact h.map fun found => (none, found)
  | some branch =>
      obtain rfl : present = true := hpresent.symm
      have hread := (Branch.reads (hfits branch rfl) h).map fun found => (some found.1, found.2)
      simpa [Reader.branched, SwapCompiler.branched, Instruction.bytes] using hread

theorem Reads.frame? {frame : Option Frame} (hpresent : frame.isSome = present)
    (hfits : ∀ found ∈ frame, found.Fits) :
    Reads (Reader.frame? present) (frame.toList.flatMap Frame.bytes) frame :=
  Reads.optional hpresent fun found hfound => Frame.reads (hfits found hfound)

end

end SwapCompiler

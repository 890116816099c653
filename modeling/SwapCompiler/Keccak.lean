import SwapCompiler.Bytes.BigEndian

/-!
# The Keccak-256 digest

The digest behind function selectors and checksummed addresses: Keccak-f[1600]
with a rate of 136 bytes and the padding `0x01 … 0x80`.

* A state is 25 lanes of 64 bits; `State.lane` names them by column and row,
  both taken modulo five, so each step mapping is one formula per lane.
* Bytes enter and leave lanes with the least significant byte first.
-/

namespace SwapCompiler.Keccak

/-- Twenty-five lanes, row after row. -/
abbrev State := Vector UInt64 25

namespace State

/-- The lane of a column and a row, both modulo five. -/
def lane (s : State) (x y : Nat) : UInt64 :=
  s.get ⟨x % 5 + 5 * (y % 5), by omega⟩

/-- The state whose lane at column `x` and row `y` is `f x y`. -/
def ofLanes (f : Nat → Nat → UInt64) : State :=
  Vector.ofFn fun i => f (i.val % 5) (i.val / 5)

end State

/-- Rotates a lane towards its high end. -/
def rotate (lane : UInt64) (count : Nat) : UInt64 :=
  (lane <<< UInt64.ofNat count) ||| (lane >>> UInt64.ofNat (64 - count))

/-- How far each lane is rotated, row after row. -/
def rotations : Vector Nat 25 :=
  #v[ 0,  1, 62, 28, 27,
     36, 44,  6, 55, 20,
      3, 10, 43, 25, 39,
     41, 45, 15, 21,  8,
     18,  2, 61, 56, 14]

/-- The constant added to lane (0, 0) in each of the 24 rounds. -/
def roundConstants : List UInt64 :=
  [0x0000000000000001, 0x0000000000008082, 0x800000000000808a, 0x8000000080008000,
   0x000000000000808b, 0x0000000080000001, 0x8000000080008081, 0x8000000000008009,
   0x000000000000008a, 0x0000000000000088, 0x0000000080008009, 0x000000008000000a,
   0x000000008000808b, 0x800000000000008b, 0x8000000000008089, 0x8000000000008003,
   0x8000000000008002, 0x8000000000000080, 0x000000000000800a, 0x800000008000000a,
   0x8000000080008081, 0x8000000000008080, 0x0000000080000001, 0x8000000080008008]

/-- The parity of one column. -/
def columnParity (s : State) (x : Nat) : UInt64 :=
  s.lane x 0 ^^^ s.lane x 1 ^^^ s.lane x 2 ^^^ s.lane x 3 ^^^ s.lane x 4

/-- Adds to each lane the parities of the two neighbouring columns. -/
def diffuse (s : State) : State :=
  let parity := Vector.ofFn (n := 5) fun x => columnParity s x.val
  State.ofLanes fun x y =>
    s.lane x y ^^^ parity.get ⟨(x + 4) % 5, by omega⟩ ^^^
      rotate (parity.get ⟨(x + 1) % 5, by omega⟩) 1

/-- Rotates every lane by its own count and moves it to its new place: the lane
that arrives at column `x`, row `y` comes from column `x + 3y`, row `x`. -/
def disperse (s : State) : State :=
  State.ofLanes fun x y =>
    rotate (s.lane (x + 3 * y) x)
      (rotations.get ⟨(x + 3 * y) % 5 + 5 * (x % 5), by omega⟩)

/-- Combines each lane with the next two of its row. -/
def combine (s : State) : State :=
  State.ofLanes fun x y =>
    s.lane x y ^^^ (~~~ s.lane (x + 1) y &&& s.lane (x + 2) y)

/-- One round with its constant. -/
def round (s : State) (constant : UInt64) : State :=
  let mixed := combine (disperse (diffuse s))
  State.ofLanes fun x y =>
    if x = 0 ∧ y = 0 then mixed.lane 0 0 ^^^ constant else mixed.lane x y

/-- The permutation of the state. -/
def permute (s : State) : State :=
  roundConstants.foldl round s

/-- The number of bytes that one application of the permutation takes in. -/
def rate : Nat := 136

/-- The message with its padding, a whole number of blocks. -/
def padded (message : Bytes) : Bytes :=
  match rate - message.length % rate with
  | 0 => message
  | 1 => message ++ [0x81]
  | missing + 2 => message ++ 0x01 :: List.replicate missing 0 ++ [0x80]

/-- Up to eight bytes as a lane, least significant byte first. -/
def laneOfBytes (bytes : Bytes) : UInt64 :=
  bytes.foldr (fun byte lane => (lane <<< 8) ||| byte.toUInt64) 0

/-- The eight bytes of a lane, least significant first. -/
def bytesOfLane (lane : UInt64) : Bytes :=
  (List.range 8).map fun i => (lane >>> UInt64.ofNat (8 * i)).toUInt8

/-- Adds one block to the state and permutes it. -/
def absorb (s : State) (block : Bytes) : State :=
  permute (Vector.ofFn fun i => s.get i ^^^ laneOfBytes ((block.drop (8 * i.val)).take 8))

/-- The digest of a message: 32 bytes. -/
def digest (message : Bytes) : Bytes :=
  let text := padded message
  let final := (List.range (text.length / rate)).foldl
    (fun s i => absorb s ((text.drop (rate * i)).take rate)) (Vector.replicate 25 0)
  (final.toList.flatMap bytesOfLane).take 32

end SwapCompiler.Keccak

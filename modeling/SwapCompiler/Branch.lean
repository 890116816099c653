import SwapCompiler.Frame.Basic

/-!
# Branches

A branch is a frame whose body holds further code.  The interpreter calls
itself on it and splits the running amount between the parts that it finds
there.  The body is

`zeros (28) | zero selector (4) | the word 32 | the length word | children`,

so that the children are one dynamic argument of a call.
-/

namespace SwapCompiler

/-- A branch frame without its children. -/
structure Branch where
  executor : Address
  flag : Flag
  tokenOffset : Nat
  deriving DecidableEq

namespace Branch

/-- The body around some children. -/
def body (children : Bytes) : Bytes :=
  List.replicate 32 0 ++ Bytes.word 32 ++ Bytes.word children.length ++ children

/-- How far before the end of a body the amount is patched in. -/
def amountDistance : Nat := 64 + 28

/-- The frame of a branch. -/
def frame (branch : Branch) (children : Bytes) : Frame :=
  { target := branch.executor
    amountOffset :=
      if branch.flag.patches then (body children).length - amountDistance else 0
    tokenOffset := branch.tokenOffset
    returnPosition := 0
    opcode := .verticalBranch
    flag := branch.flag
    body := body children }

/-- The branch around some children.  A flag that reads a token's balance needs
a token, and its word among the children. -/
def of (executor : Address) (flag : Flag) (token : Option Address) (children : Bytes) :
    Except Fault Branch :=
  if flag.checksToken then
    match token with
    | none => .error .branchTokenMissing
    | some token => do
        let index ← locate "branch destination token" token.word (body children)
        .ok ⟨executor, flag, index⟩
  else .ok ⟨executor, flag, 0⟩

@[simp] theorem length_body (children : Bytes) :
    (body children).length = children.length + 96 := by
  simp only [body, List.length_append, List.length_replicate, Bytes.length_word]
  omega

end Branch

/-- Code as the one dynamic argument of the executor: the word 32, the total
length, the code. -/
def envelope (code : Bytes) : Bytes :=
  Bytes.word 32 ++ Bytes.word (code.length + 64) ++ code

@[simp] theorem length_envelope (code : Bytes) :
    (envelope code).length = code.length + 64 := by
  simp only [envelope, List.length_append, Bytes.length_word]
  omega

end SwapCompiler

import SwapCompiler.Branch
import SwapCompiler.Share

/-!
# Executor code

Code is a list of instructions.  An instruction is a frame, a branch with the
code that it fans out to, or a share with the code that spends it.  The wire
format of code is the concatenation of its instructions' bytes; lengths and
headers of the two nested forms come from the code inside them.
-/

namespace SwapCompiler

/-- One instruction of executor code. -/
inductive Instruction
  | frame (frame : Frame)
  | branch (branch : Branch) (children : List Instruction)
  | share (share : Share) (content : List Instruction)

mutual

/-- An instruction on the wire. -/
def Instruction.bytes : Instruction → Bytes
  | .frame frame => frame.bytes
  | .branch branch children => (branch.frame (codeBytes children)).bytes
  | .share share content => share.bytes (codeBytes content)

/-- Code on the wire. -/
def codeBytes : List Instruction → Bytes
  | [] => []
  | instruction :: rest => instruction.bytes ++ codeBytes rest

end

@[simp] theorem codeBytes_nil : codeBytes [] = [] := by
  simp [codeBytes]

@[simp] theorem codeBytes_cons (instruction : Instruction) (rest : List Instruction) :
    codeBytes (instruction :: rest) = instruction.bytes ++ codeBytes rest := by
  simp [codeBytes]

@[simp] theorem codeBytes_append (first second : List Instruction) :
    codeBytes (first ++ second) = codeBytes first ++ codeBytes second := by
  induction first with
  | nil => simp
  | cons instruction rest ih => simp [ih, List.append_assoc]

end SwapCompiler

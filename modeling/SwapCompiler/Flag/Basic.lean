import SwapCompiler.Fault

/-!
# Frame flags

A frame tells the interpreter how to feed the running amount into a call and
which balance to read afterwards.  The two choices, one of four and one of
three, share a single code below twelve: its remainder by four is the first and
its remainder by three the second.
-/

namespace SwapCompiler

/-- How the running amount enters a call. -/
inductive Insertion
  | nothing
  /-- As native value. -/
  | native
  /-- As native value and in the calldata. -/
  | nativeAndData
  /-- In the calldata. -/
  | data
  deriving DecidableEq, Repr

namespace Insertion

/-- The choice as a number. -/
def code : Insertion → Nat
  | nothing => 0
  | native => 1
  | nativeAndData => 2
  | data => 3

/-- The choice with this number. -/
def ofCode? : Nat → Option Insertion
  | 0 => some nothing
  | 1 => some native
  | 2 => some nativeAndData
  | 3 => some data
  | _ => none

/-- The amount is written into the calldata. -/
def patches : Insertion → Bool
  | nativeAndData | data => true
  | nothing | native => false

end Insertion

/-- Which balance is read after a call. -/
inductive BalanceCheck
  | nothing
  /-- The native balance. -/
  | native
  /-- The balance of the token whose word stands at the frame's token offset. -/
  | token
  deriving DecidableEq, Repr

namespace BalanceCheck

/-- The choice as a number. -/
def code : BalanceCheck → Nat
  | nothing => 0
  | native => 1
  | token => 2

/-- The choice with this number. -/
def ofCode? : Nat → Option BalanceCheck
  | 0 => some nothing
  | 1 => some native
  | 2 => some token
  | _ => none

end BalanceCheck

/-- What the interpreter does before and after a call. -/
structure Flag where
  insertion : Insertion
  check : BalanceCheck
  deriving DecidableEq, Repr

namespace Flag

/-- The code below twelve with the two given remainders: nine is one modulo
four and zero modulo three, four is zero modulo four and one modulo three. -/
def code (flag : Flag) : Nat :=
  (flag.insertion.code * 9 + flag.check.code * 4) % 12

/-- The flag with this code. -/
def ofCode (code : Nat) : Except Fault Flag :=
  if code < 12 then
    match Insertion.ofCode? (code % 4), BalanceCheck.ofCode? (code % 3) with
    | some insertion, some check => .ok ⟨insertion, check⟩
    | _, _ => .error (.flagCode code)
  else .error (.flagCode code)

/-- The flag writes the amount into the calldata. -/
def patches (flag : Flag) : Bool :=
  flag.insertion.patches

/-- The flag reads a token's balance. -/
def checksToken (flag : Flag) : Bool :=
  flag.check = .token

theorem code_lt (flag : Flag) : flag.code < 12 :=
  Nat.mod_lt _ (by decide)

/-- Every flag is the one of its code. -/
theorem ofCode_code (flag : Flag) : ofCode flag.code = .ok flag := by
  rcases flag with ⟨insertion, check⟩
  cases insertion <;> cases check <;> rfl

end Flag

end SwapCompiler

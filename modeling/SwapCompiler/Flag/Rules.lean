import SwapCompiler.Flag.Basic

/-!
# Choosing flags

The flag of an exchange call is the first row of a table whose condition holds.
There is one table for a trade that is a single hop, one for hops of longer or
parallel routes, and one rule for the frame that fans a hop out.
-/

namespace SwapCompiler

/-- One row of a table of flags. -/
structure FlagRule (Facts : Type) where
  name : String
  applies : Facts → Bool
  flag : Flag

namespace FlagRule

/-- The flag of the first row that applies. -/
def first {Facts : Type} (rules : List (FlagRule Facts)) (facts : Facts) (otherwise : Flag) :
    Flag :=
  match rules.find? (·.applies facts) with
  | some rule => rule.flag
  | none => otherwise

/-- The names of all rows that apply, in order. -/
def applicable {Facts : Type} (rules : List (FlagRule Facts)) (facts : Facts) : List String :=
  (rules.filter (·.applies facts)).map (·.name)

end FlagRule

/-- What the flag of a call depends on in a trade of one hop. -/
structure SingleFacts where
  nativeSource : Bool
  nativeDestination : Bool
  wraps : Bool
  unwraps : Bool
  paysRecipient : Bool
  deriving DecidableEq

namespace SingleFacts

/-- The table for a trade of one hop. -/
def rules : List (FlagRule SingleFacts) :=
  [⟨"native source, no wrap", fun f => f.nativeSource && !f.wraps, ⟨.native, .token⟩⟩,
   ⟨"native destination, no unwrap", fun f => f.nativeDestination && !f.unwraps,
     ⟨.nothing, .native⟩⟩,
   ⟨"no recipient routing or unwrap",
     fun f => !f.paysRecipient || (f.nativeDestination && f.unwraps), ⟨.nothing, .token⟩⟩]

/-- The flag of a call in a trade of one hop. -/
def flag (facts : SingleFacts) : Flag :=
  FlagRule.first rules facts ⟨.nothing, .nothing⟩

end SingleFacts

/-- What the flag of a call depends on in a route of a longer or parallel
trade. -/
structure HopFacts where
  first : Bool
  last : Bool
  nativeSource : Bool
  nativeDestination : Bool
  wraps : Bool
  unwraps : Bool
  /-- The route has more than one hop. -/
  horizontal : Bool
  special : Bool
  /-- The hop is fanned out by a branch frame. -/
  branched : Bool
  paysRecipient : Bool
  deriving DecidableEq

namespace HopFacts

/-- The table for hops of longer and parallel trades.  On a first hop a branch
frame or a special exchange settles the amount by itself; a later hop with a
native source spends what a native balance check has measured. -/
def rules : List (FlagRule HopFacts) :=
  [⟨"first hop branched or special", fun f => f.first && (f.branched || f.special),
     ⟨.nothing, .nothing⟩⟩,
   ⟨"first hop, native source, no wrap, horizontal sequence",
     fun f => f.first && f.nativeSource && !f.wraps && f.horizontal, ⟨.nativeAndData, .token⟩⟩,
   ⟨"first hop, native source, no wrap", fun f => f.first && f.nativeSource && !f.wraps,
     ⟨.native, .token⟩⟩,
   ⟨"later last hop, native source, no wrap, with recipient",
     fun f => !f.first && f.last && f.nativeSource && !f.wraps && f.paysRecipient,
     ⟨.nativeAndData, .nothing⟩⟩,
   ⟨"later hop, native source, no wrap", fun f => !f.first && f.nativeSource && !f.wraps,
     ⟨.nativeAndData, .token⟩⟩,
   ⟨"native source, wrap", fun f => f.nativeSource && f.wraps, ⟨.data, .token⟩⟩,
   ⟨"native destination, unwrap", fun f => f.nativeDestination && f.unwraps, ⟨.data, .token⟩⟩,
   ⟨"native destination, no unwrap", fun f => f.nativeDestination && !f.unwraps,
     ⟨.data, .native⟩⟩,
   ⟨"intermediate hop", fun f => !f.last, ⟨.data, .token⟩⟩,
   ⟨"no recipient routing", fun f => !f.paysRecipient, ⟨.data, .token⟩⟩,
   ⟨"last hop with recipient", fun _ => true, ⟨.data, .nothing⟩⟩]

/-- The flag of a call in a longer or parallel trade. -/
def flag (facts : HopFacts) : Flag :=
  FlagRule.first rules facts ⟨.data, .nothing⟩

end HopFacts

/-- What the flag of a branch frame depends on. -/
structure BranchFacts where
  last : Bool
  nativeDestination : Bool
  /-- Some exchange of the hop deals with the wrapped token. -/
  anyWrapping : Bool
  /-- Some exchange of the hop deals with the raw asset. -/
  anyRaw : Bool
  deriving DecidableEq

namespace BranchFacts

/-- The flag of the frame that fans a hop out.  After a last hop a balance is
needed only for the unwrap that follows; after any other hop it feeds the next
one, in the form in which that hop finds the asset. -/
def flag (facts : BranchFacts) : Flag :=
  if facts.last then
    if facts.nativeDestination && facts.anyWrapping then ⟨.data, .token⟩ else ⟨.data, .nothing⟩
  else if facts.nativeDestination && facts.anyRaw then ⟨.data, .native⟩
  else ⟨.data, .token⟩

end BranchFacts

end SwapCompiler

/-!
# Chains

The chains with a built-in network, their numbers and their names.
-/

namespace SwapCompiler

/-- A chain that the compiler knows. -/
inductive Chain
  | ethereum
  | optimism
  | bsc
  | polygon
  | base
  | arbitrum
  | avalanche
  deriving DecidableEq, Repr

namespace Chain

/-- Every chain. -/
def all : List Chain :=
  [ethereum, optimism, bsc, polygon, base, arbitrum, avalanche]

/-- The chain's public number. -/
def id : Chain → Nat
  | ethereum => 1
  | optimism => 10
  | bsc => 56
  | polygon => 137
  | base => 8453
  | arbitrum => 42161
  | avalanche => 43114

/-- The chain's name, also its key in a directory of networks. -/
def name : Chain → String
  | ethereum => "ethereum"
  | optimism => "optimism"
  | bsc => "bsc"
  | polygon => "polygon"
  | base => "base"
  | arbitrum => "arbitrum"
  | avalanche => "avalanche"

/-- The chain with exactly this name. -/
def ofName? (text : String) : Option Chain :=
  all.find? fun chain => chain.name = text

/-- The chain that a user names, in any case.  `mainnet` is another name of the
first chain. -/
def parse? (text : String) : Option Chain :=
  let lower := text.toLower
  if lower = "mainnet" then some ethereum else ofName? lower

theorem mem_all (chain : Chain) : chain ∈ all := by
  cases chain <;> decide

/-- A chain's name names it. -/
theorem ofName?_name (chain : Chain) : ofName? chain.name = some chain := by
  cases chain <;> decide

end Chain

end SwapCompiler

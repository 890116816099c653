import SwapCompiler.Address
import SwapCompiler.Amount
import SwapCompiler.Chain
import SwapCompiler.Decimal.Shortest

/-!
# What can go wrong

Every cause that stops a compilation is one constructor, with the facts that
its message reports.  A cause is of one of six kinds:

* `structural`: the trade, or the data aligned with it, breaks a rule;
* `pattern`: a literal that must be patched at run time is not in its calldata;
* `topology`: a combination of native, special and branched exchanges that no
  code covers;
* `input`: a name or code from outside that denotes nothing;
* `setup`: no network configuration to work with;
* `abandoned`: a call argument exceeds its word, which the call builders do not
  report as a fault of the trade.
-/

namespace SwapCompiler

/-- The kinds of causes. -/
inductive FaultKind
  | structural
  | pattern
  | topology
  | input
  | setup
  | abandoned
  deriving DecidableEq, Repr

/-- A list of percentages that must make up a whole. -/
inductive PercentLevel
  | routes
  | fills (hop route : Nat)
  deriving DecidableEq, Repr

/-- The level in words. -/
def PercentLevel.text : PercentLevel → String
  | .routes => "Route"
  | .fills hop route => s!"Swap exchange of swap {hop} in route {route}"

/-- The fill whose call was being built. -/
structure Site where
  exchange : String
  hop : Nat
  route : Nat
  deriving DecidableEq, Repr

/-- A cause that stops a compilation. -/
inductive Fault
  -- the tree of routes
  | noRoutes
  | noHops (route : Nat)
  | noFills (hop route : Nat)
  | percentOutOfRange (level : PercentLevel) (percent : Float)
  | percentSum (level : PercentLevel) (total : Float)
  | routeStart (route : Nat) (token source : Address)
  | routeEnd (route : Nat) (token destination : Address)
  | brokenPath (hop route : Nat) (bought sold : Address)
  | zeroTradeAmount
  | zeroFillAmount (exchange : String)
  -- the data given along with it
  | adapterCount (expected given : Nat)
  | adapterMissing (index : Nat)
  | depositMissing
  | withdrawMissing
  | withdrawTooShort (length : Nat)
  | branchTokenMissing
  -- the widths of words and fields
  | amountTooWide (amount : Nat)
  | argumentTooWide (amount : Nat)
  | fieldTooWide (field : String) (value width : Nat)
  -- literals to be patched
  | patternAbsent (what : String) (pattern : Bytes) (searched : Nat) (site : Option Site)
  -- combinations without code
  | wrappedSaleToRaw (hop route : Nat)
  | mixedSingleHop
  | specialInBranch (hop route : Nat)
  -- names and configuration
  | flagCode (code : Nat)
  | unknownChain (name : String)
  | directoryUnreadable (reason : String)
  | chainUnlisted (chain : Chain)
  | networkUnset
  deriving DecidableEq

namespace Fault

/-- The kind of a cause. -/
def kind : Fault → FaultKind
  | patternAbsent .. => .pattern
  | wrappedSaleToRaw .. | mixedSingleHop | specialInBranch .. => .topology
  | flagCode _ | unknownChain _ => .input
  | directoryUnreadable _ | chainUnlisted _ | networkUnset => .setup
  | argumentTooWide _ => .abandoned
  | _ => .structural

/-- The cause in words, without its kind. -/
def reason : Fault → String
  | noRoutes => "Price route has no routes"
  | noHops route => s!"Route {route} has no swaps"
  | noFills hop route => s!"Swap {hop} of route {route} has no swap exchanges"
  | percentOutOfRange level percent =>
      level.text ++ " percentage must be in (0, 100], got " ++ Decimal.floatText percent
  | percentSum level total =>
      level.text ++ " percentages must sum to 100, got " ++ Decimal.floatText total
  | routeStart route token source =>
      s!"Route {route} starts with " ++ token.display ++ " instead of the trade source " ++
        source.display
  | routeEnd route token destination =>
      s!"Route {route} ends with " ++ token.display ++ " instead of the trade destination " ++
        destination.display
  | brokenPath hop route bought sold =>
      s!"Swap {hop} of route {route} outputs " ++ bought.display ++
        " but the next swap sells " ++ sold.display
  | zeroTradeAmount => "Trade source amount is zero"
  | zeroFillAmount exchange => "Swap exchange " ++ exchange ++ " sells a zero amount"
  | adapterCount expected given => s!"Expected {expected} exchange params, got {given}"
  | adapterMissing index => s!"No exchange param at index {index}"
  | depositMissing => "Wrapping the native asset requires deposit calldata"
  | withdrawMissing => "Unwrapping the native asset requires withdraw calldata"
  | withdrawTooShort length =>
      s!"Withdraw calldata must hold a selector and an amount, got {length} bytes"
  | branchTokenMissing =>
      "Branch checks a destination token balance but has no destination token"
  | amountTooWide amount => "Amount " ++ Amount.write amount ++ " does not fit in a uint256"
  | argumentTooWide amount =>
      "Argument " ++ Amount.write amount ++ " does not fit in a uint256"
  | fieldTooWide field value width => field ++ s!" {value} does not fit in {width} bytes"
  | patternAbsent what pattern searched site =>
      let place :=
        match site with
        | none => ""
        | some site =>
            " (exchange " ++ site.exchange ++ s!" in swap {site.hop} of route {site.route})"
      what ++ " " ++ Bytes.Hex.writeMarked pattern ++
        s!" not found in {searched} bytes of calldata" ++ place
  | wrappedSaleToRaw hop route =>
      s!"Swap {hop} of route {route} sells wrapped native asset to an exchange needing raw " ++
        "native asset"
  | mixedSingleHop => "A single swap cannot mix exchanges with and without native wrapping"
  | specialInBranch hop route =>
      "Special exchange needing native wrapping inside the branch of swap " ++
        s!"{hop} of route {route}"
  | flagCode code => s!"Flag {code} is outside [0, 11]"
  | unknownChain name => "Unknown chain: " ++ name
  | directoryUnreadable reason => reason
  | chainUnlisted chain => "No executor config found for chain " ++ chain.name
  | networkUnset =>
      "Please set the chain or the executor config before building the encoder"

end Fault

/-- The heading of a kind in messages. -/
def FaultKind.heading : FaultKind → String
  | .structural => "Structural violation: "
  | .pattern => "Pattern not found: "
  | .topology => "Unsupported topology: "
  | .input => "Invalid input: "
  | .setup => "Fatal error: "
  | .abandoned => "Abandoned: "

/-- The whole message of a cause. -/
def Fault.message (fault : Fault) : String :=
  fault.kind.heading ++ fault.reason

/-- Names the fill whose calldata lacks a pattern; leaves any other cause as it
is. -/
def Fault.locate (site : Site) : Fault → Fault
  | .patternAbsent what pattern searched _ => .patternAbsent what pattern searched (some site)
  | fault => fault

end SwapCompiler

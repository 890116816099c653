import SwapCompiler.Network.Builtin
import SwapCompiler.Network.Directory

/-!
# Choosing a network

A user names a chain, a directory file, or a network as such.  A network given
as such wins; otherwise the chain is looked up in the file if there is one, and
among the built-in networks if there is none.
-/

namespace SwapCompiler

/-- The chain that a user names. -/
def Chain.parse (text : String) : Except Fault Chain :=
  match Chain.parse? text with
  | some chain => .ok chain
  | none => .error (.unknownChain text)

/-- What a user chose of the network to compile for. -/
structure Setup where
  chain : Option Chain
  file : Option DirectoryFile
  network : Option Network

namespace Setup

/-- Nothing is chosen. -/
def empty : Setup :=
  ⟨none, none, none⟩

/-- The network of a chain, from the file if there is one. -/
def networkOf (file : Option DirectoryFile) (chain : Chain) : Except Fault Network :=
  match file with
  | some file => file.network chain
  | none => .ok (Network.builtin chain)

/-- The network that the choices come to. -/
def resolve (setup : Setup) : Except Fault Network :=
  match setup.network, setup.chain with
  | some network, _ => .ok network
  | none, some chain => networkOf setup.file chain
  | none, none => .error .networkUnset

end Setup

end SwapCompiler

import SwapCompiler.Code.Instruction

/-!
# The code of a trade, part by part

A compiled trade keeps the parts that it was built from, so that each can be
spoken of: the frames around one exchange call, the shares of one hop and its
branch, the hops of one route, the shares of all routes and what surrounds
them.  Every part lists its instructions; the code of the whole is the list of
its parts' instructions, in order.
-/

namespace SwapCompiler

/-- The form in which the native asset is held. -/
inductive NativeForm
  | raw
  | wrapped
  deriving DecidableEq, Repr

/-- The frames of one fill. -/
structure Leg where
  /-- Wraps the native asset that the exchange sells. -/
  wrap : Option Frame
  /-- Lets the exchange take the token that it sells. -/
  approve : Option Frame
  /-- The exchange call itself. -/
  call : Frame
  /-- Unwraps what the exchange delivered. -/
  unwrap : Option Frame
  /-- Sends what the exchange delivered to the router. -/
  transfer : Option Frame
  deriving DecidableEq

/-- The frames of a fill, in order. -/
def Leg.frames (leg : Leg) : List Frame :=
  leg.wrap.toList ++ leg.approve.toList ++ [leg.call] ++ leg.unwrap.toList ++
    leg.transfer.toList

/-- The code of a fill. -/
def Leg.code (leg : Leg) : List Instruction :=
  leg.frames.map .frame

/-- Code behind a share, if there is one. -/
def shared (share : Option Share) (code : List Instruction) : List Instruction :=
  match share with
  | some share => [.share share code]
  | none => code

/-- A fill's frames with the share that they spend, where a hop is split. -/
structure Part where
  share : Option Share
  leg : Leg
  deriving DecidableEq

/-- The code of a part. -/
def Part.code (part : Part) : List Instruction :=
  shared part.share part.leg.code

/-- The code of one hop. -/
structure HopCode where
  parts : List Part
  /-- The branch that fans the parts out. -/
  branch : Option Branch
  /-- Unwraps what the exchanges delivered wrapped, before the next hop. -/
  unwrap : Option Frame
  /-- How the native asset is held afterwards, if the hop bought it. -/
  leaves : NativeForm
  deriving DecidableEq

/-- Code inside a branch, if there is one. -/
def branched (branch : Option Branch) (code : List Instruction) : List Instruction :=
  match branch with
  | some branch => [.branch branch code]
  | none => code

/-- The code of all parts of a hop, side by side. -/
def HopCode.children (hop : HopCode) : List Instruction :=
  hop.parts.flatMap Part.code

/-- The code of a hop. -/
def HopCode.code (hop : HopCode) : List Instruction :=
  branched hop.branch hop.children ++ hop.unwrap.toList.map .frame

/-- The code of one route. -/
structure RouteCode where
  hops : List HopCode
  /-- Sends the native balance on, after the last route. -/
  forward : Option Frame
  deriving DecidableEq

/-- The code of a route. -/
def RouteCode.code (route : RouteCode) : List Instruction :=
  route.hops.flatMap HopCode.code ++ route.forward.toList.map .frame

/-- A route's code with the share that it spends, where a trade is split. -/
structure RoutePart where
  share : Option Share
  route : RouteCode
  deriving DecidableEq

/-- The code of a route and its share. -/
def RoutePart.code (part : RoutePart) : List Instruction :=
  shared part.share part.route.code

/-- The code of all routes, side by side. -/
def routesCode (routes : List RoutePart) : List Instruction :=
  routes.flatMap RoutePart.code

/-- The code of a trade. -/
structure Program where
  /-- Wraps the whole native amount, before any route. -/
  wrap : Option Frame
  /-- The branch around all routes. -/
  branch : Option Branch
  routes : List RoutePart
  /-- Unwraps what all routes delivered. -/
  unwrap : Option Frame
  /-- Sends the native balance on, after that unwrap. -/
  forward : Option Frame
  /-- The share of the whole. -/
  share : Option Share
  deriving DecidableEq

namespace Program

/-- Everything that the share of the whole spends. -/
def content (program : Program) : List Instruction :=
  program.wrap.toList.map .frame ++
    branched program.branch (routesCode program.routes) ++
    program.unwrap.toList.map .frame ++
    program.forward.toList.map .frame

/-- The code of a trade. -/
def code (program : Program) : List Instruction :=
  shared program.share program.content

/-- The code of a trade on the wire, as the executor's argument. -/
def bytes (program : Program) : Bytes :=
  envelope (codeBytes program.code)

end Program

end SwapCompiler

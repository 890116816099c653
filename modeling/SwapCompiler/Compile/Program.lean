import SwapCompiler.Compile.Route
import SwapCompiler.Validity

/-!
# Compiling a trade

The routes of a trade, with what surrounds them: a wrap in front, a branch
around parallel routes whose native asset is wrapped or unwrapped as a whole,
an unwrap and the frame that sends the native balance on behind, and one share
of the whole around everything but a single hop and plain parallel routes.
-/

namespace SwapCompiler

namespace Plan

/-- The native asset is wrapped or unwrapped for the trade as a whole. -/
def rootNative (plan : Plan) : Bool :=
  plan.rootWrap || plan.rootUnwrap

/-- The flag of the branch around all routes.  An unwrap that follows needs the
balance of the wrapped token. -/
def rootBranchFlag (plan : Plan) : Flag :=
  if plan.rootUnwrap then ⟨.nothing, .token⟩ else ⟨.nothing, .nothing⟩

/-- The branch around all routes. -/
def rootBranch (plan : Plan) (children : Bytes) : Except Fault Branch := do
  let branch ←
    Branch.of plan.network.executor plan.rootBranchFlag (some plan.network.wrapped) children
  let _ ← (branch.frame children).checked
  .ok branch

/-- The code of the trade. -/
def program (plan : Plan) : Except Fault Program := do
  let routes ← plan.routes
  let branch ← onlyIf (plan.topology = .parallel && plan.rootNative)
    (plan.rootBranch (codeBytes (routesCode routes)))
  let wrap ← onlyIf plan.rootWrap plan.wrapFrame
  let unwrap ← onlyIf plan.rootUnwrap (plan.unwrapFrame Frame.unwrapFlag)
  let forward ← onlyIf plan.rootUnwrap Frame.sendNative.checked
  let program : Program :=
    { wrap := wrap
      branch := branch
      routes := routes
      unwrap := unwrap
      forward := forward
      share := none }
  let share ← onlyIf
    (plan.topology = .sequential || (plan.topology = .parallel && plan.rootNative))
    (Share.of 100.0 .whole (codeBytes program.content))
  .ok { program with share := share }

end Plan

namespace Job

/-- The trade is valid and has one adapter for each fill. -/
def check (job : Job) : Except Fault Unit :=
  job.trade.check job.adapters.length

/-- The code of a valid trade. -/
def compile (job : Job) : Except Fault Program := do
  job.check
  let plan ← Plan.of job
  plan.program

/-- The code of a valid trade on the wire. -/
def bytecode (job : Job) : Except Fault Bytes :=
  job.compile.map Program.bytes

end Job

/-- A call of the executor. -/
structure Transaction where
  target : Address
  /-- The native value sent along. -/
  value : Nat
  data : Bytes
  deriving DecidableEq

/-- The transaction that carries out a valid trade; a native source is sent
along as its value. -/
def Job.transaction (job : Job) : Except Fault Transaction := do
  let data ← job.bytecode
  .ok
    { target := job.network.executor
      value := if job.nativeSource then job.trade.sourceAmount else 0
      data := data }

end SwapCompiler

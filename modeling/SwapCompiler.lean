import SwapCompiler.Main
import SwapCompiler.Proofs.Native.Output
import SwapCompiler.Proofs.HandOff
import SwapCompiler.Proofs.Built.Contents
import SwapCompiler.Proofs.Blame
import SwapCompiler.Proofs.RootBranch
import SwapCompiler.Proofs.Levels
import SwapCompiler.Proofs.PatchSafety
import SwapCompiler.Proofs.WrapCalls
import SwapCompiler.Proofs.RouteOrder
import SwapCompiler.Proofs.Obstacles
import SwapCompiler.Proofs.Oversized
import SwapCompiler.Proofs.Reading.Portions
import SwapCompiler.Proofs.Twin.Restated
import SwapCompiler.Proofs.Twin.Tokens
import SwapCompiler.Proofs.Literal
import SwapCompiler.Proofs.TokenCalls
import SwapCompiler.Proofs.Flattening
import SwapCompiler.Proofs.WellFormed
import SwapCompiler.Proofs.AmountText
import SwapCompiler.Proofs.FillOrder
import SwapCompiler.Proofs.FixedWidth
import SwapCompiler.Proofs.Form.Survival

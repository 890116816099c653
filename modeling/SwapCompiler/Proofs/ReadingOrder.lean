import SwapCompiler.Code.Program
import Mathlib.Data.List.Basic

/-!
# The frames of a program in reading order

`codeFrames` lists all frames of some code as a reader meets them: a branch stands
in front of the code that it fans out to, and a share adds no frame.
`Program.reading` lists the frames of a compiled trade with what each is there
for; `codeFrames_code` says that the two lists are the same.
-/

namespace SwapCompiler

mutual

/-- The frames of an instruction, a branch in front of its children. -/
def Instruction.allFrames : Instruction → List Frame
  | .frame frame => [frame]
  | .branch branch children => branch.frame (codeBytes children) :: codeFrames children
  | .share _ content => codeFrames content

/-- The frames of some code, in reading order. -/
def codeFrames : List Instruction → List Frame
  | [] => []
  | instruction :: rest => instruction.allFrames ++ codeFrames rest

end

@[simp] theorem codeFrames_nil : codeFrames [] = [] := by
  simp [codeFrames]

@[simp] theorem codeFrames_cons (instruction : Instruction) (rest : List Instruction) :
    codeFrames (instruction :: rest) = instruction.allFrames ++ codeFrames rest := by
  simp [codeFrames]

@[simp] theorem codeFrames_append (first second : List Instruction) :
    codeFrames (first ++ second) = codeFrames first ++ codeFrames second := by
  induction first with
  | nil => simp
  | cons instruction rest ih => simp [ih]

theorem codeFrames_flatMap {α : Type} (list : List α) (write : α → List Instruction) :
    codeFrames (list.flatMap write) = list.flatMap fun element => codeFrames (write element) := by
  induction list with
  | nil => simp
  | cons element rest ih => simp [ih]

@[simp] theorem codeFrames_map_frame (frames : List Frame) :
    codeFrames (frames.map .frame) = frames := by
  induction frames with
  | nil => simp
  | cons frame rest ih => simp [ih, Instruction.allFrames]

@[simp] theorem codeFrames_shared (share : Option Share) (code : List Instruction) :
    codeFrames (shared share code) = codeFrames code := by
  cases share <;> simp [shared, Instruction.allFrames]

@[simp] theorem codeFrames_branched (branch : Option Branch) (code : List Instruction) :
    codeFrames (branched branch code) =
      (branch.toList.map fun found => found.frame (codeBytes code)) ++ codeFrames code := by
  cases branch <;> simp [branched, Instruction.allFrames]

/-- What a frame is there for. -/
inductive Role
  /-- Wraps the whole native amount. -/
  | rootWrap
  /-- Fans out to all routes. -/
  | rootBranch
  /-- Fans a hop out. -/
  | hopBranch
  /-- Wraps native asset in front of an exchange. -/
  | wrap
  | approve
  /-- Calls an exchange. -/
  | call
  /-- Unwraps behind an exchange. -/
  | unwrap
  | transfer
  /-- Unwraps between two hops. -/
  | midRouteUnwrap
  /-- Unwraps what all routes delivered. -/
  | rootUnwrap
  /-- Sends the native balance on. -/
  | forward
  deriving DecidableEq

/-- A frame that may be there, with its role. -/
def asRole (role : Role) (frame : Option Frame) : List (Role × Frame) :=
  frame.toList.map (role, ·)

/-- The frames of a fill. -/
def Leg.reading (leg : Leg) : List (Role × Frame) :=
  asRole .wrap leg.wrap ++ asRole .approve leg.approve ++ [(.call, leg.call)] ++
    asRole .unwrap leg.unwrap ++ asRole .transfer leg.transfer

/-- The frames of a hop: its branch, its legs, its unwrap. -/
def HopCode.reading (hop : HopCode) : List (Role × Frame) :=
  asRole .hopBranch (hop.branch.map fun branch => branch.frame (codeBytes hop.children)) ++
    (hop.parts.flatMap fun part => part.leg.reading) ++ asRole .midRouteUnwrap hop.unwrap

/-- The frames of a route: its hops, and the frame that sends the asset on. -/
def RouteCode.reading (route : RouteCode) : List (Role × Frame) :=
  route.hops.flatMap HopCode.reading ++ asRole .forward route.forward

/-- The frames of all routes. -/
def routesReading (routes : List RoutePart) : List (Role × Frame) :=
  routes.flatMap fun part => part.route.reading

/-- The frames in front of all routes. -/
def Program.opening (program : Program) : List (Role × Frame) :=
  asRole .rootWrap program.wrap ++
    asRole .rootBranch
      (program.branch.map fun branch => branch.frame (codeBytes (routesCode program.routes)))

/-- All frames of a program, in reading order, each with its role. -/
def Program.reading (program : Program) : List (Role × Frame) :=
  program.opening ++ routesReading program.routes ++ asRole .rootUnwrap program.unwrap ++
    asRole .forward program.forward

@[simp] theorem map_frame_asRole (role : Role) (frame : Option Frame) :
    (asRole role frame).map (·.2) = frame.toList := by
  cases frame <;> rfl

theorem Leg.codeFrames_code (leg : Leg) : codeFrames leg.code = leg.reading.map (·.2) := by
  simp [Leg.code, Leg.frames, Leg.reading, Instruction.allFrames]

theorem HopCode.codeFrames_code (hop : HopCode) :
    codeFrames hop.code = hop.reading.map (·.2) := by
  have hchildren : codeFrames hop.children =
      hop.parts.flatMap fun part => part.leg.reading.map (·.2) := by
    simp only [HopCode.children, codeFrames_flatMap, Part.code, codeFrames_shared,
      Leg.codeFrames_code]
  have hbranch : (hop.branch.map fun branch => branch.frame (codeBytes hop.children)).toList =
      hop.branch.toList.map fun branch => branch.frame (codeBytes hop.children) := by
    cases hop.branch <;> rfl
  simp [HopCode.code, HopCode.reading, hchildren, hbranch, List.map_flatMap]

theorem RouteCode.codeFrames_code (route : RouteCode) :
    codeFrames route.code = route.reading.map (·.2) := by
  simp [RouteCode.code, RouteCode.reading, codeFrames_flatMap, HopCode.codeFrames_code,
    List.map_flatMap]

/-- The code of a program holds exactly the frames that it is read as. -/
theorem Program.codeFrames_code (program : Program) :
    codeFrames program.code = program.reading.map (·.2) := by
  have hroutes : codeFrames (routesCode program.routes) =
      (routesReading program.routes).map (·.2) := by
    simp only [routesCode, routesReading, codeFrames_flatMap, RoutePart.code, codeFrames_shared,
      RouteCode.codeFrames_code, List.map_flatMap]
  have hbranch : (program.branch.map fun branch =>
      branch.frame (codeBytes (routesCode program.routes))).toList =
        program.branch.toList.map fun branch =>
          branch.frame (codeBytes (routesCode program.routes)) := by
    cases program.branch <;> rfl
  simp [Program.code, Program.content, Program.reading, Program.opening, hroutes, hbranch]

/-! ## Frames of one role -/

theorem mem_asRole {role : Role} {frame : Option Frame} {entry : Role × Frame} :
    entry ∈ asRole role frame ↔ entry.1 = role ∧ entry.2 ∈ frame := by
  obtain ⟨found, content⟩ := entry
  cases frame with
  | none => simp [asRole]
  | some frame => simp [asRole, eq_comm]

theorem Leg.role_of_mem_reading {leg : Leg} {entry : Role × Frame} (h : entry ∈ leg.reading) :
    entry.1 ∈ [Role.wrap, .approve, .call, .unwrap, .transfer] := by
  simp only [Leg.reading, List.mem_append, mem_asRole, List.mem_singleton] at h
  rcases h with (((⟨hrole, _⟩ | ⟨hrole, _⟩) | rfl) | ⟨hrole, _⟩) | ⟨hrole, _⟩ <;> simp [*]

theorem HopCode.role_of_mem_reading {hop : HopCode} {entry : Role × Frame}
    (h : entry ∈ hop.reading) :
    entry.1 ∈ [Role.hopBranch, .wrap, .approve, .call, .unwrap, .transfer, .midRouteUnwrap] := by
  simp only [HopCode.reading, List.mem_append, mem_asRole, List.mem_flatMap] at h
  rcases h with (⟨hrole, _⟩ | ⟨part, _, hleg⟩) | ⟨hrole, _⟩
  · simp [hrole]
  · have hrole := Leg.role_of_mem_reading hleg
    simp only [List.mem_cons, List.not_mem_nil, or_false] at hrole ⊢
    tauto
  · simp [hrole]

theorem Program.role_of_mem_opening {program : Program} {entry : Role × Frame}
    (h : entry ∈ program.opening) : entry.1 ∈ [Role.rootWrap, .rootBranch] := by
  rw [Program.opening, List.mem_append, mem_asRole, mem_asRole] at h
  rcases h with ⟨hrole, _⟩ | ⟨hrole, _⟩ <;> simp [hrole]

end SwapCompiler

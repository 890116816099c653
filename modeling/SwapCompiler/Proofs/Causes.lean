import SwapCompiler.Compile.Program
import SwapCompiler.Proofs.Outcome

/-!
# What stops a build

`FailsOnly sort step` says of a step that may fail that whatever stops it is a
cause of the given sort.  The laws below follow the shape of the builders, so that
the causes of a whole build are put together from those of its steps.

The smallest steps come first, each with the one fault that it can have.  `FindsPatterns`
is the case in which no mandatory pattern is ever missed.
-/

namespace SwapCompiler

/-- Whatever makes the step fail is of the given sort. -/
def FailsOnly {α : Type} (sort : Fault → Prop) (step : Except Fault α) : Prop :=
  ∀ fault, step = .error fault → sort fault

/-- The step never fails for want of a pattern. -/
abbrev FindsPatterns {α : Type} (step : Except Fault α) : Prop :=
  FailsOnly (fun fault => fault.kind ≠ .pattern) step

/-- Where a fault was made does not change of what kind it is. -/
theorem Fault.kind_locate (fault : Fault) (site : Site) :
    (fault.locate site).kind = fault.kind := by
  cases fault <;> rfl

namespace FailsOnly

variable {α β : Type} {sort weaker : Fault → Prop} {step : Except Fault α}

theorem ok (value : α) : FailsOnly sort (.ok value : Except Fault α) :=
  fun _ h => nomatch h

theorem error {fault : Fault} (h : sort fault) :
    FailsOnly sort (.error fault : Except Fault α) := by
  intro found hfound
  obtain rfl := Except.error.inj hfound
  exact h

theorem of_eq_ok {value : α} (h : step = .ok value) : FailsOnly sort step := by
  rw [h]
  exact .ok value

theorem mono (h : FailsOnly sort step) (hsort : ∀ fault, sort fault → weaker fault) :
    FailsOnly weaker step :=
  fun fault hfault => hsort fault (h fault hfault)

/-- The second of two steps runs only if the first has succeeded. -/
theorem bind_iff {next : α → Except Fault β} :
    FailsOnly sort (step >>= next) ↔
      FailsOnly sort step ∧ ∀ value, step = .ok value → FailsOnly sort (next value) := by
  cases step with
  | error cause =>
      constructor
      · intro h
        refine ⟨fun fault hfault => ?_, fun value hvalue => nomatch hvalue⟩
        obtain rfl : cause = fault := Except.error.inj hfault
        exact h cause rfl
      · rintro ⟨hfirst, _⟩ fault hfault
        obtain rfl : cause = fault := Except.error.inj hfault
        exact hfirst cause rfl
  | ok value =>
      constructor
      · intro h
        refine ⟨.ok value, fun found hfound => ?_⟩
        obtain rfl : value = found := Except.ok.inj hfound
        exact h
      · rintro ⟨_, hnext⟩
        exact hnext value rfl

theorem bind {next : α → Except Fault β} (hfirst : FailsOnly sort step)
    (hnext : ∀ value, step = .ok value → FailsOnly sort (next value)) :
    FailsOnly sort (step >>= next) :=
  bind_iff.2 ⟨hfirst, hnext⟩

theorem map {f : α → β} (h : FailsOnly sort step) : FailsOnly sort (step.map f) := by
  intro fault hfault
  cases hstep : step with
  | error cause =>
      rw [hstep] at hfault
      obtain rfl : cause = fault := Except.error.inj hfault
      exact h cause hstep
  | ok value =>
      rw [hstep] at hfault
      exact nomatch hfault

/-- A reworded cause is judged as it was reworded. -/
theorem mapError {reword : Fault → Fault}
    (h : FailsOnly (fun fault => sort (reword fault)) step) :
    FailsOnly sort (step.mapError reword) := by
  intro fault hfault
  cases hstep : step with
  | error cause =>
      rw [hstep] at hfault
      obtain rfl : reword cause = fault := Except.error.inj hfault
      exact h cause hstep
  | ok value =>
      rw [hstep] at hfault
      exact nomatch hfault

/-- What is built under a condition only fails under that condition only. -/
theorem onlyIf {needed : Bool} (h : needed = true → FailsOnly sort step) :
    FailsOnly sort (SwapCompiler.onlyIf needed step) := by
  cases needed with
  | false => exact .ok none
  | true => exact (h rfl).map

/-- A walk along a list fails where one of its elements does. -/
theorem mapM {list : List α} {build : α → Except Fault β}
    (h : ∀ element ∈ list, FailsOnly sort (build element)) :
    FailsOnly sort (list.mapM build) := by
  induction list with
  | nil => exact .ok []
  | cons element rest ih =>
      rw [List.mapM_cons]
      refine (h element List.mem_cons_self).bind fun first _ => ?_
      refine (ih fun other hmem => h other (List.mem_cons_of_mem _ hmem)).bind fun others _ => ?_
      exact .ok (first :: others)

/-- So does a walk that only checks. -/
theorem forM {list : List α} {check : α → Except Fault Unit}
    (h : ∀ element ∈ list, FailsOnly sort (check element)) :
    FailsOnly sort (list.forM check) := by
  induction list with
  | nil => exact .ok ()
  | cons element rest ih =>
      refine FailsOnly.bind (h element List.mem_cons_self) fun _ _ => ?_
      exact ih fun other hmem => h other (List.mem_cons_of_mem _ hmem)

end FailsOnly

/-! ## What stops the smallest steps -/

/-- A number that must have a fixed width fails if it is too large. -/
theorem fixed?_failsOnly (width value : Nat) (fault : Fault) :
    FailsOnly (fun found => found = fault ∧ Bytes.capacity width ≤ value)
      (match Bytes.fixed? width value with
        | some bytes => .ok bytes
        | none => .error fault : Except Fault Bytes) := by
  by_cases hfits : value < Bytes.capacity width
  · have hsome : Bytes.fixed? width value = some (Bytes.bigEndian width value) := if_pos hfits
    rw [hsome]
    exact .ok _
  · have hnone : Bytes.fixed? width value = none := if_neg hfits
    rw [hnone]
    exact .error ⟨rfl, Nat.le_of_not_lt hfits⟩

theorem field_failsOnly (name : String) (width value : Nat) :
    FailsOnly (fun fault => fault = .fieldTooWide name value width ∧
      Bytes.capacity width ≤ value) (field name width value) :=
  fixed?_failsOnly width value _

theorem amountWord_failsOnly (amount : Nat) :
    FailsOnly (fun fault => fault = .amountTooWide amount ∧ Bytes.capacity 32 ≤ amount)
      (amountWord amount) :=
  fixed?_failsOnly 32 amount _

theorem argumentWord_failsOnly (amount : Nat) :
    FailsOnly (fun fault => fault = .argumentTooWide amount ∧ Bytes.capacity 32 ≤ amount)
      (argumentWord amount) :=
  fixed?_failsOnly 32 amount _

theorem locate_failsOnly (what : String) (pattern text : Bytes) :
    FailsOnly (fun fault => fault.kind = .pattern) (locate what pattern text) := by
  unfold locate
  split
  · exact .ok _
  · exact .error rfl

/-- The fault of a frame whose length or offset does not fit in its field. -/
inductive Frame.Misfit (frame : Frame) : Fault → Prop
  | length : Bytes.capacity 4 ≤ frame.body.length + Frame.padding →
      Misfit frame (.fieldTooWide "Frame length" (frame.body.length + Frame.padding) 4)
  | amountOffset : Bytes.capacity 2 ≤ frame.amountOffset →
      Misfit frame (.fieldTooWide "fromAmount offset" frame.amountOffset 2)
  | tokenOffset : Bytes.capacity 2 ≤ frame.tokenOffset →
      Misfit frame (.fieldTooWide "destToken offset" frame.tokenOffset 2)

theorem Frame.checked_failsOnly (frame : Frame) : FailsOnly frame.Misfit frame.checked := by
  refine ((field_failsOnly _ _ _).mono ?_).bind fun _ _ =>
    ((field_failsOnly _ _ _).mono ?_).bind fun _ _ =>
      ((field_failsOnly _ _ _).mono ?_).bind fun _ _ => .ok _
  · rintro _ ⟨rfl, hwide⟩
    exact .length hwide
  · rintro _ ⟨rfl, hwide⟩
    exact .amountOffset hwide
  · rintro _ ⟨rfl, hwide⟩
    exact .tokenOffset hwide

theorem Frame.unwrap_failsOnly (wrapped : Address) (withdraw : Bytes) (flag : Flag) :
    FailsOnly (fun fault => fault = .withdrawTooShort withdraw.length ∧ withdraw.length < 36)
      (Frame.unwrap wrapped withdraw flag) := by
  unfold Frame.unwrap
  split
  · next hshort => exact .error ⟨rfl, hshort⟩
  · exact .ok _

theorem PlacedHop.adapters_failsOnly (hop : PlacedHop) (given : List Adapter) :
    FailsOnly (fun fault => ∃ placed ∈ hop.fills, given[placed.index]? = none ∧
      fault = .adapterMissing placed.index) (hop.adapters given) := by
  refine .mapM fun placed hplaced => ?_
  unfold PlacedFill.adapter
  split
  · exact .ok _
  · next hnone => exact .error ⟨placed, hplaced, hnone, rfl⟩

/-- A combination for which there is no code is the fault of the topology. -/
theorem Plan.checkCombination_failsOnly (plan : Plan) (scene : HopScene)
    (adapters : List Adapter) :
    FailsOnly (fun fault => fault.kind = .topology) (plan.checkCombination scene adapters) := by
  simp only [Plan.checkCombination]
  split
  · exact .error rfl
  · split
    · exact .error rfl
    · split
      · exact .error rfl
      · exact .ok ()

/-! ## Steps that search for nothing -/

theorem field_findsPatterns (name : String) (width value : Nat) :
    FindsPatterns (field name width value) := by
  refine (field_failsOnly name width value).mono ?_
  rintro _ ⟨rfl, _⟩
  exact nofun

theorem amountWord_findsPatterns (amount : Nat) : FindsPatterns (amountWord amount) := by
  refine (amountWord_failsOnly amount).mono ?_
  rintro _ ⟨rfl, _⟩
  exact nofun

theorem argumentWord_findsPatterns (amount : Nat) : FindsPatterns (argumentWord amount) := by
  refine (argumentWord_failsOnly amount).mono ?_
  rintro _ ⟨rfl, _⟩
  exact nofun

theorem Frame.checked_findsPatterns (frame : Frame) : FindsPatterns frame.checked := by
  refine frame.checked_failsOnly.mono fun _ hmisfit => ?_
  cases hmisfit <;> exact nofun

theorem Frame.unwrap_findsPatterns (wrapped : Address) (withdraw : Bytes) (flag : Flag) :
    FindsPatterns (Frame.unwrap wrapped withdraw flag) := by
  refine (Frame.unwrap_failsOnly wrapped withdraw flag).mono ?_
  rintro _ ⟨rfl, _⟩
  exact nofun

theorem PlacedHop.adapters_findsPatterns (hop : PlacedHop) (given : List Adapter) :
    FindsPatterns (hop.adapters given) := by
  refine (hop.adapters_failsOnly given).mono ?_
  rintro _ ⟨placed, _, _, rfl⟩
  exact nofun

namespace Plan

variable (plan : Plan)

theorem wrapFrame_findsPatterns : FindsPatterns plan.wrapFrame := by
  refine .bind ?_ fun deposit _ => Frame.checked_findsPatterns _
  unfold Job.deposit
  split
  · exact .ok _
  · exact .error nofun

theorem unwrapFrame_findsPatterns (flag : Flag) : FindsPatterns (plan.unwrapFrame flag) := by
  refine .bind ?_ fun withdraw _ =>
    (Frame.unwrap_findsPatterns _ _ _).bind fun _ _ => Frame.checked_findsPatterns _
  unfold Job.withdraw
  split
  · exact .ok _
  · exact .error nofun

theorem checkCombination_findsPatterns (scene : HopScene) (adapters : List Adapter) :
    FindsPatterns (plan.checkCombination scene adapters) := by
  refine (plan.checkCombination_failsOnly scene adapters).mono fun fault hkind => ?_
  rw [hkind]
  exact nofun

end Plan

/-! ## Steps that search -/

/-- A share finds what it is taken from if its source can be located. -/
theorem Share.of_findsPatterns {percent : Float} {source : ShareSource} {body : Bytes}
    (h : ∃ position, Share.positionOf percent source body = .ok position) :
    FindsPatterns (Share.of percent source body) := by
  obtain ⟨position, hposition⟩ := h
  exact (FailsOnly.of_eq_ok hposition).bind fun _ _ =>
    (field_findsPatterns _ _ _).bind fun _ _ =>
      (field_findsPatterns _ _ _).bind fun _ _ => .ok _

end SwapCompiler

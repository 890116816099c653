import SwapCompiler.Compile.Leg
import Mathlib.Data.List.Forall2

/-!
# Successful outcomes

What it says about the steps of a build that the build as a whole succeeded:
every step succeeded, and each was handed the results of the steps before it.
The compiler is opened with these laws instead of by cases on every step.
-/

namespace SwapCompiler

section Except

variable {ε α β : Type}

/-- A sequence of two steps succeeds exactly if both steps do. -/
theorem bind_eq_ok_iff {first : Except ε α} {next : α → Except ε β} {result : β} :
    (first >>= next) = .ok result ↔ ∃ value, first = .ok value ∧ next value = .ok result := by
  cases first with
  | error cause => simp [bind, Except.bind]
  | ok value => simp [bind, Except.bind]

theorem map_eq_ok_iff {step : Except ε α} {f : α → β} {result : β} :
    step.map f = .ok result ↔ ∃ value, step = .ok value ∧ f value = result := by
  cases step with
  | error cause => simp [Except.map]
  | ok value => simp [Except.map]

/-- Rewording the cause of a failure does not change what succeeds. -/
theorem mapError_eq_ok_iff {δ : Type} {step : Except ε α} {reword : ε → δ} {result : α} :
    step.mapError reword = .ok result ↔ step = .ok result := by
  cases step with
  | error cause => simp [Except.mapError]
  | ok value => simp [Except.mapError]

theorem eq_ok_of_toOption {step : Except ε α} {value : α} (h : step.toOption = some value) :
    step = .ok value := by
  cases step with
  | error cause => exact nomatch h
  | ok found => exact congrArg _ (Option.some.inj h)

theorem exists_eq_ok_of_isSome {step : Except ε α} (h : step.toOption.isSome) :
    ∃ value, step = .ok value := by
  obtain ⟨value, hvalue⟩ := Option.isSome_iff_exists.1 h
  exact ⟨value, eq_ok_of_toOption hvalue⟩

/-- A walk along a list succeeds exactly if every element's step does. -/
theorem mapM_eq_ok_iff {step : α → Except ε β} {list : List α} {results : List β} :
    list.mapM step = .ok results ↔
      List.Forall₂ (fun element result => step element = .ok result) list results := by
  induction list generalizing results with
  | nil => simp [pure, Except.pure, eq_comm]
  | cons element rest ih =>
      rw [List.mapM_cons, bind_eq_ok_iff, List.forall₂_cons_left_iff]
      constructor
      · rintro ⟨first, hfirst, hrest⟩
        obtain ⟨others, hothers, hresults⟩ := bind_eq_ok_iff.1 hrest
        exact ⟨first, others, hfirst, ih.1 hothers, (Except.ok.inj hresults).symm⟩
      · rintro ⟨first, others, hfirst, hothers, rfl⟩
        exact ⟨first, hfirst, bind_eq_ok_iff.2 ⟨others, ih.2 hothers, rfl⟩⟩

/-- A walk that only checks passes exactly if every element passes. -/
theorem forM_eq_ok_iff {check : α → Except ε Unit} {list : List α} :
    list.forM check = .ok () ↔ ∀ element ∈ list, check element = .ok () := by
  induction list with
  | nil => simp [pure, Except.pure]
  | cons element rest ih =>
      show (check element >>= fun _ => rest.forM check) = .ok () ↔ _
      rw [bind_eq_ok_iff, List.forall_mem_cons, ← ih]
      exact ⟨fun ⟨_, helement, hrest⟩ => ⟨helement, hrest⟩,
        fun ⟨helement, hrest⟩ => ⟨(), helement, hrest⟩⟩

end Except

section Pairs

variable {α β : Type} {relation : α → β → Prop} {first : List α} {second : List β}

/-- Lists that are related element by element are related at every position. -/
theorem rel_of_forall₂ (h : List.Forall₂ relation first second) {k : Nat} {a : α} {b : β}
    (ha : first[k]? = some a) (hb : second[k]? = some b) : relation a b := by
  induction h generalizing k with
  | nil => simp at ha
  | cons hhead _ ih =>
      cases k with
      | zero =>
          obtain rfl := Option.some.inj ha
          obtain rfl := Option.some.inj hb
          exact hhead
      | succ k => exact ih ha hb

/-- What one of two lists of the same length has at a position has a partner in the
other. -/
theorem exists_getElem?_of_length_eq (hlength : first.length = second.length) {k : Nat} {a : α}
    (ha : first[k]? = some a) : ∃ b, second[k]? = some b := by
  obtain ⟨hk, _⟩ := List.getElem?_eq_some_iff.1 ha
  rw [hlength] at hk
  exact ⟨second[k], List.getElem?_eq_getElem hk⟩

/-- In related lists, it is related to its partner. -/
theorem exists_rel_of_forall₂ (h : List.Forall₂ relation first second) {k : Nat} {a : α}
    (ha : first[k]? = some a) : ∃ b, second[k]? = some b ∧ relation a b := by
  obtain ⟨b, hb⟩ := exists_getElem?_of_length_eq h.length_eq ha
  exact ⟨b, hb, rel_of_forall₂ h ha hb⟩

/-- Every element of the second list is related to one of the first. -/
theorem exists_mem_of_forall₂ (h : List.Forall₂ relation first second) {b : β}
    (hb : b ∈ second) : ∃ a ∈ first, relation a b := by
  induction h with
  | nil => exact nomatch hb
  | cons hhead _ ih =>
      rcases List.mem_cons.1 hb with rfl | hlater
      · exact ⟨_, List.mem_cons_self, hhead⟩
      · obtain ⟨a, ha, hrelated⟩ := ih hlater
        exact ⟨a, List.mem_cons_of_mem _ ha, hrelated⟩

/-- Lists of one length that are related at every position are related element
by element. -/
theorem forall₂_of_getElem? (hlength : first.length = second.length)
    (h : ∀ (k : Nat) a b, first[k]? = some a → second[k]? = some b → relation a b) :
    List.Forall₂ relation first second := by
  induction first generalizing second with
  | nil => simp [List.eq_nil_of_length_eq_zero hlength.symm]
  | cons a rest ih =>
      obtain ⟨b, others, rfl⟩ := List.exists_cons_of_length_eq_add_one hlength.symm
      refine .cons (h 0 a b rfl rfl) (ih (by simpa using hlength) fun k a' b' ha hb => ?_)
      exact h (k + 1) a' b' (by simpa using ha) (by simpa using hb)

/-- What relates the members of two related lists relates the lists. -/
theorem forall₂_imp_of_mem {weaker : α → β → Prop} (h : List.Forall₂ relation first second)
    (himp : ∀ a ∈ first, ∀ b ∈ second, relation a b → weaker a b) :
    List.Forall₂ weaker first second :=
  forall₂_of_getElem? h.length_eq fun _ a b ha hb =>
    himp a (List.mem_of_getElem? ha) b (List.mem_of_getElem? hb) (rel_of_forall₂ h ha hb)

theorem any_eq_of_forall₂ {f : α → Bool} {g : β → Bool}
    (h : List.Forall₂ (fun a b => f a = g b) first second) : first.any f = second.any g := by
  induction h with
  | nil => rfl
  | cons hhead _ ih => rw [List.any_cons, List.any_cons, hhead, ih]

/-- Every result for the elements of a list is there for the same elements in another
order. -/
theorem exists_forall₂_of_perm {other : List α} (hperm : other.Perm first) {results : List β}
    (h : List.Forall₂ relation first results) :
    ∃ others, List.Forall₂ relation other others ∧
      (other.zip others).Perm (first.zip results) := by
  induction hperm generalizing results with
  | nil =>
      obtain rfl := List.forall₂_nil_left_iff.1 h
      exact ⟨[], .nil, .nil⟩
  | cons element _ ih =>
      obtain ⟨result, rest, hresult, hrest, rfl⟩ := List.forall₂_cons_left_iff.1 h
      obtain ⟨others, hothers, hzip⟩ := ih hrest
      exact ⟨result :: others, .cons hresult hothers, hzip.cons _⟩
  | swap one two rest =>
      obtain ⟨first, tail, hfirst, htail, rfl⟩ := List.forall₂_cons_left_iff.1 h
      obtain ⟨second, later, hsecond, hlater, rfl⟩ := List.forall₂_cons_left_iff.1 htail
      exact ⟨second :: first :: later, .cons hsecond (.cons hfirst hlater), .swap _ _ _⟩
  | trans _ _ ih₁ ih₂ =>
      obtain ⟨between, hbetween, hzip⟩ := ih₂ h
      obtain ⟨others, hothers, hzip'⟩ := ih₁ hbetween
      exact ⟨others, hothers, hzip'.trans hzip⟩

end Pairs

section OnlyIf

variable {α : Type} {needed : Bool} {build : Except Fault α} {result : Option α}

/-- A part that is built only under a condition is there exactly under that
condition, and then as it was built. -/
theorem onlyIf_eq_ok_iff :
    onlyIf needed build = .ok result ↔
      result.isSome = needed ∧ ∀ value ∈ result, build = .ok value := by
  cases needed with
  | false => cases result <;> simp [onlyIf]
  | true => cases result <;> simp [onlyIf, map_eq_ok_iff]

theorem isSome_of_onlyIf (h : onlyIf needed build = .ok result) : result.isSome = needed :=
  (onlyIf_eq_ok_iff.1 h).1

theorem eq_ok_of_onlyIf {value : α} (h : onlyIf needed build = .ok (some value)) :
    build = .ok value :=
  (onlyIf_eq_ok_iff.1 h).2 value rfl

/-- What is not needed is not there. -/
theorem eq_none_of_onlyIf (h : onlyIf needed build = .ok result) (hneeded : needed = false) :
    result = none := by
  have hsome := isSome_of_onlyIf h
  rw [hneeded] at hsome
  exact Option.not_isSome_iff_eq_none.1 (by simp [hsome])

/-- What is needed is there. -/
theorem exists_of_onlyIf (h : onlyIf needed build = .ok result) (hneeded : needed = true) :
    ∃ value, result = some value ∧ build = .ok value := by
  have hsome := isSome_of_onlyIf h
  rw [hneeded] at hsome
  obtain ⟨value, rfl⟩ := Option.isSome_iff_exists.1 hsome
  exact ⟨value, rfl, eq_ok_of_onlyIf h⟩

end OnlyIf

end SwapCompiler

import SwapCompiler.Flag.Rules

/-!
# What the tables of flags decide

A table is read from the top.  `FlagRule.first_cons` takes one row off; from it,
for the conditions under which a later frame depends on a balance, which balance
the chosen flag reads.
-/

namespace SwapCompiler

namespace FlagRule

variable {Facts : Type} {facts : Facts} {otherwise : Flag}

theorem first_nil : first [] facts otherwise = otherwise := rfl

/-- A row that applies decides; otherwise the rows below it do. -/
theorem first_cons (rule : FlagRule Facts) (rules : List (FlagRule Facts)) :
    first (rule :: rules) facts otherwise =
      if rule.applies facts then rule.flag else first rules facts otherwise := by
  unfold first
  rw [List.find?_cons]
  cases rule.applies facts <;> rfl

end FlagRule

/-- A hop that is not the last reads the native balance if it leaves raw native
asset, and a token's balance otherwise; on a first hop this takes an exchange that
is neither special nor inside a branch. -/
theorem HopFacts.check_flag_of_not_last {facts : HopFacts} (hlast : facts.last = false)
    (hfirst : (facts.first && (facts.branched || facts.special)) = false)
    (hnative : (facts.nativeSource && facts.nativeDestination) = false) :
    facts.flag.check =
      if facts.nativeDestination && !facts.unwraps then .native else .token := by
  simp only [flag, rules, FlagRule.first_cons, FlagRule.first_nil, hfirst, hlast]
  -- the rows for a native source come first, so the two native cases do not meet
  cases hsource : facts.nativeSource <;> cases hdestination : facts.nativeDestination <;>
    cases facts.first <;> cases facts.wraps <;> cases facts.unwraps <;>
      cases facts.horizontal <;> simp_all

/-- The branch of a hop that is not the last reads the native balance if some
exchange leaves raw native asset, and a token's balance otherwise. -/
theorem BranchFacts.check_flag_of_not_last {facts : BranchFacts} (hlast : facts.last = false) :
    facts.flag.check =
      if facts.nativeDestination && facts.anyRaw then .native else .token := by
  rw [flag, hlast, if_neg Bool.false_ne_true]
  split <;> rfl

/-- Behind a last hop the branch reads the balance of what is unwrapped later. -/
theorem BranchFacts.check_flag_of_last {facts : BranchFacts} (hlast : facts.last = true) :
    facts.flag.check =
      if facts.nativeDestination && facts.anyWrapping then .token else .nothing := by
  rw [flag, hlast, if_pos rfl]
  split <;> rfl

/-- A branch that reads a token's balance behind a hop that buys native asset has some
exchange that delivers the wrapped token. -/
theorem BranchFacts.anyWrapping_of_check {facts : BranchFacts}
    (hnative : facts.nativeDestination = true) (hcheck : facts.flag.check = .token)
    (hone : facts.anyWrapping = true ∨ facts.anyRaw = true) : facts.anyWrapping = true := by
  cases hlast : facts.last with
  | true =>
      rw [check_flag_of_last hlast, hnative, Bool.true_and] at hcheck
      cases hwraps : facts.anyWrapping with
      | true => rfl
      | false => simp [hwraps] at hcheck
  | false =>
      rw [check_flag_of_not_last hlast, hnative, Bool.true_and] at hcheck
      rcases hone with hwraps | hraw
      · exact hwraps
      · simp [hraw] at hcheck

/-- An exchange that delivers the wrapped token of a native pair reads its balance,
unless it is a branched or special one on a first hop. -/
theorem HopFacts.check_flag_of_unwraps {facts : HopFacts}
    (hfirst : (facts.first && (facts.branched || facts.special)) = false)
    (hwraps : facts.wraps = facts.nativeSource) (hnative : facts.nativeDestination = true)
    (hunwraps : facts.unwraps = true) : facts.flag.check = .token := by
  simp only [flag, rules, FlagRule.first_cons, FlagRule.first_nil, hfirst, hwraps, hnative,
    hunwraps]
  cases facts.nativeSource <;> simp

end SwapCompiler

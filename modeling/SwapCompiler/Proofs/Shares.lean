import SwapCompiler.Proofs.Built.Program
import SwapCompiler.Proofs.Search

/-!
# Headers of code that a machine can hold

A share fails if its source is missing, or if a length or a position does not fit in the
header.  The fields are as wide as the numbers of a 64-bit machine, or wider, and code that
such a machine can hold is counted by them.

* `Plan.Countable` says that the routes of a trade compile to code of such a length.
  Nothing else bounds their length: a trade may have any number of hops.
* `Share.exists_of` builds the share of such code, if the source is found.
* `Share.of_append` and `Share.of_of_append` say that code which is added behind the
  source does not change the share.
-/

namespace SwapCompiler

namespace Share

variable {percent : Float} {source : ShareSource} {body : Bytes} {share : Share}

/-- The source of a share stands inside the body, unless it is the native balance or the
whole. -/
theorem position_lt {position : Nat} (h : positionOf percent source body = .ok position)
    (hlength : body.length < Bytes.capacity 8) : position < Bytes.capacity 8 := by
  unfold positionOf at h
  split at h
  · rw [← Except.ok.inj h]
    decide
  · cases source with
    | whole =>
        rw [← Except.ok.inj h]
        decide
    | native =>
        rw [← Except.ok.inj h]
        decide
    | token token =>
        have hoccurs := Bytes.occursAt_of_firstIndex? (locate_eq_ok_iff.1 h)
        have hinside := hoccurs.add_length_le token.bytes_ne_nil
        omega

/-- Code that can be counted has a share, if the source is found. -/
theorem exists_of (hposition : ∃ position, positionOf percent source body = .ok position)
    (hlength : body.length < Bytes.capacity 8) :
    ∃ share, Share.of percent source body = .ok share := by
  obtain ⟨position, hposition⟩ := hposition
  have hwider : Bytes.capacity 8 ≤ Bytes.capacity 16 := by decide
  exact ⟨⟨position, hundredthsOf percent⟩, of_eq_ok_iff.2
    ⟨hposition, rfl, Nat.lt_of_lt_of_le hlength hwider, position_lt hposition hlength⟩⟩

/-- The share of the whole is taken from nothing in particular. -/
theorem positionOf_whole (percent : Float) (body : Bytes) :
    positionOf percent .whole body = .ok 0 := by
  unfold positionOf
  split <;> rfl

theorem exists_whole (percent : Float) (hlength : body.length < Bytes.capacity 16) :
    ∃ share, Share.of percent .whole body = .ok share :=
  have hzero : 0 < Bytes.capacity 8 := by decide
  ⟨⟨0, hundredthsOf percent⟩,
    of_eq_ok_iff.2 ⟨positionOf_whole percent body, rfl, hlength, hzero⟩⟩

theorem positionOf_append {position : Nat} (h : positionOf percent source body = .ok position)
    (tail : Bytes) : positionOf percent source (body ++ tail) = .ok position := by
  unfold positionOf at h ⊢
  split
  · next hwhole => rwa [if_pos hwhole] at h
  · next hwhole =>
      rw [if_neg hwhole] at h
      cases source with
      | whole => exact h
      | native => exact h
      | token token =>
          exact locate_eq_ok_iff.2 (Bytes.firstIndex?_append (locate_eq_ok_iff.1 h) tail)

/-- A share stays as it is if its body grows behind the source. -/
theorem of_append (h : Share.of percent source body = .ok share) {tail : Bytes}
    (hlength : (body ++ tail).length < Bytes.capacity 16) :
    Share.of percent source (body ++ tail) = .ok share := by
  obtain ⟨hposition, hhundredths, _, hfits⟩ := of_eq_ok_iff.1 h
  exact of_eq_ok_iff.2 ⟨positionOf_append hposition tail, hhundredths, hlength, hfits⟩

/-- And it has been so without what was added, if the source was already there. -/
theorem of_of_append {tail : Bytes} (h : Share.of percent source (body ++ tail) = .ok share)
    (hfound : ∃ position, positionOf percent source body = .ok position) :
    Share.of percent source body = .ok share := by
  obtain ⟨hposition, hhundredths, hlength, hfits⟩ := of_eq_ok_iff.1 h
  obtain ⟨position, hbefore⟩ := hfound
  have hsame : position = share.position :=
    Except.ok.inj ((positionOf_append hbefore tail).symm.trans hposition)
  rw [hsame] at hbefore
  rw [List.length_append] at hlength
  exact of_eq_ok_iff.2 ⟨hbefore, hhundredths, by omega, hfits⟩

end Share

/-! ## Code that can be counted -/

/-- A 64-bit machine can hold the code of every route that compiles. -/
def Plan.Countable (plan : Plan) : Prop :=
  ∀ route ∈ plan.layout.routes, ∀ code ∈ (plan.route route).toOption,
    (codeBytes code.code).length < Bytes.capacity 8

instance (plan : Plan) : Decidable plan.Countable :=
  inferInstanceAs (Decidable (∀ route ∈ plan.layout.routes, ∀ code ∈ (plan.route route).toOption,
    (codeBytes code.code).length < Bytes.capacity 8))

/-- So far as the trade can be planned. -/
def Job.Countable (job : Job) : Prop :=
  ∀ plan ∈ (Plan.of job).toOption, plan.Countable

instance (job : Job) : Decidable job.Countable :=
  inferInstanceAs (Decidable (∀ plan ∈ (Plan.of job).toOption, plan.Countable))

theorem Job.Countable.plan {job : Job} {plan : Plan} (h : job.Countable)
    (hplan : Plan.of job = .ok plan) : plan.Countable :=
  h plan (by rw [hplan]; rfl)

theorem Plan.Countable.length_lt {plan : Plan} (h : plan.Countable) {route : PlacedRoute}
    (hroute : route ∈ plan.layout.routes) {code : RouteCode} (hcode : plan.route route = .ok code) :
    (codeBytes code.code).length < Bytes.capacity 8 :=
  h route hroute code (by rw [hcode]; rfl)

end SwapCompiler

import SwapCompiler.Proofs.Settled

/-!
# Two runs side by side

Which parts of a request can be seen in the result?  The question is about two runs of the
compiler, so it is answered for pairs: `EndsAlike` says of two runs that both end with the
same value, or both with the same fault, and its laws follow the shape of the builders.
Exchange names may stand in a fault; they are compared after a renaming, which is the
identity if they matter and forgets them if they do not.

* `Trade.Twin` relates trades that differ in nothing but names and amounts bought.  They pass
  the same checks and have the same layout.
* `Adapter.Twin` relates adapters that serve a fill alike.  Whether they deal with the
  wrapped token is compared only if the fill deals with the native asset.
* `PlacedHop.Twin` and `PlacedRoute.Twin` relate parts of two layouts.
-/

namespace SwapCompiler

/-- The fault with every exchange name in it replaced. -/
def Fault.renamed (rename : String → String) : Fault → Fault
  | .zeroFillAmount exchange => .zeroFillAmount (rename exchange)
  | .patternAbsent what pattern searched site =>
      .patternAbsent what pattern searched
        (site.map fun place => { place with exchange := rename place.exchange })
  | fault => fault

@[simp] theorem Fault.renamed_id (fault : Fault) : fault.renamed id = fault := by
  cases fault <;> simp [renamed]

theorem Fault.kind_renamed (rename : String → String) (fault : Fault) :
    (fault.renamed rename).kind = fault.kind := by
  cases fault <;> rfl

/-- A site that is renamed to the same one makes no difference. -/
theorem Fault.renamed_locate {rename : String → String} {first second : String}
    (h : rename second = rename first) (hop route : Nat) (fault : Fault) :
    (fault.locate ⟨second, hop, route⟩).renamed rename =
      (fault.locate ⟨first, hop, route⟩).renamed rename := by
  cases fault <;> simp [locate, renamed, h]

/-- Both runs end with the same value, or both with the same fault, up to exchange names. -/
def EndsAlike {α : Type} (rename : String → String) (run other : Except Fault α) : Prop :=
  other.mapError (Fault.renamed rename) = run.mapError (Fault.renamed rename)

namespace EndsAlike

variable {α β : Type} {rename : String → String} {run other : Except Fault α}

theorem of_eq (h : other = run) : EndsAlike rename run other := by
  rw [EndsAlike, h]

theorem error {fault cause : Fault} (h : cause.renamed rename = fault.renamed rename) :
    EndsAlike rename (.error fault : Except Fault α) (.error cause) :=
  congrArg Except.error h

/-- The two ways to end. -/
theorem iff_cases : EndsAlike rename run other ↔
    (∃ value, run = .ok value ∧ other = .ok value) ∨
      ∃ fault cause, run = .error fault ∧ other = .error cause ∧
        cause.renamed rename = fault.renamed rename := by
  cases run <;> cases other <;> simp [EndsAlike, Except.mapError, eq_comm]

theorem bind {next later : α → Except Fault β} (h : EndsAlike rename run other)
    (hnext : ∀ value, run = .ok value → EndsAlike rename (next value) (later value)) :
    EndsAlike rename (run >>= next) (other >>= later) := by
  rcases iff_cases.1 h with ⟨value, hrun, rfl⟩ | ⟨fault, cause, rfl, rfl, hfault⟩
  · rw [hrun]
    exact hnext value hrun
  · exact error hfault

theorem map (f : α → β) (h : EndsAlike rename run other) :
    EndsAlike rename (run.map f) (other.map f) := by
  rcases iff_cases.1 h with ⟨value, rfl, rfl⟩ | ⟨fault, cause, rfl, rfl, hfault⟩
  · exact of_eq rfl
  · exact error hfault

/-- Two ways to reword a fault that come to the same after the renaming. -/
theorem reword {first second : Fault → Fault}
    (h : ∀ fault, (second fault).renamed rename = (first fault).renamed rename) :
    EndsAlike rename (run.mapError first) (run.mapError second) := by
  cases run with
  | ok value => exact of_eq rfl
  | error fault => exact error (h fault)

theorem onlyIf {needed : Bool} (h : needed = true → EndsAlike rename run other) :
    EndsAlike rename (SwapCompiler.onlyIf needed run) (SwapCompiler.onlyIf needed other) := by
  cases needed with
  | false => exact of_eq rfl
  | true => exact (h rfl).map some

/-- A walk along paired lists, step by step. -/
theorem mapM {γ : Type} {step : α → Except Fault β} {later : γ → Except Fault β} {list : List α}
    {others : List γ}
    (h : List.Forall₂ (fun element partner => EndsAlike rename (step element) (later partner))
      list others) :
    EndsAlike rename (list.mapM step) (others.mapM later) := by
  induction h with
  | nil => exact of_eq rfl
  | cons hhead _ ih =>
      rw [List.mapM_cons, List.mapM_cons]
      exact hhead.bind fun _ _ => ih.bind fun _ _ => of_eq rfl

end EndsAlike

/-! ## Twin trades -/

/-- Fills that sell the same part of their hop under names that are renamed alike.  What
they buy is left open. -/
structure Fill.Twin (rename : String → String) (fill other : Fill) : Prop where
  percent : other.percent = fill.percent
  sourceAmount : other.sourceAmount = fill.sourceAmount
  exchange : rename other.exchange = rename fill.exchange

structure Hop.Twin (rename : String → String) (hop other : Hop) : Prop where
  source : other.source = hop.source
  destination : other.destination = hop.destination
  fills : List.Forall₂ (Fill.Twin rename) hop.fills other.fills

structure Route.Twin (rename : String → String) (route other : Route) : Prop where
  percent : other.percent = route.percent
  hops : List.Forall₂ (Hop.Twin rename) route.hops other.hops

/-- Trades of the same pair along twin routes.  Of the amounts traded it matters only
whether something is sold. -/
structure Trade.Twin (rename : String → String) (trade other : Trade) : Prop where
  source : other.source = trade.source
  destination : other.destination = trade.destination
  sourceAmount : other.sourceAmount = 0 ↔ trade.sourceAmount = 0
  routes : List.Forall₂ (Route.Twin rename) trade.routes other.routes

section

variable {α β γ : Type} {list : List α} {others : List β}

theorem map_eq_of_forall₂ {f : α → γ} {g : β → γ}
    (h : List.Forall₂ (fun element partner => g partner = f element) list others) :
    others.map g = list.map f := by
  induction h with
  | nil => rfl
  | cons hhead _ ih => rw [List.map_cons, List.map_cons, hhead, ih]

/-- Numbered elements that are checked alike. -/
theorem forM_zipIdx_eq_of_forall₂ {check : α × Nat → Except Fault Unit}
    {again : β × Nat → Except Fault Unit}
    (h : List.Forall₂ (fun element partner => ∀ i, again (partner, i) = check (element, i))
      list others) (start : Nat) :
    (others.zipIdx start).forM again = (list.zipIdx start).forM check := by
  induction h generalizing start with
  | nil => rfl
  | @cons element partner list others hhead _ ih =>
      show (again (partner, start) >>= fun _ => (others.zipIdx (start + 1)).forM again) =
        check (element, start) >>= fun _ => (list.zipIdx (start + 1)).forM check
      rw [hhead, ih]

theorem isEmpty_eq_of_forall₂ {relation : α → β → Prop} (h : List.Forall₂ relation list others) :
    others.isEmpty = list.isEmpty := by
  cases h <;> rfl

theorem optionRel_getElem? {relation : α → β → Prop} (h : List.Forall₂ relation list others)
    (k : Nat) : Option.Rel relation list[k]? others[k]? := by
  induction h generalizing k with
  | nil => exact .none
  | cons hhead _ ih =>
      cases k with
      | zero => exact .some hhead
      | succ k => exact ih k

end

namespace Trade

variable {rename : String → String} {trade other : Trade}

theorem checkFills_twin {hop partner : Hop} (h : hop.Twin rename partner) (route position : Nat) :
    checkFills route position partner = checkFills route position hop := by
  have hpercents : partner.fills.map (·.percent) = hop.fills.map (·.percent) :=
    map_eq_of_forall₂ (h.fills.imp fun _ _ hfill => hfill.percent)
  rw [checkFills, checkFills, hpercents, isEmpty_eq_of_forall₂ h.fills]

theorem checkRouteFills_twin {route partner : Route} (h : route.Twin rename partner)
    (position : Nat) : checkRouteFills position partner = checkRouteFills position route := by
  rw [checkRouteFills, checkRouteFills, isEmpty_eq_of_forall₂ h.hops]
  by_cases hempty : route.hops.isEmpty
  · rw [if_pos hempty, if_pos hempty]
  · rw [if_neg hempty, if_neg hempty]
    exact forM_zipIdx_eq_of_forall₂ (h.hops.imp fun _ _ hhop => checkFills_twin hhop position) 0

theorem checkLinks_twin {hops partners : List Hop}
    (h : List.Forall₂ (Hop.Twin rename) hops partners) (route position : Nat) :
    checkLinks route position partners = checkLinks route position hops := by
  induction h generalizing position with
  | nil => rfl
  | cons hhead hrest ih =>
      cases hrest with
      | nil => rfl
      | cons hnext _ =>
          rw [checkLinks, checkLinks, ih (position + 1), hhead.destination, hnext.source]

theorem checkRoutePath_twin (h : trade.Twin rename other) {route partner : Route}
    (hroute : route.Twin rename partner) (position : Nat) :
    checkRoutePath other position partner = checkRoutePath trade position route := by
  have hfirst : Option.Rel (Hop.Twin rename) route.hops.head? partner.hops.head? := by
    rw [List.head?_eq_getElem?, List.head?_eq_getElem?]
    exact optionRel_getElem? hroute.hops 0
  have hlast : Option.Rel (Hop.Twin rename) route.hops.getLast? partner.hops.getLast? := by
    rw [List.getLast?_eq_getElem?, List.getLast?_eq_getElem?, hroute.hops.length_eq]
    exact optionRel_getElem? hroute.hops _
  have hlinks := checkLinks_twin hroute.hops position 0
  unfold checkRoutePath
  generalize route.hops.head? = first at hfirst ⊢
  generalize partner.hops.head? = firstPartner at hfirst ⊢
  generalize route.hops.getLast? = last at hlast ⊢
  generalize partner.hops.getLast? = lastPartner at hlast ⊢
  cases hfirst with
  | none => rfl
  | some hstart =>
      cases hlast with
      | none => rfl
      | some hend =>
          simp only [hstart.source, hend.destination, h.source, h.destination, hlinks]

namespace Twin

variable (h : trade.Twin rename other)

include h

theorem checkShares_eq : other.checkShares = trade.checkShares := by
  have hpercents : other.routes.map (·.percent) = trade.routes.map (·.percent) :=
    map_eq_of_forall₂ (h.routes.imp fun _ _ hroute => hroute.percent)
  rw [checkShares, checkShares, hpercents, isEmpty_eq_of_forall₂ h.routes]
  by_cases hempty : trade.routes.isEmpty
  · rw [if_pos hempty, if_pos hempty]
  · rw [if_neg hempty, if_neg hempty]
    refine congrArg (checkPercents .routes _ >>= ·) (funext fun _ => ?_)
    exact forM_zipIdx_eq_of_forall₂ (h.routes.imp fun _ _ hroute => checkRouteFills_twin hroute) 0

theorem checkPaths_eq : other.checkPaths = trade.checkPaths :=
  forM_zipIdx_eq_of_forall₂ (h.routes.imp fun _ _ hroute => checkRoutePath_twin h hroute) 0

theorem fills : List.Forall₂ (Fill.Twin rename) trade.fills other.fills := by
  refine List.rel_flatMap h.routes fun route partner hroute => ?_
  exact List.rel_flatMap hroute.hops fun hop counterpart hhop => hhop.fills

/-- The first fill that sells nothing is reported by its name. -/
theorem checkAmounts_endsAlike : EndsAlike rename trade.checkAmounts other.checkAmounts := by
  unfold checkAmounts
  by_cases hzero : trade.sourceAmount = 0
  · rw [if_pos hzero, if_pos (h.sourceAmount.2 hzero)]
    exact .of_eq rfl
  · rw [if_neg hzero, if_neg fun hother => hzero (h.sourceAmount.1 hother)]
    have hfills := h.fills
    generalize trade.fills = fills at hfills
    generalize other.fills = others at hfills
    induction hfills with
    | nil => exact .of_eq rfl
    | @cons fill partner fills others hfill _ ih =>
        by_cases hnothing : fill.sourceAmount = 0
        · simp only [List.find?, hfill.sourceAmount, hnothing, decide_true]
          exact .error (congrArg Fault.zeroFillAmount hfill.exchange)
        · simpa only [List.find?, hfill.sourceAmount, hnothing, decide_false] using ih

theorem fillCount_eq : (Layout.of other).fillCount = (Layout.of trade).fillCount := by
  rw [Layout.fillCount_eq, Layout.fillCount_eq, h.fills.length_eq]

/-- Twins pass the same checks. -/
theorem check_endsAlike (count : Nat) :
    EndsAlike rename (trade.check count) (other.check count) := by
  refine (EndsAlike.of_eq h.checkShares_eq).bind fun _ _ => ?_
  refine (EndsAlike.of_eq h.checkPaths_eq).bind fun _ _ => ?_
  refine h.checkAmounts_endsAlike.bind fun _ _ => .of_eq ?_
  rw [Layout.checkAdapters, Layout.checkAdapters, h.fillCount_eq]

theorem topology_eq : other.topology = trade.topology := by
  have hroutes := h.routes
  unfold topology
  generalize trade.routes = routes at hroutes ⊢
  generalize other.routes = others at hroutes ⊢
  cases hroutes with
  | nil => rfl
  | cons hhead hrest =>
      cases hrest with
      | nil => simp only [hhead.hops.length_eq]
      | cons _ _ => rfl

end Twin

end Trade

/-! ## Twin layouts -/

/-- Twin fills of the same number. -/
structure PlacedFill.Twin (rename : String → String) (placed other : PlacedFill) : Prop where
  index : other.index = placed.index
  fill : placed.fill.Twin rename other.fill

/-- Hops of the same pair, both first or not and last or not, whose fills are paired one by
one. -/
structure PlacedHop.Twin (pair : PlacedFill → PlacedFill → Prop) (hop other : PlacedHop) :
    Prop where
  first : other.first = hop.first
  last : other.last = hop.last
  source : other.hop.source = hop.hop.source
  destination : other.hop.destination = hop.hop.destination
  fills : List.Forall₂ pair hop.fills other.fills

/-- Routes at the same place, whose hops are paired one by one. -/
structure PlacedRoute.Twin (pair : PlacedHop → PlacedHop → Prop) (route other : PlacedRoute) :
    Prop where
  position : other.position = route.position
  percent : other.route.percent = route.route.percent
  hops : List.Forall₂ pair route.hops other.hops

theorem PlacedRoute.Twin.horizontal_eq {pair : PlacedHop → PlacedHop → Prop}
    {route other : PlacedRoute} (h : route.Twin pair other) :
    other.horizontal = route.horizontal := by
  rw [PlacedRoute.horizontal, PlacedRoute.horizontal, h.hops.length_eq]

section

variable {rename : String → String}

theorem placeFills_twin {fills others : List Fill}
    (h : List.Forall₂ (Fill.Twin rename) fills others) (index : Nat) :
    List.Forall₂ (PlacedFill.Twin rename) (placeFills index fills) (placeFills index others) := by
  induction h generalizing index with
  | nil => exact .nil
  | cons hhead _ ih => exact .cons ⟨rfl, hhead⟩ (ih (index + 1))

theorem countFills_twin {hops others : List Hop} (h : List.Forall₂ (Hop.Twin rename) hops others) :
    countFills others = countFills hops := by
  induction h with
  | nil => rfl
  | cons hhead _ ih => rw [countFills, countFills, ih, hhead.fills.length_eq]

theorem placeHops_twin {hops others : List Hop} (h : List.Forall₂ (Hop.Twin rename) hops others)
    (index position : Nat) :
    List.Forall₂ (fun hop other => other.position = hop.position ∧
        hop.Twin (PlacedFill.Twin rename) other)
      (placeHops index position hops) (placeHops index position others) := by
  induction h generalizing index position with
  | nil => exact .nil
  | @cons hop partner hops others hhead hrest ih =>
      rw [placeHops, placeHops, isEmpty_eq_of_forall₂ hrest, ← hhead.fills.length_eq]
      refine .cons ?_ (ih _ _)
      exact ⟨rfl, rfl, rfl, hhead.source, hhead.destination, placeFills_twin hhead.fills index⟩

theorem placeRoutes_twin {routes others : List Route}
    (h : List.Forall₂ (Route.Twin rename) routes others) (index position : Nat) :
    List.Forall₂ (PlacedRoute.Twin fun hop other => other.position = hop.position ∧
        hop.Twin (PlacedFill.Twin rename) other)
      (placeRoutes index position routes) (placeRoutes index position others) := by
  induction h generalizing index position with
  | nil => exact .nil
  | cons hhead _ ih =>
      rw [placeRoutes, placeRoutes, countFills_twin hhead.hops]
      exact .cons ⟨rfl, hhead.percent, placeHops_twin hhead.hops index 0⟩ (ih _ _)

end

/-- Adapters whose calls, allowances and payments are the same.  Only where the native asset
is dealt with does it matter who wants the wrapped token. -/
structure Adapter.Twin (native : Bool) (adapter other : Adapter) : Prop where
  target : other.target = adapter.target
  calldata : other.calldata = adapter.calldata
  paysRecipient : other.paysRecipient = adapter.paysRecipient
  namesDestination : other.namesDestination = adapter.namesDestination
  opcode : other.opcode = adapter.opcode
  allowee : other.allowee = adapter.allowee
  returnPosition : other.returnPosition.getD 0 = adapter.returnPosition.getD 0
  wrapsNative : native = true → other.wrapsNative = adapter.wrapsNative

theorem Adapter.Twin.refl (native : Bool) (adapter : Adapter) : adapter.Twin native adapter :=
  ⟨rfl, rfl, rfl, rfl, rfl, rfl, rfl, fun _ => rfl⟩

end SwapCompiler
